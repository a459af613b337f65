import Implementors.Proofs.Command.Page
import Implementors.Proofs.Header.NormalForm
import Implementors.Proofs.Store.Runs
import Implementors.Proofs.Text.Lines
import Mathlib

/-!
# Lines of a text panel

A panel in plain text is a heading and then, for every crate that has implementors, a line with its name
and one line for each of them. Whatever their markup was, no line end gets into these lines: headers
that were read have neat parts, and free text is squashed before it is shown. So the line ends of the
panel count its lines.
-/
namespace Implementors

/-- What is registered with an empty store is listed under the crates it was registered for. -/
theorem Store.of_mem_registeredOnto_empty {policy : Policy}
    {entries : List (Text × List Implementor)} {e : Text × List Implementor}
    (h : e ∈ ((Store.empty policy).registeredOnto entries).byCrate.entries) :
    e.1 ∈ entries.map Prod.fst ∧ ∀ i ∈ e.2, ∃ d ∈ entries, i ∈ d.2 := by
  rw [entries_registeredOnto_empty] at h
  obtain ⟨crate, hc, rfl⟩ := List.mem_map.1 h
  refine ⟨mem_mentioned.1 hc, fun i hi => ?_⟩
  obtain ⟨d, hd, hid⟩ := List.mem_flatMap.1 (Policy.mem_kept.1 hi)
  exact ⟨d, List.mem_of_mem_filter hd, hid⟩

namespace Panel

/-- What the line of an implementor says; free text is squashed. -/
def said (i : Implementor) : Text :=
  if i.header.isVerbatim then Text.squash i.header.typeName else i.header.display

/-- The lines of one crate: its name, and one for each of its implementors, if it has any. -/
def crateLines (crate : Text) (implementors : List Implementor) : List Text :=
  if implementors.isEmpty then []
  else ("  ".toList ++ crate) :: implementors.map fun i => "    ".toList ++ said i

/-- The lines of a panel, without their line ends. -/
def lines (crates : List (Text × List Implementor)) : List Text :=
  "Implementors".toList ::
    if crates.all (·.2.isEmpty) then ["  (none)".toList]
    else crates.flatMap fun e => crateLines e.1 e.2

theorem textLines_eq (crate : Text) (implementors : List Implementor) :
    textLines crate implementors = (crateLines crate implementors).flatMap (· ++ ['\n']) := by
  rw [textLines, crateLines]
  split
  · rfl
  · rw [List.flatMap_cons, List.flatMap_map]
    rfl

theorem text_eq (crates : List (Text × List Implementor)) :
    text crates = (lines crates).flatMap (· ++ ['\n']) := by
  have hheading : "Implementors\n".toList = "Implementors".toList ++ ['\n'] := by decide
  have hnone : "  (none)\n".toList = "  (none)".toList ++ ['\n'] := by decide
  unfold text lines
  rw [List.flatMap_cons, hheading]
  by_cases h : crates.all (·.2.isEmpty) = true
  · rw [if_pos h, if_pos h, List.flatMap_singleton, hnone]
  · rw [if_neg h, if_neg h, List.flatMap_assoc]
    simp only [textLines_eq]

/-- There is a line for each crate that has implementors and for each implementor. -/
theorem length_flatMap_crateLines (crates : List (Text × List Implementor)) :
    (crates.flatMap fun e => crateLines e.1 e.2).length =
      (crates.filter (!·.2.isEmpty)).length + (crates.flatMap (·.2)).length := by
  induction crates with
  | nil => rfl
  | cons e crates ih =>
    rw [List.flatMap_cons, List.flatMap_cons, List.length_append, List.length_append, ih]
    cases he : e.2 with
    | nil => simp [crateLines, he]
    | cons i is =>
      simp [crateLines, he]
      omega

theorem length_lines (crates : List (Text × List Implementor)) :
    (lines crates).length =
      if (crates.flatMap (·.2)).length = 0 then 2
      else 1 + (crates.filter (!·.2.isEmpty)).length + (crates.flatMap (·.2)).length := by
  have hnone : crates.all (·.2.isEmpty) = true ↔ (crates.flatMap (·.2)).length = 0 := by
    rw [List.length_eq_zero_iff, List.flatMap_eq_nil_iff, List.all_eq_true]
    simp only [List.isEmpty_iff]
  rw [lines, List.length_cons]
  simp only [hnone]
  split
  · rfl
  · rw [length_flatMap_crateLines]
    omega

/-- Whatever the markup, there is no blank but single inner spaces in what is said. -/
theorem tidy_said_read (markup : Text) : Text.Tidy (said (Markup.read markup)) := by
  rw [said]
  split
  · exact Text.tidy_squash _
  · next h => exact (Header.neat_ofText h).tidy_display

theorem newline_not_mem_of_tidy {s : Text} (h : Text.Tidy s) : '\n' ∉ s := by
  intro hm
  have hs := h.spaces '\n' hm rfl
  cases hs

theorem newline_not_mem_lines {crates : List (Text × List Implementor)}
    (hnames : ∀ e ∈ crates, '\n' ∉ e.1) (htidy : ∀ e ∈ crates, ∀ i ∈ e.2, Text.Tidy (said i)) :
    ∀ l ∈ lines crates, '\n' ∉ l := by
  intro l hl
  rcases List.mem_cons.1 hl with rfl | hl
  · decide
  split at hl
  · obtain rfl := List.mem_singleton.1 hl
    decide
  · obtain ⟨e, he, hl⟩ := List.mem_flatMap.1 hl
    rw [crateLines] at hl
    split at hl
    · cases hl
    · rcases List.mem_cons.1 hl with rfl | hl
      · exact List.not_mem_append (by decide) (hnames e he)
      · obtain ⟨i, hi, rfl⟩ := List.mem_map.1 hl
        exact List.not_mem_append (by decide) (newline_not_mem_of_tidy (htidy e he i hi))

/-- In a store of what fragments list, the names of crates are theirs, and every implementor was read
from markup. -/
theorem of_mem_mergeAll_ofFragment {policy : Policy} {fragments : List Fragment}
    {e : Text × List Implementor}
    (h : e ∈ ((Store.empty policy).mergeAll (fragments.map Mapping.ofFragment)).1.byCrate.entries) :
    (∃ f ∈ fragments, e.1 ∈ f.keys) ∧ ∀ i ∈ e.2, ∃ markup, i = Markup.read markup := by
  rw [Store.mergeAll_fst_eq] at h
  have hentries : ∀ d ∈ (fragments.map Mapping.ofFragment).flatMap (·.entries),
      ∃ f ∈ fragments, ∃ c ∈ f.entries, d = (c.1, c.2.map Markup.read) := by
    intro d hd
    obtain ⟨m, hm, hd⟩ := List.mem_flatMap.1 hd
    obtain ⟨f, hf, rfl⟩ := List.mem_map.1 hm
    rw [Mapping.entries_ofFragment] at hd
    obtain ⟨c, hc, rfl⟩ := List.mem_map.1 hd
    exact ⟨f, hf, c, hc, rfl⟩
  obtain ⟨hcrate, hlisted⟩ := Store.of_mem_registeredOnto_empty h
  constructor
  · obtain ⟨d, hd, he⟩ := List.mem_map.1 hcrate
    obtain ⟨f, hf, c, hc, rfl⟩ := hentries d hd
    exact ⟨f, hf, he ▸ List.mem_map_of_mem hc⟩
  · intro i hi
    obtain ⟨d, hd, hid⟩ := hlisted i hi
    obtain ⟨f, -, c, -, rfl⟩ := hentries d hd
    obtain ⟨markup, -, rfl⟩ := List.mem_map.1 hid
    exact ⟨markup, rfl⟩

/-- A text panel that shows what fragments list, under whatever policy, has one line end for its
heading, one for each visible crate that lists something and one for each implementor shown, or two in
all if none is. Each implementor has a line of its own: four spaces and a text that has no blank but
single inner spaces, whatever its markup was. -/
theorem text_has_one_line_each (policy : Policy) {fragments : List Fragment}
    (hnames : ∀ f ∈ fragments, ∀ crate ∈ f.keys, '\n' ∉ crate) (current : Option Text)
    (links : LinkTable) :
    let store := ((Store.empty policy).mergeAll (fragments.map Mapping.ofFragment)).1
    let crates := visible current store
    let (contents, shown) := renderStore { format := .text, currentCrate := current, links } store
    contents.count '\n' =
        (if shown = 0 then 2 else 1 + (crates.filter (!·.2.isEmpty)).length + shown) ∧
      Text.splitOn '\n' contents = lines crates ++ [[]] ∧
      ∀ e ∈ crates, ∀ i ∈ e.2, Text.Tidy (said i) := by
  intro store crates
  have hentries : ∀ e ∈ crates, '\n' ∉ e.1 ∧ ∀ i ∈ e.2, Text.Tidy (said i) := by
    intro e he
    obtain ⟨⟨f, hf, hc⟩, hread⟩ := of_mem_mergeAll_ofFragment (List.mem_of_mem_filter he)
    refine ⟨hnames f hf e.1 hc, fun i hi => ?_⟩
    obtain ⟨markup, rfl⟩ := hread i hi
    exact tidy_said_read markup
  have hlines := newline_not_mem_lines (fun e he => (hentries e he).1) fun e he => (hentries e he).2
  refine ⟨?_, ?_, fun e he => (hentries e he).2⟩
  · change (text crates).count '\n' = _
    rw [text_eq, Text.count_flatMap_lines hlines, length_lines]
  · change Text.splitOn '\n' (text crates) = _
    have hsplit := Text.splitOn_flatMap hlines []
    rw [List.append_nil] at hsplit
    rw [text_eq, hsplit]
    rfl

/-- Line ends of every kind: raw, as a tag, and as a reference; in a header and in free text. The current
crate is left out, and another one lists nothing. -/
theorem text_has_one_line_each_raw_breaks :
    let fragments : List Fragment := [⟨[
      ("a".toList, ["impl T\n for X<br/> where&nbsp;A: B,&#10;<i>C</i>: D".toList,
        "free\r\n<b>text</b>&#x2028; &nbsp;here<BR >".toList]),
      ("b".toList, []), ("c".toList, ["impl T for Y".toList])], by decide⟩]
    let store := ((Store.empty .keepAll).mergeAll (fragments.map Mapping.ofFragment)).1
    let crates := visible (some "c".toList) store
    let (contents, shown) :=
      renderStore { format := .text, currentCrate := some "c".toList, links := Catalog.empty } store
    (∀ f ∈ fragments, ∀ crate ∈ f.keys, '\n' ∉ crate) ∧ shown = 2 ∧
      lines crates = ["Implementors".toList, "  a".toList,
        "    impl T for X where A: B, C: D".toList, "    free text here".toList] ∧
      contents.count '\n' =
        (if shown = 0 then 2 else 1 + (crates.filter (!·.2.isEmpty)).length + shown) ∧
      Text.splitOn '\n' contents = lines crates ++ [[]] ∧
      ∀ e ∈ crates, ∀ i ∈ e.2, Text.Tidy (said i) := by
  intro fragments store crates
  have hnames : ∀ f ∈ fragments, ∀ crate ∈ f.keys, '\n' ∉ crate := by decide
  exact ⟨hnames, by decide, by decide,
    text_has_one_line_each .keepAll hnames (some "c".toList) Catalog.empty⟩

end Panel
end Implementors
