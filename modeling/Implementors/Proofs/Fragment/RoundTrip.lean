import Implementors.Proofs.Fragment.Layouts
import Implementors.Proofs.Text.Literal
import Mathlib

/-!
# Emitted fragments are read back

Every emitted line is read as the assignment it was written from, unless the name of its crate holds
the mark that ends the name: then the name is cut short inside its literal. So a fragment is read back
as it was just if no name holds that mark, and otherwise the first such name is reported.
-/
namespace Implementors.Fragment

open Text Text.Literal

/-- The list of an assignment, with its semicolon. -/
def writtenList (items : List Text) : Text :=
  ['['] ++ items.flatMap (fun item => write item ++ [',']) ++ "];".toList

theorem assignment_eq (crate : Text) (items : List Text) :
    assignment crate items =
      assignmentStart ++ (write crate ++ assignmentMiddle ++ writtenList items) := by
  simp [assignment, writtenList]

theorem newline_not_mem_assignment (crate : Text) (items : List Text) :
    '\n' ∉ assignment crate items := by
  have hs : '\n' ∉ assignmentStart := by decide
  have hm : '\n' ∉ assignmentMiddle := by decide
  simp [assignment, newline_not_mem_write, hs, hm]

/-- An assignment is one line, which reading cuts behind its beginning. -/
theorem assignmentOf?_assignment (crate : Text) (items : List Text) :
    assignmentOf? (assignment crate items) =
      some (write crate ++ assignmentMiddle ++ writtenList items) := by
  have hconcat : write crate ++ assignmentMiddle ++ writtenList items =
      write crate ++ assignmentMiddle ++
        (['['] ++ items.flatMap (fun item => write item ++ [',']) ++ [']']) ++ [';'] := by
    simp [writtenList]
  rw [assignment_eq, hconcat, assignmentOf?_concat]

/-- Written items have a comma behind each. -/
theorem listLayout_written (items : List Text) :
    ListLayout (items.flatMap fun item => write item ++ [',']) items := by
  cases items with
  | nil => exact .empty isGap_nil
  | cons item items =>
    have hcommas : (item :: items).flatMap (fun item => write item ++ [',']) =
        [','].intercalate ((item :: items).map write) ++ [','] := by
      rw [← flatMap_append_eq_intercalate _ (by simp), List.flatMap_map]
    rw [hcommas]
    exact .comma (items_write item items) isGap_nil

theorem readList_writtenList (items : List Text) : readList (writtenList items) = .ok items := by
  have hlist := (listLayout_written items).readList isGap_nil
  simpa [writtenList] using hlist

theorem isPlain_assignmentMiddle : ∀ c ∈ assignmentMiddle, IsPlain c :=
  List.all_iff_forall_prop.1 (by decide)

/-- The mark is found in a written name where it stands in the name, and else behind it. -/
theorem cut?_write (crate rest : Text) :
    cut? assignmentMiddle (write crate ++ rest) =
      match cut? assignmentMiddle crate with
      | some (before, after) =>
        some ('"' :: before.flatMap writeChar, after.flatMap writeChar ++ '"' :: rest)
      | none => (cut? assignmentMiddle rest).map fun r => (write crate ++ r.1, r.2) := by
  have hq : ']' ∉ ['"'] := by decide
  have hw : write crate ++ rest = ['"'] ++ (crate.flatMap writeChar ++ '"' :: rest) := by
    simp [write]
  rw [hw, cut?_append_of_not_mem (by decide) hq, cut?_written isPlain_assignmentMiddle (by decide)]
  cases cut? assignmentMiddle crate <;> simp [write, Function.comp_def]

theorem readAssignment_of_not_infix {crate : Text} (h : ¬ assignmentMiddle <:+: crate)
    (items : List Text) :
    readAssignment (write crate ++ assignmentMiddle ++ writtenList items) =
      .ok (crate, items) := by
  have hm : assignmentMiddle ≠ [] := by decide
  have hc : cut? assignmentMiddle (write crate ++ assignmentMiddle ++ writtenList items) =
      some (write crate, writtenList items) := by
    rw [List.append_assoc, cut?_write, (cut?_eq_none_iff hm).2 h, cut?_mark hm]
    simp
  rw [readAssignment, hc]
  simp only [read?_write, readList_writtenList]
  rfl

theorem readAssignment_of_infix {crate : Text} (h : assignmentMiddle <:+: crate) (rest : Text) :
    readAssignment (write crate ++ rest) = .error .badLiteral := by
  have hm : assignmentMiddle ≠ [] := by decide
  cases hc : cut? assignmentMiddle crate with
  | none => exact absurd h ((cut?_eq_none_iff hm).1 hc)
  | some r =>
    rw [readAssignment, cut?_write, hc]
    simp only [read?_unclosed]

/-- Lines that do not begin like an assignment change nothing. -/
theorem readLines_of_none {lines : List Text} (h : ∀ l ∈ lines, assignmentOf? l = none)
    (number : Nat) (f : Fragment) : readLines number f lines = .ok f := by
  induction lines generalizing number with
  | nil => rfl
  | cons l lines ih =>
    simp only [readLines, h l List.mem_cons_self]
    exact ih (fun m hm => h m (List.mem_cons_of_mem _ hm)) (number + 1)

/-- No line of the closing begins like an assignment. -/
theorem readLines_closing (number : Nat) (f : Fragment) :
    readLines number f (splitOn '\n' closing) = .ok f :=
  readLines_of_none (by decide) number f

/-- Emitted assignments are carried out in their order, as long as no name holds the mark. -/
theorem readLines_assignments {entries : List (Text × List Text)}
    (h : ∀ e ∈ entries, ¬ assignmentMiddle <:+: e.1) (number : Nat) (f : Fragment)
    (rest : List Text) :
    readLines number f (entries.map (fun e => assignment e.1 e.2) ++ rest) =
      readLines (number + entries.length) (f.assignAll entries) rest := by
  induction entries generalizing number f with
  | nil => rfl
  | cons e entries ih =>
    have he := readAssignment_of_not_infix (h e List.mem_cons_self) e.2
    rw [List.map_cons, List.cons_append, readLines]
    simp only [assignmentOf?_assignment, he]
    rw [ih fun d hd => h d (List.mem_cons_of_mem _ hd), List.length_cons, Nat.add_assoc,
      Nat.add_comm 1]
    rfl

/-- The rest of the opening's own line is empty; the emitted lines follow from line two on. -/
theorem parse_emit_eq (f : Fragment) :
    parse f.emit = readLines 2 Catalog.empty
      (f.entries.map (fun e => assignment e.1 e.2) ++ splitOn '\n' closing) := by
  have hbody : f.emit = [] ++ opening ++ ('\n' ::
      ((f.entries.map fun e => assignment e.1 e.2).flatMap (· ++ ['\n']) ++ closing)) := by
    simp [emit, List.flatMap_map]
  have hlines : ∀ l ∈ f.entries.map fun e => assignment e.1 e.2, '\n' ∉ l := by
    intro l hl
    obtain ⟨e, -, rfl⟩ := List.mem_map.1 hl
    exact newline_not_mem_assignment e.1 e.2
  rw [hbody, parse_eq isGap_nil.isBlank, splitOn_separator, splitOn_flatMap hlines]
  rfl

theorem parse_emit_of_clean {f : Fragment}
    (h : ∀ crate ∈ f.keys, ¬ assignmentMiddle <:+: crate) : parse f.emit = .ok f := by
  have he : ∀ e ∈ f.entries, ¬ assignmentMiddle <:+: e.1 := fun e he =>
    h e.1 (List.mem_map_of_mem he)
  rw [parse_emit_eq, readLines_assignments he, readLines_closing]
  exact congrArg Except.ok f.foldl_insert_entries

/-- Reading stops at the line of the first name that holds the mark. -/
theorem parse_emit_of_first {f : Fragment} {before after : List Text} {crate : Text}
    (hk : f.keys = before ++ crate :: after) (hb : ∀ c ∈ before, ¬ assignmentMiddle <:+: c)
    (hc : assignmentMiddle <:+: crate) :
    parse f.emit = .error (.badLine (before.length + 2) .badLiteral) := by
  obtain ⟨es, ds, he, rfl, hd⟩ := List.map_eq_append_iff.1 hk
  obtain ⟨e, rest, rfl, rfl, -⟩ := List.map_eq_cons_iff.1 hd
  have hes : ∀ e ∈ es, ¬ assignmentMiddle <:+: e.1 := fun e he => hb e.1 (List.mem_map_of_mem he)
  have hline := readAssignment_of_infix hc (assignmentMiddle ++ writtenList e.2)
  rw [parse_emit_eq, he, List.map_append, List.append_assoc, readLines_assignments hes,
    List.map_cons, List.cons_append, readLines]
  simp only [assignmentOf?_assignment, List.append_assoc, hline, List.length_map, Nat.add_comm]

/-- A fragment is read back from its script, crate by crate and item by item, just if no name holds
the mark that ends a name. Otherwise the line of the first such name is reported: names are written
from line two on, one a line. -/
theorem parse_emit (f : Fragment) :
    (parse f.emit = .ok f ↔ ∀ crate ∈ f.keys, ¬ assignmentMiddle <:+: crate) ∧
      ∀ before crate after, f.keys = before ++ crate :: after →
        (∀ c ∈ before, ¬ assignmentMiddle <:+: c) → assignmentMiddle <:+: crate →
          parse f.emit = .error (.badLine (before.length + 2) .badLiteral) := by
  refine ⟨⟨fun hok => ?_, parse_emit_of_clean⟩, fun _ _ _ hk hb hc => parse_emit_of_first hk hb hc⟩
  by_contra hn
  obtain ⟨crate, hm, hc⟩ : ∃ crate ∈ f.keys, assignmentMiddle <:+: crate := by simpa using hn
  -- Of the names that hold the mark, the first one is reported.
  cases hf : f.keys.find? (assignmentMiddle <:+: ·) with
  | none => exact absurd hc (by simpa using List.find?_eq_none.1 hf crate hm)
  | some first =>
    obtain ⟨hp, before, after, hk, hb⟩ := List.find?_eq_some_iff_append.1 hf
    have herr := parse_emit_of_first hk (by simpa using hb) (by simpa using hp)
    rw [hok] at herr
    cases herr

/-- The name of the second crate ends too early, on line three. -/
theorem parse_emit_mark_in_name :
    let f : Fragment := ⟨[("a".toList, ["];\n".toList]), ("b] = c".toList, [])], by decide⟩
    parse f.emit = .error (.badLine 3 .badLiteral) :=
  (parse_emit ⟨[("a".toList, ["];\n".toList]), ("b] = c".toList, [])], by decide⟩).2
    ["a".toList] "b] = c".toList [] (by decide) (by decide) (by decide)

end Implementors.Fragment
