import Implementors.Proofs.Command.EmitAgain
import Implementors.Proofs.Command.Page
import Implementors.Proofs.Header.WellFormed
import Mathlib

/-!
# From a manifest to a page

A page on an emitted script shows the headers that the manifest describes. Each header is laid out with
links, escaped, written into the script, read from it and from its markup, and displayed; as reading
gives it back, entries with different markup have different headers, and so are shown differently. The
links of the manifest leave no trace.
-/
namespace Implementors

open Command FileTree

/-- The text page on one crate with one line for each of some headers. -/
def PageRequest.headerPage (crate : Text) (lines : List Text) : Text :=
  "Implementors\n".toList ++
    if lines.isEmpty then "  (none)\n".toList
    else "  ".toList ++ crate ++ ['\n'] ++ lines.flatMap fun l => "    ".toList ++ l ++ ['\n']

namespace Manifest

/-- The lines for a trait: the display text of its headers, each at its first place. -/
def linesOf (m : Manifest) (p : TraitPath) : List Text :=
  ((m.headersOf p).map Header.display).eraseDups

/-- The manifest with another link table. -/
def withLinks (m : Manifest) (links : LinkTable) : Manifest := { m with links }

theorem check_withLinks {m : Manifest} (h : m.check = .ok m) (links : LinkTable) :
    (m.withLinks links).check = .ok (m.withLinks links) := by
  rw [check] at h ⊢
  split at h
  · cases h
  split at h
  · cases h
  split at h
  · cases h
  · next hc ht _ hi =>
    have hp : (m.withLinks links).invalidPath? = none := hi
    rw [if_neg (show ¬ (Text.trim (m.withLinks links).crate).isEmpty = true from hc),
      if_neg (show ¬ (m.withLinks links).traits.isEmpty = true from ht), hp]

end Manifest

/-- Readable headers that are displayed alike are the same. -/
theorem Header.Readable.eq_of_display_eq {h g : Header} (hh : h.Readable) (hg : g.Readable)
    (he : h.display = g.display) : h = g := by
  have hd := congrArg Header.ofText he
  rwa [hh.ofText_display, hg.ofText_display] at hd

namespace PageRequest

/-- Without a current crate, all rows of a table are shown. -/
theorem others_none (rows : List (Text × List Text)) : others none rows = rows :=
  List.filter_eq_self.2 fun _ _ => rfl

theorem table_single (crate : Text) (items : List Text) :
    table [Fragment.single crate items] = [(crate, items.eraseDups)] := by
  have hl : listedFor crate [(crate, items)] = items := by simp [listedFor]
  have ht : table [Fragment.single crate items] =
      [(crate, (listedFor crate [(crate, items)]).eraseDups)] := rfl
  rw [ht, hl]

/-- The markup of a readable header is shown as its display text, under whatever links. -/
theorem shownText_render {h : Header} (hr : h.Readable) (links : LinkTable) :
    shownText (h.render links) = h.display := by
  rw [shownText, hr.ofText_toText_render links, if_neg (Header.not_isVerbatim hr.traitName_ne_nil)]

/-- Duplicates by markup are duplicates by display text. -/
theorem map_shownText_eraseDups {headers : List Header} (hr : ∀ h ∈ headers, h.Readable)
    (links : LinkTable) : (headers.map (·.render links)).eraseDups.map shownText =
      (headers.map Header.display).eraseDups := by
  have hinj : ∀ a ∈ headers.map (·.render links), ∀ b ∈ headers.map (·.render links),
      shownText a = shownText b → a = b := by
    refine List.forall_mem_map.2 fun h hh => List.forall_mem_map.2 fun g hg he => ?_
    rw [shownText_render (hr h hh), shownText_render (hr g hg)] at he
    rw [(hr h hh).eq_of_display_eq (hr g hg) he]
  rw [← eraseDups_map_of_inj hinj, List.map_map]
  exact congrArg List.eraseDups (List.map_congr_left fun h hh => shownText_render (hr h hh) links)

/-- The text page on a script that lists the markup of readable headers. -/
theorem textPage_single (crate : Text) {headers : List Header} (hr : ∀ h ∈ headers, h.Readable)
    (links : LinkTable) :
    textPage [(crate, (headers.map (·.render links)).eraseDups)] =
      headerPage crate (headers.map Header.display).eraseDups := by
  rw [← map_shownText_eraseDups hr links]
  generalize (headers.map (·.render links)).eraseDups = items
  cases items with
  | nil => rfl
  | cons item items =>
    have hflat : (item :: items).flatMap textEntry = ((item :: items).map shownText).flatMap
        fun l => "    ".toList ++ l ++ ['\n'] := by
      rw [List.flatMap_map]
      rfl
    unfold textPage headerPage
    rw [← hflat]
    simp

end PageRequest

variable {t u : FileTree} {root : Text} {p : TraitPath} {m : Manifest}

/-- A page on one script shows what that script lists. -/
theorem on_page_script {crate : Text} {items : List Text} (hc : ¬ Fragment.assignmentMiddle <:+: crate)
    (hh : u.HoldsScript root p (Fragment.single crate items)) :
    on (page ⟨[p.scriptFile root], [], none, .text⟩) u =
      (.ok (PageRequest.textPage [(crate, items.eraseDups)]), u) := by
  have hparse := Fragment.parse_emit_of_clean (f := Fragment.single crate items)
    (List.forall_mem_singleton.2 hc)
  have hfragment : u.fragment (p.scriptFile root) = .ok (Fragment.single crate items) := by
    rw [FileTree.fragment, hh.read]
    simp only [hparse]
  have hall : ([p.scriptFile root] ++ []).mapM u.fragment = .ok [Fragment.single crate items] := by
    rw [List.append_nil, List.mapM_cons, hfragment]
    rfl
  rw [on_page, hall]
  simp only [Except.map, PageRequest.others_none, PageRequest.table_single, PageRequest.write]

/-- Whatever links a sound manifest has, it is emitted into an empty directory just if the paths of its
scripts fit. Then the text page on the script of a trait shows the crate and, one line each, the display
text of the headers for that trait in their order, without those that read like an earlier one. -/
theorem emitted_page_shows_headers {source : Text} (hm : Manifest.parse source = .ok m)
    (hc : ¬ Fragment.assignmentMiddle <:+: m.crate)
    (hw : ∀ p ∈ m.paths, ∀ h ∈ m.headersOf p, h.WellFormed)
    (hs : t.Sound) (he : t.Empty root) (links : LinkTable) :
    ((∃ files u, on (emit (m.withLinks links) root) t = (.ok files, u)) ↔
        ∀ p ∈ m.paths, Fits (p.scriptFile root)) ∧
      ∀ files u, on (emit (m.withLinks links) root) t = (.ok files, u) → ∀ p ∈ m.paths,
        on (page ⟨[p.scriptFile root], [], none, .text⟩) u =
          (.ok (PageRequest.headerPage m.crate (m.linesOf p)), u) := by
  have hcheck := Manifest.check_withLinks (Manifest.check_of_parse hm) links
  refine ⟨⟨fun h p hp => ?_, fun hfit => ?_⟩, fun files u hu p hp => ?_⟩
  · obtain ⟨files, u, hu⟩ := h
    exact ((of_on_emit hcheck hs he hu).2 p hp).fits
  · obtain ⟨u, hu, -⟩ := on_emit_of_fits hcheck hs he hfit
    exact ⟨_, u, hu⟩
  · have hr : ∀ h ∈ m.headersOf p, h.Readable := by
      intro h hh
      have hname : IsSegment h.traitName := by
        obtain ⟨e, -, rfl⟩ := List.mem_map.1 hh
        exact p.isSegment_name
      exact (hw p hp h hh).readable hname
    have hh := (of_on_emit hcheck hs he hu).2 p hp
    rw [on_page_script hc hh]
    exact congrArg (fun s => (Except.ok s, u)) (PageRequest.textPage_single m.crate hr links)

set_option maxRecDepth 20000 in
/-- A parameter list, a bound that is linked, and an impl that is listed twice. -/
theorem emitted_page_shows_headers_linked_bound :
    let source := ("crate = \"c\"\n\n[[trait]]\npath = \"a::T\"\nimpl = [\n" ++
      "  \x7bgenerics = \"S\", type = \"V<S>\", where = [\"S: W\"]\x7d,\n" ++
      "  \x7btype = \"X\"\x7d, \x7btype = \"X\"\x7d]\n").toList
    let m : Manifest := ⟨"c".toList, [⟨"a::T".toList,
      [⟨"S".toList, "V<S>".toList, ["S: W".toList]⟩, ⟨[], "X".toList, []⟩,
        ⟨[], "X".toList, []⟩]⟩], Catalog.empty⟩
    let links : LinkTable := Catalog.empty.insert "W".toList ⟨.trait, "w.html".toList, none⟩
    let root := "out".toList
    let t : FileTree := ⟨⟨[([root], .directory)], List.nodup_singleton _⟩, []⟩
    Manifest.parse source = .ok m ∧ ¬ Fragment.assignmentMiddle <:+: m.crate ∧
      (∀ p ∈ m.paths, ∀ h ∈ m.headersOf p, h.WellFormed) ∧ t.Sound ∧ t.Empty root ∧
      ∃ files u, on (emit (m.withLinks links) root) t = (.ok files, u) ∧
        on (page ⟨files, [], none, .text⟩) u =
          (.ok ("Implementors\n  c\n    impl<S> T for V<S> where S: W\n".toList ++
            "    impl T for X\n".toList), u) := by
  intro source m links root t
  let p : TraitPath := ⟨["a".toList], "T".toList, by decide, by decide⟩
  have hparse : Manifest.parse source = .ok m := by
    unfold source m
    cbv
  have hc : ¬ Fragment.assignmentMiddle <:+: m.crate := by decide
  have hp : m.paths = [p] := by decide
  have hw : ∀ p ∈ m.paths, ∀ h ∈ m.headersOf p, h.WellFormed := by decide
  have hs : t.Sound := by decide
  have he : t.Empty root := by decide
  obtain ⟨hfits, hpage⟩ := emitted_page_shows_headers hparse hc hw hs he links
  obtain ⟨files, u, hu⟩ := hfits.2 (by decide)
  obtain ⟨rfl, -⟩ := of_on_emit (Manifest.check_withLinks (Manifest.check_of_parse hparse) links)
    hs he hu
  have hfile : (m.withLinks links).paths.map (·.scriptFile root) = [p.scriptFile root] := by decide
  have htext : PageRequest.headerPage m.crate (m.linesOf p) =
      "Implementors\n  c\n    impl<S> T for V<S> where S: W\n".toList ++
        "    impl T for X\n".toList := by decide
  have hlast := hpage _ u hu p (hp ▸ List.mem_cons_self)
  rw [htext] at hlast
  refine ⟨hparse, hc, hw, hs, he, _, u, hu, ?_⟩
  rw [hfile]
  exact hlast

end Implementors
