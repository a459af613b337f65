import Implementors.Proofs.Command.Emit
import Mathlib

/-!
# Where emitting stops

What stands where a script goes may be nothing to extend: a directory, bytes that are no text, or text
that is no fragment. Emitting ends at the first script of this kind, before anything is done for it. So
it leaves what emitting the traits before it would have left, and no more.
-/
namespace Implementors

/-- Why the script in a file cannot be extended from what stands there, if it cannot. -/
def FileNode.refusal? (file : Text) : FileNode → Option CommandError
  | .text contents =>
    match Fragment.parse contents with
    | .ok _ => none
    | .error cause => some (.notExtended file cause)
  | .binary => some (.notRead file)
  | .directory => some (.notRead file)

/-- The path of a script leads to something that it cannot be extended from. -/
def FileTree.Blocked (t : FileTree) (root : Text) (p : TraitPath) (e : CommandError) : Prop :=
  ∃ place node, t.locate (p.scriptFile root) = .ok place ∧ t.node? place = some node ∧
    node.refusal? (p.scriptFile root) = some e

open Command FileTree

variable {t u v : FileTree} {root crate : Text} {p : TraitPath} {e : CommandError} {m : Manifest}

namespace FileTree

theorem Blocked.solidRoot (h : t.Blocked root p e) : t.SolidRoot root := by
  obtain ⟨place, node, hl, -⟩ := h
  exact (of_locate_script hl).2.1

/-- There is nothing to extend a blocked script from. -/
theorem Blocked.existing (h : t.Blocked root p e) :
    t.existing (p.scriptFile root) = .error e := by
  obtain ⟨place, node, hl, hn, he⟩ := h
  cases node with
  | text contents =>
    have hread : t.read (p.scriptFile root) = .ok contents := by
      simp only [FileTree.read, hl, bind, Except.bind, hn]
    rw [FileTree.existing, hread]
    cases hp : Fragment.parse contents with
    | ok f => simp only [FileNode.refusal?, hp, reduceCtorEq] at he
    | error cause =>
      simp only [FileNode.refusal?, hp, Option.some.injEq] at he
      simp only [hp, he]
  | binary | directory =>
    have hread : t.read (p.scriptFile root) = .error .unreadable := by
      simp only [FileTree.read, hl, bind, Except.bind, hn]
    rw [FileTree.existing, hread]
    exact congrArg Except.error (Option.some.inj he)

/-- A script stays blocked while others are written. -/
theorem Changes.blocked {paths : List TraitPath} (hc : Changes t u root paths) (hs : t.Sound)
    (hr : ∀ q ∈ paths, t.Ready root q) (h : t.Blocked root p e) (hm : p ∉ paths) :
    u.Blocked root p e := by
  have hb := h.solidRoot
  obtain ⟨place, node, hl, hn, he⟩ := h
  obtain ⟨rfl, -, hway⟩ := of_locate_script hl
  have hl' : u.locate (p.scriptFile root) = .ok (p.place u root) := by
    refine locate_script hc.sound (fits_of_locate hl) fun place hp => ?_
    rw [way_congr hc.workingDirectory] at hp
    exact hc.keeps_directory hs hb hr (hway place hp)
  rw [place_congr hc.workingDirectory] at hl'
  exact ⟨_, node, hl', hc.keeps (Changes.place_ne hm) hn, he⟩

end FileTree

/-- A blocked script is reported, and nothing is changed. -/
theorem on_emitScript_of_blocked (h : t.Blocked root p e) (crate : Text) (items : List Text) :
    on (emitScript root crate p items) t = (.error e, t) := by
  have hread := on_readExisting (p.scriptFile root) t
  rw [h.existing, TraitPath.scriptFile] at hread
  rw [emitScript, on_bind_error hread]

/-- Scripts are emitted up to the first one that cannot be. -/
theorem on_emitScripts_stop {before after : List (TraitPath × List Text)} {items files : List Text}
    (h : on (emitScripts root crate before) t = (.ok files, u))
    (hp : on (emitScript root crate p items) u = (.error e, v)) :
    on (emitScripts root crate (before ++ (p, items) :: after)) t = (.error e, v) := by
  induction before generalizing t files with
  | nil =>
    cases h
    rw [List.nil_append, emitScripts, on_bind_error hp]
  | cons s before ih =>
    rw [emitScripts] at h
    obtain ⟨file, w, hw, h⟩ := of_on_bind_ok h
    obtain ⟨more, x, hx, h⟩ := of_on_bind_ok h
    cases h
    rw [List.cons_append, emitScripts, on_bind_ok hw, on_bind_error (ih hx)]

/-- Emitting the first traits of a manifest emits their markup in the whole manifest. -/
theorem emit_only {before after : List TraitPath} (h : m.NamesTraits)
    (hp : m.paths = before ++ after) (root : Text) :
    (emit (m.only before) root : Command (StateM FileTree) (List Text)) =
      emitScripts root m.crate (before.map fun q => (q, m.markupOf q)) := by
  rw [emit_eq (h.only before), Manifest.paths_only_of_append hp]
  refine congrArg (emitScripts root m.crate) (List.map_congr_left fun q hq => ?_)
  rw [m.markupOf_only hq]

/-- If the script of a trait is blocked and those of all traits before it can be written, emitting a
manifest ends with what is wrong with this script, and leaves what emitting the traits before it leaves:
each of their scripts holds what it held, with the crate assigned its markup, and apart from these, and
from directories that were missing on the ways to them, all is as it was; so is the blocked script, and
so is whatever stands, or does not stand, where those after it go. -/
theorem emit_stops_at_first_blocked {source : Text} {before after : List TraitPath}
    (hm : Manifest.parse source = .ok m) (hs : t.Sound) (hpaths : m.paths = before ++ p :: after)
    (hr : ∀ q ∈ before, t.Ready root q) (hblocked : t.Blocked root p e) :
    ∃ u, on (emit m root) t = (.error e, u) ∧
      on (emit (m.only before) root) t = (.ok (before.map (·.scriptFile root)), u) ∧
      (∀ q ∈ before, ∃ f : Fragment, t.script? (q.scriptFile root) = some f ∧
        u.read (q.scriptFile root) = .ok (f.assign m.crate (m.markupOf q)).emit) ∧
      (∀ q ∈ p :: after, u.node? (q.place t root) = t.node? (q.place t root)) ∧
      ∀ place, (∀ q ∈ before, place ≠ q.place t root) → u.node? place =
        if (∃ q ∈ before, place ∈ q.way t root) ∧ t.node? place = none then some .directory
        else t.node? place := by
  have hnames := (Manifest.of_check (Manifest.check_of_parse hm)).2
  have hb := hblocked.solidRoot
  have hnodup : (before ++ p :: after).Nodup := hpaths ▸ m.nodup_paths
  have hnot : ∀ q ∈ p :: after, q ∉ before := fun q hq hin =>
    (List.nodup_append.1 hnodup).2.2 q hin q hq rfl
  obtain ⟨u, hu, hemits⟩ := on_emitMarkup m hs hb hr (List.nodup_append.1 hnodup).1
  have hc : Changes t u root before := m.map_fst_markup before ▸ hemits.changes
  have hstill := hc.blocked hs hr hblocked (hnot p List.mem_cons_self)
  have hother := hc.other
  refine ⟨u, ?_, ?_, fun q hq => ?_, fun q hq => ?_, hother⟩
  · rw [emit_eq hnames, hpaths, List.map_append, List.map_cons]
    exact on_emitScripts_stop hu (on_emitScript_of_blocked hstill _ _)
  · rw [emit_only hnames hpaths, hu]
  · obtain ⟨f, hf, hholds⟩ := holdsScript_of_emitsMarkup hemits hs hb hr hq
    exact ⟨f, hf, hholds.read⟩
  · -- What is missing where a script goes is no directory, so it is on no way to the scripts before.
    rw [hother _ (Changes.place_ne (hnot q hq)), if_neg]
    rintro ⟨⟨r, hrb, hin⟩, hnone⟩
    have hnd : t.node? (q.place t root) ≠ some .directory := by
      rw [hnone]
      exact nofun
    exact TraitPath.place_not_mem_way hs hb hnd (hr r hrb).noFile hin

set_option maxRecDepth 20000 in
/-- The second of three scripts is no fragment: the first one is written, and for the last one nothing is
done. -/
theorem emit_stops_at_first_blocked_second :
    let source := ("crate = \"c\"\n\n[[trait]]\npath = \"a::T\"\nimpl = [\x7btype = \"X\"\x7d]\n" ++
      "\n[[trait]]\npath = \"b::S\"\n\n[[trait]]\npath = \"b::U\"\n").toList
    let m : Manifest := ⟨"c".toList, [⟨"a::T".toList, [⟨[], "X".toList, []⟩]⟩, ⟨"b::S".toList, []⟩,
      ⟨"b::U".toList, []⟩], Catalog.empty⟩
    let first : TraitPath := ⟨["a".toList], "T".toList, by decide, by decide⟩
    let second : TraitPath := ⟨["b".toList], "S".toList, by decide, by decide⟩
    let third : TraitPath := ⟨["b".toList], "U".toList, by decide, by decide⟩
    let root := "out".toList
    let e := CommandError.notExtended "out/implementors/b/trait.S.js".toList .noOpening
    let t : FileTree :=
      ⟨⟨[([root], .directory), ([root, "implementors".toList], .directory),
        ([root, "implementors".toList, "b".toList], .directory),
        ([root, "implementors".toList, "b".toList, "trait.S.js".toList], .text "note".toList)],
        by decide⟩, []⟩
    (Manifest.parse source = .ok m ∧ t.Sound ∧ m.paths = [first] ++ second :: [third] ∧
      (∀ q ∈ [first], t.Ready root q) ∧ t.Blocked root second e) ∧
    ∃ u, on (emit m root) t = (.error e, u) ∧
      on (emit (m.only [first]) root) t = (.ok ["out/implementors/a/trait.T.js".toList], u) ∧
      u.read "out/implementors/a/trait.T.js".toList =
        .ok (Fragment.emit ⟨[("c".toList, ["impl T for X".toList])], by decide⟩) ∧
      u.node? (second.place t root) = some (.text "note".toList) ∧
      u.node? (third.place t root) = none := by
  intro source m first second third root e t
  have hm : Manifest.parse source = .ok m := by
    unfold source m
    cbv
  have hs : t.Sound := by decide
  have hpaths : m.paths = [first] ++ second :: [third] := by decide
  have hempty : t.script? (first.scriptFile root) = some Catalog.empty := by decide +kernel
  have hr : ∀ q ∈ [first], t.Ready root q :=
    List.forall_mem_singleton.2 ⟨by decide, by decide, _, hempty⟩
  have hb : t.Blocked root second e :=
    ⟨second.place t root, .text "note".toList, by decide +kernel, by decide, by decide⟩
  refine ⟨⟨hm, hs, hpaths, hr, hb⟩, ?_⟩
  obtain ⟨u, hu, honly, hfirst, hnodes, -⟩ := emit_stops_at_first_blocked hm hs hpaths hr hb
  obtain ⟨f, hf, hread⟩ := hfirst first List.mem_cons_self
  obtain rfl : Catalog.empty = f := Option.some.inj (hempty.symm.trans hf)
  have hmarkup : m.markupOf first = ["impl T for X".toList] := by decide
  rw [hmarkup] at hread
  refine ⟨u, hu, honly, hread, ?_, ?_⟩
  · rw [hnodes second List.mem_cons_self]
    decide
  · rw [hnodes third (List.mem_cons_of_mem _ List.mem_cons_self)]
    decide

set_option maxRecDepth 20000 in
/-- A script before the blocked one that is not there yet ends the command if its name is too long for a
file. And a root that steps back out of a missing directory leads to no script that could be blocked: what
stands behind it is overwritten, although it is no fragment. -/
theorem emit_stops_at_long_name_and_not_behind_step_back :
    let name := List.replicate 247 'T'
    let source := "crate = \"c\"\n\n[[trait]]\npath = \"a::".toList ++ name ++
      "\"\n\n[[trait]]\npath = \"b::S\"\n".toList
    let m : Manifest :=
      ⟨"c".toList, [⟨"a::".toList ++ name, []⟩, ⟨"b::S".toList, []⟩], Catalog.empty⟩
    let first : TraitPath := ⟨["a".toList], name, by decide, by decide +kernel⟩
    let second : TraitPath := ⟨["b".toList], "S".toList, by decide, by decide⟩
    let root := "out".toList
    let e := CommandError.notExtended "out/implementors/b/trait.S.js".toList .noOpening
    let t : FileTree :=
      ⟨⟨[([root], .directory), ([root, "implementors".toList], .directory),
        ([root, "implementors".toList, "b".toList], .directory),
        ([root, "implementors".toList, "b".toList, "trait.S.js".toList], .text "note".toList)],
        by decide⟩, []⟩
    let other := "crate = \"c\"\n\n[[trait]]\npath = \"b::S\"\n".toList
    let n : Manifest := ⟨"c".toList, [⟨"b::S".toList, []⟩], Catalog.empty⟩
    let back := "out/new/..".toList
    (Manifest.parse source = .ok m ∧ m.paths = [first, second] ∧ t.Sound ∧ t.SolidRoot root ∧
      t.NoFileOn (t.origin root) (first.namesBelow root) ∧
      t.NoFileOn (t.origin root) (second.namesBelow root) ∧
      t.read (first.scriptFile root) = .error .notFound ∧ t.Blocked root second e ∧
      (on (emit m root) t).1 = .error (.notWritten (first.scriptFile root))) ∧
    Manifest.parse other = .ok n ∧ n.paths = [second] ∧
      t.NoFileOn (t.origin back) (second.namesBelow back) ∧
      t.read (second.scriptFile back) = .error .notFound ∧
      (on (emit n back) t).1 = .ok [second.scriptFile back] ∧
      (on (emit n back) t).2.read (second.scriptFile root) =
        .ok (Fragment.emit ⟨[("c".toList, [])], by decide⟩) := by
  intro name source m first second root e t other n back
  have hm : Manifest.parse source = .ok m := by
    unfold source m name
    cbv
  have hn : Manifest.parse other = .ok n := by
    unfold other n
    cbv
  have hblocked : t.Blocked root second e :=
    ⟨second.place t root, .text "note".toList, by decide +kernel, by decide, by decide⟩
  exact ⟨⟨hm, by decide +kernel, by decide, by decide, by decide, by decide, by decide +kernel,
    hblocked, by decide +kernel⟩, hn, by decide, by decide, by decide +kernel, by decide +kernel,
    by decide +kernel⟩

end Implementors
