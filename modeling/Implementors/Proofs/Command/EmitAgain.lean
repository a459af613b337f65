import Implementors.Proofs.Command.EmitStops
import Implementors.Proofs.Fragment.RoundTrip
import Mathlib

/-!
# Emitting into an empty directory, and again

Where nothing is yet, a manifest is emitted just if the paths of its scripts fit, and each script then
lists its crate alone. Emitting the manifest once more reads every script back and writes what is
there. It cannot do so if the name of the crate holds the mark that ends names: then the first script is
reported, and nothing is changed.
-/
namespace Implementors

namespace FileTree

variable {t u : FileTree} {root crate : Text} {p : TraitPath}

/-- Nothing is in the directory that the root leads to, if that directory is there at all. -/
structure Empty (t : FileTree) (root : Text) : Prop where
  solid : t.SolidRoot root
  noFile : t.NoFileOn (t.origin root) (pathNames root)
  bare : ∀ below ≠ [], t.node? (walk (t.origin root) (pathNames root) ++ below) = none

theorem nothing_below_iff {base : List Text} :
    (∀ below ≠ [], t.node? (base ++ below) = none) ↔
      ∀ e ∈ t.nodes.entries, base <+: e.1 → e.1 = base := by
  constructor
  · rintro h ⟨place, node⟩ he ⟨below, rfl⟩
    by_contra hne
    have hb : below ≠ [] := fun hb => hne (by rw [hb, List.append_nil])
    obtain ⟨front, name, rfl⟩ := (List.eq_nil_or_concat' below).resolve_left hb
    have hn := h _ hb
    rw [← List.append_assoc] at hn he
    rw [node?_concat, t.nodes.get?_of_mem he] at hn
    cases hn
  · intro h below hb
    obtain ⟨front, name, rfl⟩ := (List.eq_nil_or_concat' below).resolve_left hb
    rw [← List.append_assoc, node?_concat]
    cases hn : t.nodes.get? (base ++ front ++ [name]) with
    | none => rfl
    | some node =>
      have he := h _ (Catalog.mem_of_find? hn) ⟨front ++ [name], (List.append_assoc _ _ _).symm⟩
      simp at he

instance (t : FileTree) (root : Text) : Decidable (t.Empty root) :=
  decidable_of_iff (t.SolidRoot root ∧ t.NoFileOn (t.origin root) (pathNames root) ∧
      ∀ e ∈ t.nodes.entries, walk (t.origin root) (pathNames root) <+: e.1 →
        e.1 = walk (t.origin root) (pathNames root))
    ⟨fun h => ⟨h.1, h.2.1, nothing_below_iff.2 h.2.2⟩,
      fun h => ⟨h.solid, h.noFile, nothing_below_iff.1 h.bare⟩⟩

namespace Empty

theorem node?_place (he : t.Empty root) (p : TraitPath) : t.node? (p.place t root) = none := by
  rw [TraitPath.place_eq]
  exact he.bare _ (by simp)

theorem noFile_namesBelow (he : t.Empty root) (p : TraitPath) :
    t.NoFileOn (t.origin root) (p.namesBelow root) := by
  intro place hp node hn
  rw [TraitPath.namesBelow, way_append] at hp
  rcases List.mem_append.1 hp with hp | hp
  · exact he.noFile place hp node hn
  · obtain ⟨front, -, hne, rfl⟩ := prefix_of_mem_way
      (fun _ hm => (p.isSegment_of_mem_directories hm).isProper) hp
    rw [he.bare front hne] at hn
    cases hn

/-- In an empty directory no script is there. -/
theorem script? (he : t.Empty root) (hs : t.Sound) (hfit : Fits (p.scriptFile root)) :
    t.script? (p.scriptFile root) = some Catalog.empty := by
  rw [script?_eq hs he.solid hfit (he.noFile_namesBelow p), he.node?_place p]

theorem ready (he : t.Empty root) (hs : t.Sound) (hfit : Fits (p.scriptFile root)) :
    t.Ready root p :=
  ⟨hfit, he.noFile_namesBelow p, _, he.script? hs hfit⟩

end Empty

/-- Putting a node where it stands changes nothing. -/
theorem put_self {place : List Text} {name : Text} {node : FileNode}
    (h : t.node? (place ++ [name]) = some node) : t.put (place ++ [name]) node = t := by
  rw [node?_concat] at h
  rw [put, Catalog.insert_of_get? h]

end FileTree

/-- The fragment that lists one crate. -/
def Fragment.single (crate : Text) (items : List Text) : Fragment :=
  ⟨[(crate, items)], List.nodup_singleton _⟩

open Command FileTree

variable {t u : FileTree} {root crate : Text} {p : TraitPath} {m : Manifest} {files : List Text}

/-- Into an empty directory a sound manifest is emitted if the paths of its scripts fit. Then each of
them lists the crate with the markup of its trait. -/
theorem on_emit_of_fits (hm : m.check = .ok m) (hs : t.Sound) (he : t.Empty root)
    (hfit : ∀ p ∈ m.paths, Fits (p.scriptFile root)) :
    ∃ u, on (emit m root) t = (.ok (m.paths.map (·.scriptFile root)), u) ∧
      ∀ p ∈ m.paths, u.HoldsScript root p (Fragment.single m.crate (m.markupOf p)) := by
  have hr : ∀ p ∈ m.paths, t.Ready root p := fun p hp => he.ready hs (hfit p hp)
  obtain ⟨u, hu, hemits⟩ := on_emit hm hs he.solid hr
  refine ⟨u, hu, fun p hp => ?_⟩
  obtain ⟨f, hf, hh⟩ := holdsScript_of_emitsMarkup hemits hs he.solid hr hp
  rw [he.script? hs (hfit p hp)] at hf
  obtain rfl : Catalog.empty = f := Option.some.inj hf
  exact hh

/-- Only such a manifest is emitted. -/
theorem of_on_emit (hm : m.check = .ok m) (hs : t.Sound) (he : t.Empty root)
    (hu : on (emit m root) t = (.ok files, u)) :
    files = m.paths.map (·.scriptFile root) ∧
      ∀ p ∈ m.paths, u.HoldsScript root p (Fragment.single m.crate (m.markupOf p)) := by
  have hr := ready_of_on_emit hm hs he.solid hu
  obtain ⟨v, hv, hh⟩ := on_emit_of_fits hm hs he fun p hp => (hr p hp).fits
  rw [hu] at hv
  cases hv
  exact ⟨rfl, hh⟩

/-- Emitting what a script already holds writes what is there. -/
theorem on_emitScript_again {f : Fragment} {items : List Text} (hh : u.HoldsScript root p f)
    (hp : Fragment.parse f.emit = .ok f) (hc : f.get? crate = some items) :
    on (emitScript root crate p items) u = (.ok (p.scriptFile root), u) := by
  have hnode : u.node? (p.place u root) ≠ some .directory := by
    intro hd
    rw [hh.text] at hd
    cases hd
  have hput : u.put (p.place u root) (.text f.emit) = u := put_self hh.text
  have hassign : f.assign crate items = f := Catalog.insert_of_get? hc
  have hwrite : u.write (p.scriptFile root) (f.assign crate items).emit = (u, true) := by
    rw [write_of_locate hh.locate hnode, hassign, hput]
  exact on_emitScript_of_steps (hh.script? hp) hh.createDirectories hwrite

theorem on_emitScripts_again {scripts : List (TraitPath × List Text)}
    (h : ∀ s ∈ scripts,
      on (emitScript root crate s.1 s.2) u = (.ok (s.1.scriptFile root), u)) :
    on (emitScripts root crate scripts) u =
      (.ok (scripts.map fun s => s.1.scriptFile root), u) := by
  induction scripts with
  | nil => rfl
  | cons s rest ih =>
    obtain ⟨hs, hrest⟩ := List.forall_mem_cons.1 h
    rw [emitScripts, on_bind_ok hs, on_bind_ok (ih hrest)]
    rfl

/-- A script that is not read back is reported, and nothing is changed. -/
theorem on_emitScript_unreadable {f : Fragment} {e : Fragment.ReadError}
    (hh : u.HoldsScript root p f) (hp : Fragment.parse f.emit = .error e) (crate : Text)
    (items : List Text) :
    on (emitScript root crate p items) u = (.error (.notExtended (p.scriptFile root) e), u) := by
  have hb : u.Blocked root p (.notExtended (p.scriptFile root) e) :=
    ⟨_, _, hh.locate, hh.text, by simp only [FileNode.refusal?, hp]⟩
  exact on_emitScript_of_blocked hb crate items

/-- If the name of the crate does not hold the mark that ends names, all is read back. -/
theorem on_emit_again (hm : m.check = .ok m)
    (hh : ∀ p ∈ m.paths, u.HoldsScript root p (Fragment.single m.crate (m.markupOf p)))
    (hi : ¬ Fragment.assignmentMiddle <:+: m.crate) :
    on (emit m root) u = (.ok (m.paths.map (·.scriptFile root)), u) := by
  have hagain : ∀ s ∈ m.paths.map fun p => (p, m.markupOf p),
      on (emitScript root m.crate s.1 s.2) u = (.ok (s.1.scriptFile root), u) := by
    refine List.forall_mem_map.2 fun p hp => on_emitScript_again (hh p hp) ?_ ?_
    · exact Fragment.parse_emit_of_clean (List.forall_mem_singleton.2 hi)
    · exact if_pos rfl
  rw [emit_eq (Manifest.of_check hm).2, on_emitScripts_again hagain, List.map_map]
  rfl

/-- If it does, not even the first script is. -/
theorem on_emit_again_unreadable (hm : m.check = .ok m)
    (hh : ∀ p ∈ m.paths, u.HoldsScript root p (Fragment.single m.crate (m.markupOf p)))
    (hi : Fragment.assignmentMiddle <:+: m.crate) :
    ∃ file, (m.paths.map (·.scriptFile root)).head? = some file ∧
      on (emit m root) u = (.error (.notExtended file (.badLine 2 .badLiteral)), u) := by
  obtain ⟨p, rest, hp⟩ := List.exists_cons_of_ne_nil (Manifest.paths_ne_nil hm)
  have hkeys : (Fragment.single m.crate (m.markupOf p)).keys = [] ++ m.crate :: [] := rfl
  have hfirst := on_emitScript_unreadable (hh p (hp ▸ List.mem_cons_self))
    (Fragment.parse_emit_of_first hkeys nofun hi) m.crate (m.markupOf p)
  rw [emit_eq (Manifest.of_check hm).2, hp]
  exact ⟨p.scriptFile root, rfl, on_bind_error hfirst _⟩

/-- A sound manifest that was emitted into an empty directory can be emitted again, with the same
result, just if the name of its crate does not hold the mark that ends names; and then no file changes.
Otherwise the first script is reported, because of its first assignment, and no file changes either. -/
theorem emit_again_iff {source : Text} (hm : Manifest.parse source = .ok m) (hs : t.Sound)
    (he : t.Empty root) (hu : on (emit m root) t = (.ok files, u)) :
    (on (emit m root) u = (.ok files, u) ↔ ¬ Fragment.assignmentMiddle <:+: m.crate) ∧
      (Fragment.assignmentMiddle <:+: m.crate → ∃ file, files.head? = some file ∧
        on (emit m root) u = (.error (.notExtended file (.badLine 2 .badLiteral)), u)) := by
  have hcheck := Manifest.check_of_parse hm
  obtain ⟨rfl, hh⟩ := of_on_emit hcheck hs he hu
  refine ⟨⟨fun hok hi => ?_, on_emit_again hcheck hh⟩, on_emit_again_unreadable hcheck hh⟩
  obtain ⟨file, -, herr⟩ := on_emit_again_unreadable hcheck hh hi
  rw [hok] at herr
  cases herr

set_option maxRecDepth 20000 in
/-- Without the mark nothing goes wrong. -/
theorem emit_again_iff_plain_name :
    let source :=
      "crate = \"c\"\n\n[[trait]]\npath = \"a::T\"\nimpl = [\x7btype = \"X\"\x7d]\n".toList
    let m : Manifest :=
      ⟨"c".toList, [⟨"a::T".toList, [⟨[], "X".toList, []⟩]⟩], Catalog.empty⟩
    let root := "out".toList
    let t : FileTree := ⟨⟨[([root], .directory)], List.nodup_singleton _⟩, []⟩
    Manifest.parse source = .ok m ∧ t.Sound ∧ t.Empty root ∧
      ∃ files u, on (emit m root) t = (.ok files, u) ∧ on (emit m root) u = (.ok files, u) := by
  intro source m root t
  have hparse : Manifest.parse source = .ok m := by
    unfold source m
    cbv
  have hs : t.Sound := by decide
  have he : t.Empty root := by decide
  have hfit : ∀ p ∈ m.paths, Fits (p.scriptFile root) := by decide
  obtain ⟨u, hu, -⟩ := on_emit_of_fits (Manifest.check_of_parse hparse) hs he hfit
  exact ⟨hparse, hs, he, _, u, hu, (emit_again_iff hparse hs he hu).1.2 (by decide)⟩

set_option maxRecDepth 20000 in
/-- A manifest can be sound although the name of its crate holds the mark; emitting it works once. -/
theorem emit_again_fails_for_mark_in_name :
    let source := "crate = \"b] = c\"\n\n[[trait]]\npath = \"a::T\"\n".toList
    let m : Manifest := ⟨"b] = c".toList, [⟨"a::T".toList, []⟩], Catalog.empty⟩
    let root := "out".toList
    let file := "out/implementors/a/trait.T.js".toList
    let t : FileTree := ⟨⟨[([root], .directory)], List.nodup_singleton _⟩, []⟩
    Manifest.parse source = .ok m ∧ t.Sound ∧ t.Empty root ∧
      ∃ u, on (emit m root) t = (.ok [file], u) ∧
        on (emit m root) u = (.error (.notExtended file (.badLine 2 .badLiteral)), u) := by
  intro source m root file t
  have hparse : Manifest.parse source = .ok m := by
    unfold source m
    cbv
  have hs : t.Sound := by decide
  have he : t.Empty root := by decide
  have hcheck := Manifest.check_of_parse hparse
  have hfile : m.paths.map (·.scriptFile root) = [file] := by decide
  obtain ⟨u, hu, hh⟩ := on_emit_of_fits hcheck hs he (by decide)
  obtain ⟨first, hfirst, herr⟩ := on_emit_again_unreadable hcheck hh (by decide)
  rw [hfile] at hu hfirst
  cases hfirst
  exact ⟨hparse, hs, he, u, hu, herr⟩

end Implementors
