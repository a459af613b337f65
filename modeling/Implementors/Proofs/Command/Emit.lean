import Implementors.Command.Emit
import Implementors.Proofs.Command.Runs
import Implementors.Proofs.Manifest
import Implementors.Proofs.Scripts
import Mathlib

/-!
# What emitting writes

Emitting one script makes the directories that are missing on the way to it and puts a file at their
end; all else stays as it is. The scripts of other traits lie elsewhere and need no file where that
one is, so they can still be emitted, and from what they held before. In the end every script holds
what it held, with the crate of the manifest assigned its markup. And no manifest is emitted but where
all its scripts could be emitted from the beginning.
-/
namespace Implementors

theorem Fragment.keys_assign (f : Fragment) (crate : Text) (items : List Text) :
    (f.assign crate items).keys = if crate ∈ f.keys then f.keys else f.keys ++ [crate] := by
  have h := Catalog.keys_alter f crate fun _ => items
  by_cases hm : crate ∈ f.keys
  · rw [if_pos hm] at h ⊢
    exact h
  · rw [if_neg hm] at h ⊢
    exact h

namespace FileTree

variable {t u v : FileTree} {root crate : Text} {p q : TraitPath}

/-- The second tree is the first one with a file at the place of a script, and with directories where
nothing stood on the way to it. -/
structure Writes (t u : FileTree) (root : Text) (p : TraitPath) (contents : Text) : Prop where
  sound : u.Sound
  workingDirectory : u.workingDirectory = t.workingDirectory
  script : u.node? (p.place t root) = some (.text contents)
  other : ∀ place ≠ p.place t root, u.node? place =
    if place ∈ p.way t root ∧ t.node? place = none then some .directory else t.node? place

/-- The second tree is the first one with files at the places of some scripts, in which a crate is
assigned, and with directories where nothing stood on the ways to them. -/
structure Emits (t u : FileTree) (root crate : Text) (scripts : List (TraitPath × List Text)) :
    Prop where
  sound : u.Sound
  workingDirectory : u.workingDirectory = t.workingDirectory
  script : ∀ s ∈ scripts, ∃ f, t.script? (s.1.scriptFile root) = some f ∧
    u.node? (s.1.place t root) = some (.text (f.assign crate s.2).emit)
  other : ∀ place, (∀ s ∈ scripts, place ≠ s.1.place t root) → u.node? place =
    if (∃ s ∈ scripts, place ∈ s.1.way t root) ∧ t.node? place = none then some .directory
    else t.node? place

/-- What the script in a file is extended from, or why there is nothing to extend. -/
def existing (t : FileTree) (file : Text) : Except CommandError Fragment :=
  match t.read file with
  | .error .notFound => .ok Catalog.empty
  | .error .unreadable => .error (.notRead file)
  | .ok source =>
    match Fragment.parse source with
    | .error cause => .error (.notExtended file cause)
    | .ok f => .ok f

theorem existing_eq_ok_iff {file : Text} {f : Fragment} :
    t.existing file = .ok f ↔ t.script? file = some f := by
  rw [existing, script?]
  cases t.read file with
  | error e => cases e <;> simp
  | ok source => cases hp : Fragment.parse source <;> simp [hp, Except.toOption]

/-- Making the way to a script and putting a file at its end writes that script and no more. -/
theorem Adds.writes (ha : Adds t v (p.way t root)) (hr : t.Ready root p) (hs : t.Sound)
    (hb : t.SolidRoot root) (contents : Text) :
    Writes t (v.put (p.place t root) (.text contents)) root p contents := by
  have hne : p.place t root ≠ [] := by simp [TraitPath.place]
  have hv := hr.not_directory_of_adds hs hb ha
  have horigin : v.node? (t.origin root) = some .directory := ha.keeps (hs.origin root)
  have hend := node?_walk_of_directories horigin (ha.directory hr.noFile)
  refine ⟨ha.sound.put hend (.inr hv), ha.workingDirectory, ?_, fun place hp => ?_⟩
  · rw [node?_put v hne, if_pos rfl]
  · rw [node?_put v hne, if_neg hp, ha.node? place]

theorem Writes.changes {contents : Text} (hw : Writes t u root p contents) :
    Changes t u root [p] where
  sound := hw.sound
  workingDirectory := hw.workingDirectory
  file := List.forall_mem_singleton.2 ⟨contents, hw.script⟩
  other place hp := by
    rw [hw.other place (hp p List.mem_cons_self)]
    exact if_congr (and_congr_left' (by simp)) rfl rfl

/-- Scripts are emitted if nothing else is changed and each holds what it is assigned. -/
theorem emits_iff {scripts : List (TraitPath × List Text)} :
    Emits t u root crate scripts ↔ Changes t u root (scripts.map Prod.fst) ∧
      ∀ s ∈ scripts, ∃ f, t.script? (s.1.scriptFile root) = some f ∧
        u.node? (s.1.place t root) = some (.text (f.assign crate s.2).emit) := by
  constructor
  · intro he
    refine ⟨⟨he.sound, he.workingDirectory, ?_, fun place hp => ?_⟩, he.script⟩
    · refine List.forall_mem_map.2 fun s hm => ?_
      obtain ⟨_, -, hn⟩ := he.script s hm
      exact ⟨_, hn⟩
    · rw [he.other place fun s hm => hp s.1 (List.mem_map_of_mem hm)]
      exact if_congr (and_congr_left' (by simp)) rfl rfl
  · rintro ⟨hc, hscript⟩
    refine ⟨hc.sound, hc.workingDirectory, hscript, fun place hp => ?_⟩
    rw [hc.other place (List.forall_mem_map.2 hp)]
    exact if_congr (and_congr_left' (by simp)) rfl rfl

theorem Emits.changes {scripts : List (TraitPath × List Text)}
    (he : Emits t u root crate scripts) : Changes t u root (scripts.map Prod.fst) :=
  (emits_iff.1 he).1

theorem Emits.nil (hs : t.Sound) : Emits t t root crate [] :=
  emits_iff.2 ⟨Changes.nil hs, nofun⟩

/-- Scripts of other traits, emitted after one, leave it as it is. -/
theorem Emits.cons {items : List Text} {rest : List (TraitPath × List Text)} {f : Fragment}
    (hf : t.script? (p.scriptFile root) = some f)
    (hw : Writes t v root p (f.assign crate items).emit) (he : Emits v u root crate rest)
    (hr : ∀ s ∈ (p, items) :: rest, t.Ready root s.1) (hs : t.Sound) (hb : t.SolidRoot root)
    (hne : p ∉ rest.map Prod.fst) : Emits t u root crate ((p, items) :: rest) := by
  obtain ⟨hp, hrest⟩ := List.forall_mem_cons.1 hr
  have hwd := hw.workingDirectory
  refine emits_iff.2 ⟨hw.changes.trans he.changes, List.forall_mem_cons.2 ⟨⟨f, hf, ?_⟩, ?_⟩⟩
  · rw [← place_congr hwd]
    exact he.changes.keeps (Changes.place_ne hne) (place_congr hwd root p ▸ hw.script)
  · intro s hm
    obtain ⟨g, hg, hn⟩ := he.script s hm
    have hsp : s.1 ∉ [p] := fun h =>
      hne (List.eq_of_mem_singleton h ▸ List.mem_map_of_mem hm)
    rw [hw.changes.script?_other hs hb (List.forall_mem_singleton.2 hp) (hrest s hm) hsp] at hg
    rw [place_congr hwd] at hn
    exact ⟨g, hg, hn⟩

/-- Emitted scripts are there. -/
theorem Emits.holdsScript {scripts : List (TraitPath × List Text)}
    (he : Emits t u root crate scripts) (hr : ∀ s ∈ scripts, t.Ready root s.1) (hs : t.Sound)
    (hb : t.SolidRoot root) {s : TraitPath × List Text} (hm : s ∈ scripts) :
    ∃ f, t.script? (s.1.scriptFile root) = some f ∧
      u.HoldsScript root s.1 (f.assign crate s.2) := by
  obtain ⟨f, hf, hn⟩ := he.script s hm
  refine ⟨f, hf, he.sound, (hr s hm).fits, fun place hw => ?_, ?_⟩
  · rw [way_congr he.workingDirectory] at hw
    exact he.changes.directory hs hb (List.forall_mem_map.2 hr) (List.mem_map_of_mem hm) hw
  · rw [place_congr he.workingDirectory]
    exact hn

end FileTree

open Command FileTree

variable {t u : FileTree} {root crate : Text} {p : TraitPath} {m : Manifest} {files : List Text}

theorem on_readExisting (file : Text) (t : FileTree) :
    on (readExisting file) t = (t.existing file, t) := by
  rw [readExisting, on_bind_ok (on_read file t), existing]
  cases t.read file with
  | error e => cases e <;> rfl
  | ok source => cases hp : Fragment.parse source <;> (simp only [hp]; rfl)

/-- A script is emitted if each of the three steps works. -/
theorem on_emitScript_of_steps {u v : FileTree} {f : Fragment} {items : List Text}
    (hf : t.script? (p.scriptFile root) = some f)
    (hv : t.createDirectories (joinPath root p.scriptDirectory) = (v, true))
    (hu : v.write (p.scriptFile root) (f.assign crate items).emit = (u, true)) :
    on (emitScript root crate p items) t = (.ok (p.scriptFile root), u) := by
  have he := on_readExisting (p.scriptFile root) t
  rw [existing_eq_ok_iff.2 hf] at he
  rw [TraitPath.scriptFile] at he hu
  rw [emitScript, on_bind_ok he, on_bind_ok (on_require_of_done (run_createDirectories.2 hv)),
    on_bind_ok (on_require_of_done (run_write.2 hu))]
  rfl

/-- A script that can be emitted is written, and no other file. -/
theorem on_emitScript (hs : t.Sound) (hb : t.SolidRoot root) (hr : t.Ready root p) {f : Fragment}
    (hf : t.script? (p.scriptFile root) = some f) (crate : Text) (items : List Text) :
    ∃ u, on (emitScript root crate p items) t = (.ok (p.scriptFile root), u) ∧
      Writes t u root p (f.assign crate items).emit := by
  obtain ⟨v, hv, ha⟩ := hr.createDirectories hs
  have hl : v.locate (p.scriptFile root) = .ok (p.place t root) := by
    rw [← place_congr ha.workingDirectory]
    exact locate_script ha.sound hr.fits
      (way_congr ha.workingDirectory root p ▸ ha.directory hr.noFile)
  have hw := write_of_locate hl (hr.not_directory_of_adds hs hb ha) (f.assign crate items).emit
  exact ⟨_, on_emitScript_of_steps hf hv hw, ha.writes hr hs hb _⟩

/-- Scripts of different traits that can be emitted are all emitted. -/
theorem on_emitScripts {scripts : List (TraitPath × List Text)} (hs : t.Sound)
    (hb : t.SolidRoot root) (hr : ∀ s ∈ scripts, t.Ready root s.1)
    (hd : (scripts.map Prod.fst).Nodup) (crate : Text) :
    ∃ u, on (emitScripts root crate scripts) t =
        (.ok (scripts.map fun s => s.1.scriptFile root), u) ∧ Emits t u root crate scripts := by
  induction scripts generalizing t with
  | nil => exact ⟨t, rfl, Emits.nil hs⟩
  | cons s rest ih =>
    obtain ⟨p, items⟩ := s
    obtain ⟨hp, hrest⟩ := List.forall_mem_cons.1 hr
    rw [List.map_cons, List.nodup_cons] at hd
    have hfirst := List.forall_mem_singleton.2 hp
    obtain ⟨f, hf⟩ := hp.script
    obtain ⟨v, hv, hw⟩ := on_emitScript hs hb hp hf crate items
    have hready : ∀ s ∈ rest, v.Ready root s.1 := fun s hm =>
      hw.changes.ready hs hb hfirst (hrest s hm) fun h =>
        hd.1 (List.eq_of_mem_singleton h ▸ List.mem_map_of_mem hm)
    obtain ⟨u, hu, he⟩ := ih hw.sound (hw.changes.solidRoot hs hb hfirst) hready hd.2
    refine ⟨u, ?_, Emits.cons hf hw he hr hs hb hd.1⟩
    rw [emitScripts, on_bind_ok hv, on_bind_ok hu]
    rfl

theorem ready_of_on_emitScript {items : List Text} {file : Text} (hs : t.Sound)
    (h : on (emitScript root crate p items) t = (.ok file, u)) : t.Ready root p := by
  rw [emitScript] at h
  obtain ⟨f, v, hread, h⟩ := of_on_bind_ok h
  obtain ⟨_, w, hmake, h⟩ := of_on_bind_ok h
  obtain ⟨_, x, hwrite, -⟩ := of_on_bind_ok h
  rw [on_readExisting] at hread
  obtain ⟨hf, rfl⟩ := Prod.mk.inj hread
  have hfit := fits_of_write (run_write.1 (of_on_require_ok hwrite))
  have hno := noFileOn_of_createDirectories hs p.isRelative_scriptDirectory
    (run_createDirectories.1 (of_on_require_ok hmake))
  rw [p.pathNames_scriptDirectory] at hno
  exact ⟨hfit, hno, f, existing_eq_ok_iff.1 hf⟩

/-- Scripts are all emitted only if each of them can be emitted before the first one is. -/
theorem ready_of_on_emitScripts {scripts : List (TraitPath × List Text)} (hs : t.Sound)
    (hb : t.SolidRoot root) (hd : (scripts.map Prod.fst).Nodup)
    (h : on (emitScripts root crate scripts) t = (.ok files, u)) :
    ∀ s ∈ scripts, t.Ready root s.1 := by
  induction scripts generalizing t u files with
  | nil => exact nofun
  | cons s rest ih =>
    obtain ⟨p, items⟩ := s
    rw [emitScripts] at h
    obtain ⟨file, v, hv, h⟩ := of_on_bind_ok h
    obtain ⟨more, w, hw, -⟩ := of_on_bind_ok h
    have hp := ready_of_on_emitScript hs hv
    have hfirst := List.forall_mem_singleton.2 hp
    obtain ⟨f, hf⟩ := hp.script
    obtain ⟨x, hx, hwrites⟩ := on_emitScript hs hb hp hf crate items
    obtain rfl : v = x := congrArg Prod.snd (hv.symm.trans hx)
    have hc := hwrites.changes
    obtain ⟨hne, hd⟩ : p ∉ rest.map Prod.fst ∧ (rest.map Prod.fst).Nodup := List.nodup_cons.1 hd
    have hrest := ih hc.sound (hc.solidRoot hs hb hfirst) hd hw
    refine List.forall_mem_cons.2 ⟨hp, fun s hm => hc.of_ready hs hb hfirst (hrest s hm) ?_⟩
    exact fun h => hne (List.eq_of_mem_singleton h ▸ List.mem_map_of_mem hm)

/-- A manifest is emitted by emitting the markup of its traits. -/
theorem emit_eq (h : m.NamesTraits) (root : Text) :
    (emit m root : Command (StateM FileTree) (List Text)) =
      emitScripts root m.crate (m.paths.map fun p => (p, m.markupOf p)) := by
  obtain ⟨scripts, hscripts, hentries⟩ := Manifest.scripts_eq h
  rw [emit, hscripts]
  simp only [hentries]

/-- The markup of traits whose scripts can be written is written. -/
theorem on_emitMarkup (m : Manifest) {traits : List TraitPath} (hs : t.Sound)
    (hb : t.SolidRoot root) (hr : ∀ p ∈ traits, t.Ready root p) (hd : traits.Nodup) :
    ∃ u, on (emitScripts root m.crate (traits.map fun p => (p, m.markupOf p))) t =
        (.ok (traits.map (·.scriptFile root)), u) ∧
      Emits t u root m.crate (traits.map fun p => (p, m.markupOf p)) := by
  obtain ⟨u, hu, he⟩ := on_emitScripts hs hb (List.forall_mem_map.2 hr)
    ((m.map_fst_markup traits).symm ▸ hd) m.crate
  refine ⟨u, ?_, he⟩
  rw [hu, List.map_map]
  rfl

/-- And then is there. -/
theorem holdsScript_of_emitsMarkup {traits : List TraitPath}
    (he : Emits t u root m.crate (traits.map fun p => (p, m.markupOf p))) (hs : t.Sound)
    (hb : t.SolidRoot root) (hr : ∀ p ∈ traits, t.Ready root p) (hp : p ∈ traits) :
    ∃ f, t.script? (p.scriptFile root) = some f ∧
      u.HoldsScript root p (f.assign m.crate (m.markupOf p)) :=
  he.holdsScript (List.forall_mem_map.2 hr) hs hb
    (List.mem_map_of_mem (f := fun p => (p, m.markupOf p)) hp)

theorem on_emit (hm : m.check = .ok m) (hs : t.Sound) (hb : t.SolidRoot root)
    (hr : ∀ p ∈ m.paths, t.Ready root p) :
    ∃ u, on (emit m root) t = (.ok (m.paths.map (·.scriptFile root)), u) ∧
      Emits t u root m.crate (m.paths.map fun p => (p, m.markupOf p)) := by
  rw [emit_eq (Manifest.of_check hm).2]
  exact on_emitMarkup m hs hb hr m.nodup_paths

theorem ready_of_on_emit (hm : m.check = .ok m) (hs : t.Sound) (hb : t.SolidRoot root)
    (h : on (emit m root) t = (.ok files, u)) : ∀ p ∈ m.paths, t.Ready root p := by
  rw [emit_eq (Manifest.of_check hm).2] at h
  have hall := ready_of_on_emitScripts hs hb ((m.map_fst_markup _).symm ▸ m.nodup_paths) h
  exact fun p hp => hall _ (List.mem_map_of_mem hp)

/-- Emitting a manifest succeeds where all its scripts can be written. Each script then holds the
fragment that it held, or the empty one, with the markup of all impls of its trait under the crate of
the manifest: in its old place or else at the end, and all other crates as they were. Apart from the
directories that were missing on the ways to the scripts, nothing else is changed. -/
theorem emit_writes_manifest {source : Text} {m : Manifest} (hm : Manifest.parse source = .ok m)
    (hs : t.Sound) (hb : t.SolidRoot root) (hr : ∀ p ∈ m.paths, t.Ready root p) :
    ∃ u, on (emit m root) t = (.ok (m.paths.map (·.scriptFile root)), u) ∧
      (∀ p ∈ m.paths, ∃ f g : Fragment, t.script? (p.scriptFile root) = some f ∧
        u.locate (p.scriptFile root) = .ok (p.place t root) ∧
        u.read (p.scriptFile root) = .ok g.emit ∧
        g.keys = (if m.crate ∈ f.keys then f.keys else f.keys ++ [m.crate]) ∧
        ∀ c, g.get? c = if c = m.crate then some (m.markupOf p) else f.get? c) ∧
      ∀ place, (∀ p ∈ m.paths, place ≠ p.place t root) → u.node? place =
        if (∃ p ∈ m.paths, place ∈ p.way t root) ∧ t.node? place = none then some .directory
        else t.node? place := by
  obtain ⟨u, hu, he⟩ := on_emit (Manifest.check_of_parse hm) hs hb hr
  refine ⟨u, hu, fun p hp => ?_, fun place hplace => ?_⟩
  · have hmem : (p, m.markupOf p) ∈ m.paths.map fun p => (p, m.markupOf p) := List.mem_map_of_mem hp
    obtain ⟨f, hf, hh⟩ := he.holdsScript (List.forall_mem_map.2 hr) hs hb hmem
    have hl := hh.locate
    rw [place_congr he.workingDirectory] at hl
    exact ⟨f, f.assign m.crate (m.markupOf p), hf, hl, hh.read, f.keys_assign _ _,
      Catalog.get?_insert _ _ _⟩
  · rw [he.other place (List.forall_mem_map.2 hplace)]
    exact if_congr (and_congr_left' (by simp)) rfl rfl

set_option maxRecDepth 20000 in
/-- A crate is added to a script after the crate that it lists. -/
theorem emit_writes_manifest_after_other_crate :
    let source :=
      "crate = \"c\"\n\n[[trait]]\npath = \"a::T\"\nimpl = [\x7btype = \"X\"\x7d]\n".toList
    let m : Manifest :=
      ⟨"c".toList, [⟨"a::T".toList, [⟨[], "X".toList, []⟩]⟩], Catalog.empty⟩
    let other : Fragment := ⟨[("b".toList, ["impl T for Y".toList])], by decide⟩
    let root := "out".toList
    let file := "out/implementors/a/trait.T.js".toList
    let t : FileTree :=
      ⟨⟨[([root], .directory), ([root, "implementors".toList], .directory),
        ([root, "implementors".toList, "a".toList], .directory),
        ([root, "implementors".toList, "a".toList, "trait.T.js".toList], .text other.emit)],
        by decide⟩, []⟩
    Manifest.parse source = .ok m ∧ t.Sound ∧ t.SolidRoot root ∧
      (∀ p ∈ m.paths, t.Ready root p) ∧
      ∃ u, on (emit m root) t = (.ok [file], u) ∧
        ∃ g : Fragment, u.read file = .ok g.emit ∧ g.keys = ["b".toList, "c".toList] ∧
          g.get? "c".toList = some ["impl T for X".toList] := by
  intro source m other root file t
  let p : TraitPath := ⟨["a".toList], "T".toList, by decide, by decide⟩
  have hparse : Manifest.parse source = .ok m := by
    unfold source m
    cbv
  have hs : t.Sound := by decide
  have hb : t.SolidRoot root := by decide
  have hp : m.paths = [p] := by decide
  have hfile : p.scriptFile root = file := by decide
  have hold : t.script? file = some other := by decide +kernel
  have hr : ∀ p ∈ m.paths, t.Ready root p := by
    rw [hp]
    exact List.forall_mem_singleton.2 ⟨by decide, by decide, other, hold⟩
  refine ⟨hparse, hs, hb, hr, ?_⟩
  obtain ⟨u, hu, hall, -⟩ := emit_writes_manifest hparse hs hb hr
  obtain ⟨f, g, hf, -, hg, hkeys, hget⟩ := hall p (hp ▸ List.mem_cons_self)
  rw [hfile] at hf hg
  rw [hp] at hu
  obtain rfl : other = f := Option.some.inj (hold.symm.trans hf)
  have hmarkup : m.markupOf p = ["impl T for X".toList] := by decide
  exact ⟨u, hu, g, hg, hkeys, (hget _).trans (by rw [if_pos rfl, hmarkup])⟩

set_option maxRecDepth 20000 in
/-- A script that is not there is not written either if a name on the way to it is too long. And a root
that steps back out of a directory leads nowhere as long as that directory is missing: when it has been
made, the script of another crate is found there and overwritten. -/
theorem emit_fails_on_long_name_and_overwrites_behind_step_back :
    let source := "crate = \"c\"\n\n[[trait]]\npath = \"a::T\"\n".toList
    let m : Manifest := ⟨"c".toList, [⟨"a::T".toList, []⟩], Catalog.empty⟩
    let p : TraitPath := ⟨["a".toList], "T".toList, by decide, by decide⟩
    let long := "new/".toList ++ List.replicate 256 'x'
    let back := "new/..".toList
    let script := "implementors/a/trait.T.js".toList
    let other : Fragment := ⟨[("b".toList, ["impl T for Y".toList])], by decide⟩
    let bare : FileTree := ⟨Catalog.empty, []⟩
    let t : FileTree :=
      ⟨⟨[(["implementors".toList], .directory), (["implementors".toList, "a".toList], .directory),
        (["implementors".toList, "a".toList, "trait.T.js".toList], .text other.emit)],
        by decide⟩, []⟩
    Manifest.parse source = .ok m ∧ m.paths = [p] ∧
      (bare.Sound ∧ bare.NoFileOn (bare.origin long) (p.namesBelow long) ∧
        bare.read (p.scriptFile long) = .error .notFound ∧
        (on (emit m long) bare).1 =
          .error (.directoryNotCreated (joinPath long p.scriptDirectory))) ∧
      t.Sound ∧ t.NoFileOn (t.origin back) (p.namesBelow back) ∧
        t.read (p.scriptFile back) = .error .notFound ∧ t.read script = .ok other.emit ∧
        (on (emit m back) t).1 = .ok [p.scriptFile back] ∧
        (on (emit m back) t).2.read script = .ok (Fragment.emit ⟨[("c".toList, [])], by decide⟩) := by
  intro source m p long back script other bare t
  have hparse : Manifest.parse source = .ok m := by
    unfold source m
    cbv
  refine ⟨hparse, by decide, ⟨by decide, by decide, by decide +kernel, by decide +kernel⟩,
    by decide, by decide, by decide +kernel, by decide +kernel, by decide +kernel,
    by decide +kernel⟩

end Implementors
