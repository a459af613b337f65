import Implementors.Fragment.Reader
import Implementors.Proofs.TraitPath
import Mathlib

/-!
# Scripts in a file tree

What a file tree holds for the script of a trait, when that script can be emitted, and what a change
that is about some scripts only means for the others: they lie elsewhere and need no file where those
are, so they hold what they held, and can be emitted just if they could be before.
-/
namespace Implementors.FileTree

variable {t u v : FileTree} {root : Text} {p q : TraitPath} {paths more : List TraitPath}

/-- The fragment that a file is extended from: the one in it, or the empty one if there is no file. -/
def script? (t : FileTree) (path : Text) : Option Fragment :=
  match t.read path with
  | .error .notFound => some Catalog.empty
  | .error .unreadable => none
  | .ok source => (Fragment.parse source).toOption

/-- Names of a root that step back only out of directories that are there. -/
def SolidRoot (t : FileTree) (root : Text) : Prop := t.Solid (t.origin root) (pathNames root)

instance (t : FileTree) (root : Text) : Decidable (t.SolidRoot root) :=
  inferInstanceAs (Decidable (t.Solid _ _))

/-- The script of a trait can be emitted: its path is no longer than a file system allows, where it
needs directories there are no files, and if it is there, it holds a fragment. -/
structure Ready (t : FileTree) (root : Text) (p : TraitPath) : Prop where
  fits : Fits (p.scriptFile root)
  noFile : t.NoFileOn (t.origin root) (p.namesBelow root)
  script : ∃ f, t.script? (p.scriptFile root) = some f

theorem place_eq_placeBelow (t : FileTree) (root : Text) (p : TraitPath) :
    p.place t root = t.placeBelow root p.scriptDirectory ++ [p.scriptName] := by
  rw [TraitPath.place, TraitPath.namesBelow, ← p.pathNames_scriptDirectory]
  rfl

theorem way_eq_wayBelow (t : FileTree) (root : Text) (p : TraitPath) :
    p.way t root = t.wayBelow root p.scriptDirectory := by
  rw [TraitPath.way, TraitPath.namesBelow, ← p.pathNames_scriptDirectory]
  rfl

theorem SolidRoot.namesBelow (hb : t.SolidRoot root) (p : TraitPath) :
    t.Solid (t.origin root) (p.namesBelow root) :=
  Solid.append hb fun _ hm => (p.isSegment_of_mem_directories hm).isProper

/-- What is read of a script is what stands at its place. -/
theorem script?_eq (hs : t.Sound) (hb : t.SolidRoot root) (hfit : Fits (p.scriptFile root))
    (hf : t.NoFileOn (t.origin root) (p.namesBelow root)) :
    t.script? (p.scriptFile root) =
      match t.node? (p.place t root) with
      | none => some Catalog.empty
      | some (.text contents) => (Fragment.parse contents).toOption
      | some _ => none := by
  have hb := hb.namesBelow p
  rw [TraitPath.scriptFile_eq] at hfit ⊢
  rw [TraitPath.namesBelow, ← p.pathNames_scriptDirectory] at hf hb
  rw [script?, read_fileBelow hs p.isRelative_scriptDirectory p.slash_not_mem_scriptName
    p.isProper_scriptName hfit hf hb, place_eq_placeBelow]
  cases t.node? (t.placeBelow root p.scriptDirectory ++ [p.scriptName]) with
  | none => rfl
  | some node => cases node <;> rfl

theorem place_congr (h : u.workingDirectory = t.workingDirectory) (root : Text) (p : TraitPath) :
    p.place u root = p.place t root := by
  rw [TraitPath.place, TraitPath.place, origin, origin, h]

theorem way_congr (h : u.workingDirectory = t.workingDirectory) (root : Text) (p : TraitPath) :
    p.way u root = p.way t root := by
  rw [TraitPath.way, TraitPath.way, origin, origin, h]

namespace Ready

/-- No directory stands where a script can be emitted. -/
theorem not_directory (hr : t.Ready root p) (hs : t.Sound) (hb : t.SolidRoot root) :
    t.node? (p.place t root) ≠ some .directory := by
  intro hn
  obtain ⟨f, hf⟩ := hr.script
  rw [script?_eq hs hb hr.fits hr.noFile, hn] at hf
  cases hf

theorem place_not_mem_way (hr : t.Ready root p) (hs : t.Sound) (hb : t.SolidRoot root)
    (hf : t.NoFileOn (t.origin root) (q.namesBelow root)) : p.place t root ∉ q.way t root :=
  TraitPath.place_not_mem_way hs hb (hr.not_directory hs hb) hf

/-- The directories that are missing on the way to a script can be made. -/
theorem createDirectories (hr : t.Ready root p) (hs : t.Sound) :
    ∃ v, t.createDirectories (joinPath root p.scriptDirectory) = (v, true) ∧
      Adds t v (p.way t root) := by
  have hfit := hr.fits
  have hno := hr.noFile
  rw [p.scriptFile_eq] at hfit
  rw [TraitPath.namesBelow, ← p.pathNames_scriptDirectory] at hno
  rw [way_eq_wayBelow]
  exact createDirectories_adds hs p.isRelative_scriptDirectory p.slash_not_mem_scriptName hfit hno

/-- No directory stands where the script goes after that either. -/
theorem not_directory_of_adds (hr : t.Ready root p) (hs : t.Sound) (hb : t.SolidRoot root)
    (ha : Adds t v (p.way t root)) : v.node? (p.place t root) ≠ some .directory := by
  rw [ha.node? _, if_neg fun h => hr.place_not_mem_way hs hb hr.noFile h.1]
  exact hr.not_directory hs hb

end Ready

/-- If its directories are there, the path of a script leads to its place. -/
theorem locate_script (hs : t.Sound) (hfit : Fits (p.scriptFile root))
    (hw : ∀ place ∈ p.way t root, t.node? place = some .directory) :
    t.locate (p.scriptFile root) = .ok (p.place t root) := by
  rw [TraitPath.scriptFile_eq] at hfit ⊢
  rw [way_eq_wayBelow] at hw
  rw [place_eq_placeBelow]
  exact locate_of_directories hs p.isRelative_scriptDirectory p.slash_not_mem_scriptName
    p.isProper_scriptName hfit hw

/-- Only then: whoever got to a script came through directories all along, and to no other place. -/
theorem of_locate_script {place : List Text} (h : t.locate (p.scriptFile root) = .ok place) :
    place = p.place t root ∧ t.SolidRoot root ∧
      ∀ q ∈ p.way t root, t.node? q = some .directory := by
  have hfit := fits_of_locate h
  rw [TraitPath.scriptFile_eq] at h hfit
  rw [locate_fileBelow p.isRelative_scriptDirectory p.slash_not_mem_scriptName hfit,
    p.pathNames_scriptDirectory, ← TraitPath.namesBelow] at h
  obtain ⟨rfl, -, hall⟩ := of_follow_eq_ok h
  refine ⟨?_, fun before after he => ?_, fun q hq => ?_⟩
  · rw [walk_append]
    exact step_of_isProper p.isProper_scriptName _
  · refine hall before ['.', '.'] (after ++ p.directories ++ [p.scriptName]) ?_
    rw [TraitPath.namesBelow, he]
    simp
  · obtain ⟨before, after, he, rfl⟩ := walk_of_mem_way hq
    have hne : after ++ [p.scriptName] ≠ [] := by simp
    obtain ⟨name, rest, hr⟩ := List.exists_cons_of_ne_nil hne
    exact hall before name rest (by rw [he, List.append_assoc, hr])

/-- The script of a trait is there, with a fragment in it. -/
structure HoldsScript (t : FileTree) (root : Text) (p : TraitPath) (f : Fragment) : Prop where
  sound : t.Sound
  fits : Fits (p.scriptFile root)
  directory : ∀ place ∈ p.way t root, t.node? place = some .directory
  text : t.node? (p.place t root) = some (.text f.emit)

theorem HoldsScript.locate {f : Fragment} (h : t.HoldsScript root p f) :
    t.locate (p.scriptFile root) = .ok (p.place t root) :=
  locate_script h.sound h.fits h.directory

theorem HoldsScript.read {f : Fragment} (h : t.HoldsScript root p f) :
    t.read (p.scriptFile root) = .ok f.emit :=
  read_of_locate h.locate h.text

/-- All directories on the way to a script that is there are there. -/
theorem HoldsScript.createDirectories {f : Fragment} (h : t.HoldsScript root p f) :
    t.createDirectories (joinPath root p.scriptDirectory) = (t, true) := by
  have hfit := h.fits
  have hway := h.directory
  rw [p.scriptFile_eq] at hfit
  rw [way_eq_wayBelow] at hway
  exact createDirectories_of_directories p.isRelative_scriptDirectory p.slash_not_mem_scriptName
    hfit hway

/-- A script that is read back can be emitted, from what it holds. -/
theorem HoldsScript.script? {f : Fragment} (h : t.HoldsScript root p f)
    (hp : Fragment.parse f.emit = .ok f) : t.script? (p.scriptFile root) = some f := by
  rw [FileTree.script?, h.read]
  simp only [hp]
  rfl

theorem HoldsScript.ready {f : Fragment} (h : t.HoldsScript root p f)
    (hp : Fragment.parse f.emit = .ok f) : t.Ready root p where
  fits := h.fits
  noFile place hm _ hn := Option.some.inj (hn.symm.trans (h.directory place hm))
  script := ⟨f, h.script? hp⟩

/-- The second tree is the first one with files at the places of some scripts, and with directories
where nothing stood on the ways to them. -/
structure Changes (t u : FileTree) (root : Text) (paths : List TraitPath) : Prop where
  sound : u.Sound
  workingDirectory : u.workingDirectory = t.workingDirectory
  file : ∀ p ∈ paths, ∃ contents, u.node? (p.place t root) = some (.text contents)
  other : ∀ place, (∀ p ∈ paths, place ≠ p.place t root) → u.node? place =
    if (∃ p ∈ paths, place ∈ p.way t root) ∧ t.node? place = none then some .directory
    else t.node? place

namespace Changes

theorem nil (hs : t.Sound) : Changes t t root [] :=
  ⟨hs, rfl, nofun, fun place _ => (if_neg fun h => by simp at h).symm⟩

theorem place_ne (hm : q ∉ paths) : ∀ p ∈ paths, q.place t root ≠ p.place t root :=
  fun _ hp h => hm (TraitPath.place_injective t root h ▸ hp)

/-- What stands where no script is emitted stays. -/
theorem keeps (hc : Changes t u root paths) {place : List Text} {node : FileNode}
    (hp : ∀ p ∈ paths, place ≠ p.place t root) (h : t.node? place = some node) :
    u.node? place = some node := by
  rw [hc.other place hp, h]
  exact if_neg fun hn => Option.some_ne_none node hn.2

/-- One change after another is a change that is about the scripts of both. -/
theorem trans (hc : Changes t u root paths) (hd : Changes u v root more) :
    Changes t v root (paths ++ more) := by
  have hwd := hc.workingDirectory
  refine ⟨hd.sound, hd.workingDirectory.trans hwd, fun p hp => ?_, fun place hall => ?_⟩
  · by_cases hm : p ∈ more
    · obtain ⟨contents, h⟩ := hd.file p hm
      exact ⟨contents, place_congr hwd root p ▸ h⟩
    · obtain ⟨contents, h⟩ := hc.file p ((List.mem_append.1 hp).resolve_right hm)
      rw [← place_congr hwd] at h ⊢
      exact ⟨contents, hd.keeps (place_ne hm) h⟩
  · obtain ⟨hpaths, hmore⟩ := List.forall_mem_append.1 hall
    have hu := hc.other place hpaths
    have hv := hd.other place fun p hp => place_congr hwd root p ▸ hmore p hp
    simp only [way_congr hwd] at hv
    rw [hv]
    by_cases hfirst : (∃ p ∈ paths, place ∈ p.way t root) ∧ t.node? place = none
    · obtain ⟨⟨p, hp, hin⟩, hnone⟩ := hfirst
      rw [if_pos ⟨⟨p, hp, hin⟩, hnone⟩] at hu
      rw [hu, if_neg fun h => Option.some_ne_none _ h.2,
        if_pos ⟨⟨p, List.mem_append_left _ hp, hin⟩, hnone⟩]
    · rw [if_neg hfirst] at hu
      rw [hu]
      refine if_congr ⟨fun h => ⟨?_, h.2⟩, fun h => ⟨?_, h.2⟩⟩ rfl rfl
      · obtain ⟨p, hp, hin⟩ := h.1
        exact ⟨p, List.mem_append_right _ hp, hin⟩
      · obtain ⟨p, hp, hin⟩ := h.1
        rcases List.mem_append.1 hp with hp | hp
        · exact absurd ⟨⟨p, hp, hin⟩, h.2⟩ hfirst
        · exact ⟨p, hp, hin⟩

/-- Where no script is, changes that are about the same scripts leave the same. -/
theorem node?_eq (hc : Changes t u root paths) (hd : Changes t v root more)
    (hsame : ∀ p, p ∈ paths ↔ p ∈ more) {place : List Text}
    (h : ∀ p ∈ paths, place ≠ p.place t root) : u.node? place = v.node? place := by
  rw [hc.other place h, hd.other place fun p hp => h p ((hsame p).2 hp)]
  simp only [hsame]

section Ready

variable (hc : Changes t u root paths) (hs : t.Sound) (hb : t.SolidRoot root)
  (hr : ∀ p ∈ paths, t.Ready root p)

include hc hs hb hr

theorem keeps_directory {place : List Text} (h : t.node? place = some .directory) :
    u.node? place = some .directory :=
  hc.keeps (fun p hp he => (hr p hp).not_directory hs hb (he ▸ h)) h

theorem solidRoot : u.SolidRoot root := by
  intro before after he
  rw [origin, hc.workingDirectory]
  exact hc.keeps_directory hs hb hr (hb before after he)

/-- On the way to another script there are at most new directories. -/
theorem node?_way (hf : t.NoFileOn (t.origin root) (q.namesBelow root)) {place : List Text}
    (hm : place ∈ q.way t root) : u.node? place =
      if (∃ p ∈ paths, place ∈ p.way t root) ∧ t.node? place = none then some .directory
      else t.node? place :=
  hc.other place fun p hp he => (hr p hp).place_not_mem_way hs hb hf (he ▸ hm)

/-- Where another script needs directories there still are no files. -/
theorem noFile (hf : t.NoFileOn (t.origin root) (q.namesBelow root)) :
    u.NoFileOn (u.origin root) (q.namesBelow root) := by
  rw [origin, hc.workingDirectory]
  intro place hm node hn
  rw [hc.node?_way hs hb hr hf hm] at hn
  split at hn
  · exact (Option.some.inj hn).symm
  · exact hf place hm node hn

/-- On the way to a script that is emitted, all directories are there. -/
theorem directory (hq : q ∈ paths) {place : List Text} (hm : place ∈ q.way t root) :
    u.node? place = some .directory := by
  have hf := (hr q hq).noFile
  rw [hc.node?_way hs hb hr hf hm]
  cases hold : t.node? place with
  | none => rw [if_pos ⟨⟨q, hq, hm⟩, rfl⟩]
  | some node =>
    obtain rfl := hf place hm node hold
    rw [if_neg fun h => Option.some_ne_none _ h.2]

/-- Another script holds what it held, if it is not on the way to one that is emitted. -/
theorem script?_of_not_mem_way (hfit : Fits (q.scriptFile root))
    (hf : t.NoFileOn (t.origin root) (q.namesBelow root)) (hm : q ∉ paths)
    (hw : ∀ p ∈ paths, q.place t root ∉ p.way t root) :
    u.script? (q.scriptFile root) = t.script? (q.scriptFile root) := by
  have hway : ¬ ∃ p ∈ paths, q.place t root ∈ p.way t root := fun ⟨p, hp, hin⟩ => hw p hp hin
  rw [script?_eq hc.sound (hc.solidRoot hs hb hr) hfit (hc.noFile hs hb hr hf),
    script?_eq hs hb hfit hf, place_congr hc.workingDirectory, hc.other _ (place_ne hm),
    if_neg fun h => hway h.1]

theorem script?_other (hq : t.Ready root q) (hm : q ∉ paths) :
    u.script? (q.scriptFile root) = t.script? (q.scriptFile root) :=
  hc.script?_of_not_mem_way hs hb hr hq.fits hq.noFile hm fun p hp =>
    hq.place_not_mem_way hs hb (hr p hp).noFile

/-- Another script that could be emitted still can. -/
theorem ready (hq : t.Ready root q) (hm : q ∉ paths) : u.Ready root q where
  fits := hq.fits
  noFile := hc.noFile hs hb hr hq.noFile
  script := hc.script?_other hs hb hr hq hm ▸ hq.script

/-- Another script that can be emitted could be before. -/
theorem of_ready (hq : u.Ready root q) (hm : q ∉ paths) : t.Ready root q := by
  have hwd := hc.workingDirectory
  have hno : t.NoFileOn (t.origin root) (q.namesBelow root) := by
    have hf := hq.noFile
    rw [origin, hwd] at hf
    intro place hp node hn
    by_cases hother : ∀ p ∈ paths, place ≠ p.place t root
    · exact hf place hp node (hc.keeps hother hn)
    · -- A file was put there, where the other script needs a directory.
      push Not at hother
      obtain ⟨p, hpm, rfl⟩ := hother
      obtain ⟨contents, hfile⟩ := hc.file p hpm
      cases hf _ hp _ hfile
  have hway : ∀ p ∈ paths, q.place t root ∉ p.way t root := by
    intro p hp hin
    have hd := hc.directory hs hb hr hp hin
    rw [← place_congr hwd] at hd
    exact hq.not_directory hc.sound (hc.solidRoot hs hb hr) hd
  refine ⟨hq.fits, hno, ?_⟩
  rw [← hc.script?_of_not_mem_way hs hb hr hq.fits hno hm hway]
  exact hq.script

/-- A script that was there is there as it was. -/
theorem holdsScript {f : Fragment} (hh : t.HoldsScript root q f) (hm : q ∉ paths) :
    u.HoldsScript root q f where
  sound := hc.sound
  fits := hh.fits
  directory place hp := by
    rw [way_congr hc.workingDirectory] at hp
    exact hc.keeps_directory hs hb hr (hh.directory place hp)
  text := by
    rw [place_congr hc.workingDirectory]
    exact hc.keeps (place_ne hm) hh.text

end Ready
end Changes

end Implementors.FileTree
