import Implementors.Proofs.Files.Paths
import Implementors.TraitPath
import Mathlib

/-!
# Where scripts lie

The segments of a trait path have no slashes, dots or blanks in them, so the script of a trait lies
below its root just where the path says: in the directories named after its modules, under a name that
no directory has. Two traits never share a script, and the script of one is never in the way of
another.
-/
namespace Implementors

/-- The code points of the blank characters. -/
def Text.blankCodes : List Nat :=
  [0x09, 0x0A, 0x0B, 0x0C, 0x0D, 0x20, 0x85, 0xA0, 0x1680, 0x2000, 0x2001, 0x2002, 0x2003, 0x2004,
    0x2005, 0x2006, 0x2007, 0x2008, 0x2009, 0x200A, 0x2028, 0x2029, 0x202F, 0x205F, 0x3000]

theorem Text.toNat_mem_blankCodes {c : Char} (h : isBlank c = true) : c.toNat ∈ blankCodes := by
  simp only [isBlank, Bool.or_eq_true, Bool.and_eq_true, decide_eq_true_eq, beq_iff_eq] at h
  simp only [blankCodes, List.mem_cons, List.not_mem_nil, or_false]
  omega

/-- No blank is part of a name. -/
theorem Text.isNameChar_of_isBlank {c : Char} (h : isBlank c = true) : isNameChar c = false := by
  have hcodes : ∀ n ∈ blankCodes, inRanges n alphanumericRanges = false := by
    decide +kernel
  have hline : c ≠ '_' := by
    rintro rfl
    cases h
  rw [isNameChar, isAlphanumeric, hcodes _ (toNat_mem_blankCodes h), Bool.false_or]
  exact beq_eq_false_iff_ne.2 hline

theorem IsSegment.not_mem {s : Text} (h : IsSegment s) {c : Char}
    (hc : Text.isNameChar c = false) : c ∉ s := by
  intro hm
  have hn := List.all_eq_true.1 h.2 c hm
  rw [hc] at hn
  cases hn

theorem IsSegment.isBlank_eq_false {s : Text} (h : IsSegment s) : ∀ c ∈ s, Text.isBlank c = false := by
  intro c hc
  cases hb : Text.isBlank c with
  | false => rfl
  | true => exact absurd hc (h.not_mem (Text.isNameChar_of_isBlank hb))

theorem IsSegment.isProper {s : Text} (h : IsSegment s) : FileTree.IsProper s := by
  have hd : '.' ∉ s := h.not_mem (by decide)
  refine ⟨h.1, ?_, ?_⟩ <;> (rintro rfl; exact hd List.mem_cons_self)

namespace TraitPath

variable {p q : TraitPath}

/-- Directories are named like segments. -/
theorem isSegment_of_mem_directories (p : TraitPath) {name : Text} (h : name ∈ p.directories) :
    IsSegment name := by
  rcases List.mem_cons.1 h with rfl | h
  · decide
  · exact p.segments name (List.mem_append_left _ h)

theorem isSegment_name (p : TraitPath) : IsSegment p.name :=
  p.segments p.name (List.mem_append_right _ List.mem_cons_self)

theorem scriptName_eq (p : TraitPath) :
    p.scriptName = "trait.".toList ++ (p.name ++ ".js".toList) :=
  List.append_assoc _ _ _

theorem dot_mem_scriptName (p : TraitPath) : '.' ∈ p.scriptName := by
  have h : '.' ∈ "trait.".toList := by decide
  rw [scriptName_eq]
  exact List.mem_append_left _ h

/-- No directory has the name of a script. -/
theorem scriptName_not_mem_directories (p q : TraitPath) : p.scriptName ∉ q.directories := by
  intro h
  exact (q.isSegment_of_mem_directories h).not_mem (by decide) p.dot_mem_scriptName

theorem slash_not_mem_scriptName (p : TraitPath) : '/' ∉ p.scriptName := by
  have hn : '/' ∉ p.name := p.isSegment_name.not_mem (by decide)
  have hb : '/' ∉ "trait.".toList := by decide
  have he : '/' ∉ ".js".toList := by decide
  rw [scriptName_eq]
  exact List.not_mem_append hb (List.not_mem_append hn he)

theorem isProper_scriptName (p : TraitPath) : FileTree.IsProper p.scriptName := by
  have h : p.scriptName = 't' :: ("rait.".toList ++ (p.name ++ ".js".toList)) := p.scriptName_eq
  rw [h]
  exact ⟨nofun, nofun, nofun⟩

/-- The names that lead to a script tell which trait it belongs to. -/
theorem eq_of_names_eq (h : p.directories ++ [p.scriptName] = q.directories ++ [q.scriptName]) :
    p = q := by
  obtain ⟨hd, hs⟩ := List.append_inj' h rfl
  have hn : p.name = q.name := by
    have hs := (List.cons.inj hs).1
    rw [scriptName_eq, scriptName_eq, List.append_cancel_left_eq, List.append_cancel_right_eq] at hs
    exact hs
  have hm : p.modules = q.modules := (List.cons.inj hd).2
  obtain ⟨pm, pn, _, _⟩ := p
  obtain ⟨qm, qn, _, _⟩ := q
  cases hn
  cases hm
  rfl

theorem pathNames_scriptDirectory (p : TraitPath) :
    pathNames p.scriptDirectory = p.directories := by
  have hs : ∀ name ∈ p.directories, '/' ∉ name := fun name hm =>
    (p.isSegment_of_mem_directories hm).not_mem (by decide)
  rw [pathNames, Text.splitOn_eq_list_splitOn]
  exact List.splitOn_intercalate '/' hs (List.cons_ne_nil _ _)

theorem isRelative_scriptDirectory (p : TraitPath) : IsRelative p.scriptDirectory := by
  obtain ⟨m, ms, hm⟩ := List.exists_cons_of_ne_nil p.nested
  have h : p.scriptDirectory = 'i' :: ("mplementors".toList ++ '/' :: ['/'].intercalate (m :: ms)) := by
    rw [scriptDirectory, directories, hm, List.intercalate_cons_cons, List.append_assoc]
    rfl
  rw [h]
  exact ⟨nofun, nofun⟩

theorem scriptPath_eq (p : TraitPath) :
    p.scriptPath = p.scriptDirectory ++ '/' :: p.scriptName := by
  have hd : p.directories ≠ [] := List.cons_ne_nil _ _
  rw [scriptPath, Text.intercalate_concat _ hd, List.append_assoc]
  rfl

/-- The path of the script of a trait below a root. -/
def scriptFile (root : Text) (p : TraitPath) : Text := joinPath root p.scriptPath

theorem scriptFile_eq (root : Text) (p : TraitPath) :
    p.scriptFile root = FileTree.fileBelow root p.scriptDirectory p.scriptName := by
  rw [scriptFile, scriptPath_eq]
  rfl

/-- The names that lead to the directory of a script. -/
def namesBelow (root : Text) (p : TraitPath) : List Text := pathNames root ++ p.directories

/-- The place of the script of a trait below a root. -/
def place (t : FileTree) (root : Text) (p : TraitPath) : List Text :=
  FileTree.walk (t.origin root) (p.namesBelow root) ++ [p.scriptName]

/-- The places on the way to the directory of a script. -/
def way (t : FileTree) (root : Text) (p : TraitPath) : List (List Text) :=
  FileTree.way (t.origin root) (p.namesBelow root)

theorem place_eq (t : FileTree) (root : Text) (p : TraitPath) :
    p.place t root = FileTree.walk (t.origin root) (pathNames root) ++
      (p.directories ++ [p.scriptName]) := by
  rw [place, namesBelow, FileTree.walk_append, FileTree.walk_of_isProper, List.append_assoc]
  exact fun name hm => (p.isSegment_of_mem_directories hm).isProper

/-- Two traits never share a script. -/
theorem place_injective (t : FileTree) (root : Text) : Function.Injective (place t root) := by
  intro p q h
  rw [place_eq, place_eq, List.append_cancel_left_eq] at h
  exact eq_of_names_eq h

/-- A script that is no directory is not in the way of another one. -/
theorem place_not_mem_way {t : FileTree} (hs : t.Sound) {root : Text}
    (hb : t.Solid (t.origin root) (pathNames root))
    (hp : t.node? (p.place t root) ≠ some .directory)
    (hf : t.NoFileOn (t.origin root) (q.namesBelow root)) : p.place t root ∉ q.way t root := by
  intro hm
  have hnone : t.node? (p.place t root) = none := by
    cases hn : t.node? (p.place t root) with
    | none => rfl
    | some node =>
      obtain rfl := hf _ hm node hn
      exact absurd hn hp
  rw [way, namesBelow, FileTree.way_append] at hm
  rcases List.mem_append.1 hm with hm | hm
  · -- Nothing stands at the script, so what the root leads past lies above the root.
    have hl := (hs.prefix_walk hb hm hnone).length_le
    rw [place_eq] at hl
    simp only [List.length_append, List.length_cons, List.length_nil] at hl
    omega
  · obtain ⟨front, hfr, -, he⟩ := FileTree.prefix_of_mem_way
      (fun name hm => (q.isSegment_of_mem_directories hm).isProper) hm
    rw [place_eq, List.append_cancel_left_eq] at he
    have hin : p.scriptName ∈ front := he ▸ List.mem_append_right _ List.mem_cons_self
    exact scriptName_not_mem_directories p q (hfr.subset hin)

end TraitPath
end Implementors
