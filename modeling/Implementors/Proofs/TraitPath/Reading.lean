import Implementors.Proofs.TraitPath
import Implementors.Proofs.Text.Words
import Mathlib

/-!
# Reading trait paths

A text is a trait path just if, without the blanks around it, it consists of two or more segments with
double colons between them; no segment has a colon, so there is one way to cut it. What is displayed of
a path is read as that path, and the paths of two scripts are as different as the paths of their traits:
they are not the same, and neither leads through the other.
-/
namespace Implementors.TraitPath

theorem splitColons_cons {c : Char} (h : c ≠ ':') (rest : Text) :
    splitColons (c :: rest) = (splitColons rest).modifyHead (c :: ·) := by
  rw [splitColons]
  rintro _ rfl
  exact absurd rfl h

/-- A piece without colons comes off at the first double colon. -/
theorem splitColons_append {piece : Text} (h : ':' ∉ piece) (rest : Text) :
    splitColons (piece ++ "::".toList ++ rest) = piece :: splitColons rest := by
  induction piece with
  | nil => rfl
  | cons c piece ih =>
    rw [List.mem_cons, not_or] at h
    rw [List.cons_append, List.cons_append, splitColons_cons (Ne.symm h.1), ih h.2,
      List.modifyHead_cons]

theorem splitColons_of_not_mem {s : Text} (h : ':' ∉ s) : splitColons s = [s] := by
  induction s with
  | nil => rfl
  | cons c s ih =>
    rw [List.mem_cons, not_or] at h
    rw [splitColons_cons (Ne.symm h.1), ih h.2, List.modifyHead_cons]

theorem splitColons_intercalate {pieces : List Text} (hne : pieces ≠ [])
    (h : ∀ p ∈ pieces, ':' ∉ p) : splitColons ("::".toList.intercalate pieces) = pieces := by
  induction pieces with
  | nil => exact absurd rfl hne
  | cons p pieces ih =>
    obtain ⟨hp, hs⟩ := List.forall_mem_cons.1 h
    cases pieces with
    | nil => rw [List.intercalate_singleton, splitColons_of_not_mem hp]
    | cons q pieces =>
      rw [List.intercalate_cons_cons, splitColons_append hp, ih (List.cons_ne_nil q pieces) hs]

theorem splitColons_ne_nil (s : Text) : splitColons s ≠ [] := by
  fun_induction splitColons s with
  | case1 => exact List.cons_ne_nil _ _
  | case2 rest ih => exact List.cons_ne_nil _ _
  | case3 c rest _ ih => exact fun he => ih (List.modifyHead_eq_nil_iff.1 he)

/-- Nothing but the double colons is lost. -/
theorem intercalate_splitColons (s : Text) : "::".toList.intercalate (splitColons s) = s := by
  fun_induction splitColons s with
  | case1 => rfl
  | case2 rest ih =>
    obtain ⟨p, ps, hp⟩ := List.exists_cons_of_ne_nil (splitColons_ne_nil rest)
    rw [hp] at ih ⊢
    rw [List.intercalate_cons_cons, ih]
    rfl
  | case3 c rest _ ih =>
    obtain ⟨p, ps, hp⟩ := List.exists_cons_of_ne_nil (splitColons_ne_nil rest)
    rw [hp] at ih ⊢
    rw [List.modifyHead_cons, ← ih]
    cases ps with
    | nil => simp
    | cons q ps => simp [List.intercalate_cons_cons]

theorem ofSegments?_eq_some_iff {pieces : List Text} {p : TraitPath} :
    ofSegments? pieces = some p ↔ pieces = p.modules ++ [p.name] := by
  constructor
  · intro h
    rw [ofSegments?] at h
    split at h
    · cases h
      exact (List.dropLast_concat_getLast _).symm
    · cases h
  · rintro rfl
    have hs : (p.modules ++ [p.name]).dropLast = p.modules := List.dropLast_concat
    have hp : (p.modules ++ [p.name]).dropLast ≠ [] ∧ ∀ s ∈ p.modules ++ [p.name], IsSegment s :=
      ⟨hs.symm ▸ p.nested, p.segments⟩
    rw [ofSegments?, dif_pos hp]
    obtain ⟨modules, name, _, _⟩ := p
    simp

/-- Two or more segments make a path. -/
theorem exists_of_segments {segments : List Text} (hl : 2 ≤ segments.length)
    (h : ∀ s ∈ segments, IsSegment s) : ∃ p : TraitPath, segments = p.modules ++ [p.name] := by
  have hd : segments.dropLast ≠ [] := by
    rw [← List.length_pos_iff, List.length_dropLast]
    omega
  obtain ⟨p, hp⟩ : ∃ p, ofSegments? segments = some p := ⟨_, dif_pos ⟨hd, h⟩⟩
  exact ⟨p, ofSegments?_eq_some_iff.1 hp⟩

theorem splitColons_display (p : TraitPath) : splitColons p.display = p.modules ++ [p.name] :=
  splitColons_intercalate (by simp) fun s hs => (p.segments s hs).not_mem (by decide)

/-- A text is read as a path just if, trimmed, it is what the path is displayed as. -/
theorem parse_eq_ok_iff {s : Text} {p : TraitPath} :
    parse s = .ok p ↔ Text.trim s = p.display := by
  have hp : parse s = .ok p ↔ ofSegments? (splitColons (Text.trim s)) = some p := by
    rw [parse]
    split <;> simp_all
  rw [hp, ofSegments?_eq_some_iff]
  constructor
  · intro h
    rw [display, ← h, intercalate_splitColons]
  · intro h
    rw [h, splitColons_display]

/-- There is no blank in a path. -/
theorem tidy_display (p : TraitPath) : Text.Tidy p.display := by
  refine .of_no_blank fun c hc => ?_
  have hm : c ∈ (p.modules ++ [p.name]).flatMap (· ++ "::".toList) := by
    rw [Text.flatMap_append_eq_intercalate _ (by simp)]
    exact List.mem_append_left _ hc
  obtain ⟨s, hs, hc⟩ := List.mem_flatMap.1 hm
  rcases List.mem_append.1 hc with hc | hc
  · exact (p.segments s hs).isBlank_eq_false c hc
  · obtain rfl : c = ':' := by simpa using hc
    rfl

/-- The path of a script is cut at its slashes into the names of directories and that of the script. -/
theorem splitOn_scriptPath (p : TraitPath) :
    Text.splitOn '/' p.scriptPath = p.directories ++ [p.scriptName] := by
  have hs : ∀ name ∈ p.directories ++ [p.scriptName], '/' ∉ name := by
    rw [List.forall_mem_append, List.forall_mem_singleton]
    exact ⟨fun name hm => (p.isSegment_of_mem_directories hm).not_mem (by decide),
      p.slash_not_mem_scriptName⟩
  rw [Text.splitOn_eq_list_splitOn]
  exact List.splitOn_intercalate '/' hs (by simp)

theorem scriptPath_injective : Function.Injective scriptPath := by
  intro p q h
  apply eq_of_names_eq
  rw [← splitOn_scriptPath, h, splitOn_scriptPath]

/-- No script lies in another one, as if that were a directory. -/
theorem not_scriptPath_slash_prefix (p q : TraitPath) : ¬ p.scriptPath ++ ['/'] <+: q.scriptPath := by
  rintro ⟨rest, h⟩
  have hnames : p.directories ++ [p.scriptName] ++ Text.splitOn '/' rest =
      q.directories ++ [q.scriptName] := by
    rw [← splitOn_scriptPath, ← splitOn_scriptPath, ← h, List.append_assoc, List.singleton_append]
    simp only [Text.splitOn_eq_list_splitOn, List.splitOn_append_cons_self]
  have hdirectories := congrArg List.dropLast hnames
  rw [List.dropLast_append_of_ne_nil (Text.splitOn_ne_nil '/' rest), List.dropLast_concat] at hdirectories
  have hm : p.scriptName ∈ q.directories := by
    rw [← hdirectories]
    simp
  exact scriptName_not_mem_directories p q hm

theorem implementors_prefix_scriptPath (p : TraitPath) :
    "implementors/".toList <+: p.scriptPath := by
  obtain ⟨m, ms, hm⟩ := List.exists_cons_of_ne_nil p.nested
  have h : p.scriptPath = "implementors".toList ++ ['/'] ++
      ['/'].intercalate (m :: ms ++ [p.scriptName]) := by
    rw [scriptPath, directories, hm, List.cons_append, List.cons_append, List.intercalate_cons_cons]
  rw [h]
  exact List.prefix_append _ _

theorem isProper_of_mem_splitOn_scriptPath (p : TraitPath) :
    ∀ name ∈ Text.splitOn '/' p.scriptPath, FileTree.IsProper name := by
  rw [splitOn_scriptPath, List.forall_mem_append, List.forall_mem_singleton]
  exact ⟨fun name hm => (p.isSegment_of_mem_directories hm).isProper, p.isProper_scriptName⟩

/-- Just those texts are read as paths that, trimmed, are two or more segments with double colons
between them, and what is displayed of a path is read as that path. The scripts of two traits have the
same path just if the traits have, and no script lies in another one. All lie below the directory
`implementors`, no name on the way is empty or leads up or nowhere, and the last one is made of the name
of the trait. -/
theorem paths_read_back_and_lie_apart :
    (∀ s, (∃ p, parse s = .ok p) ↔ ∃ segments : List Text, 2 ≤ segments.length ∧
      (∀ t ∈ segments, IsSegment t) ∧ Text.trim s = "::".toList.intercalate segments) ∧
    ∀ p : TraitPath, parse p.display = .ok p ∧
      (∀ q : TraitPath, (p.scriptPath = q.scriptPath ↔ p = q) ∧
        ¬ p.scriptPath ++ ['/'] <+: q.scriptPath) ∧
      "implementors/".toList <+: p.scriptPath ∧
      (∀ name ∈ Text.splitOn '/' p.scriptPath, FileTree.IsProper name) ∧
      (Text.splitOn '/' p.scriptPath).getLast? =
        some ("trait.".toList ++ p.name ++ ".js".toList) := by
  constructor
  · intro s
    simp only [parse_eq_ok_iff]
    constructor
    · rintro ⟨p, hp⟩
      have hl : 0 < p.modules.length := List.length_pos_iff.2 p.nested
      exact ⟨p.modules ++ [p.name], by rw [List.length_append, List.length_singleton]; omega,
        p.segments, hp⟩
    · rintro ⟨segments, hl, hs, ht⟩
      obtain ⟨p, rfl⟩ := exists_of_segments hl hs
      exact ⟨p, ht⟩
  · intro p
    refine ⟨parse_eq_ok_iff.2 p.tidy_display.trim,
      fun q => ⟨scriptPath_injective.eq_iff, not_scriptPath_slash_prefix p q⟩,
      p.implementors_prefix_scriptPath, p.isProper_of_mem_splitOn_scriptPath, ?_⟩
    rw [splitOn_scriptPath, List.getLast?_concat]
    rfl

/-- A module has the name of a trait beside it; a third colon belongs to no segment. -/
theorem paths_read_back_and_lie_apart_nested :
    let p : TraitPath := ⟨["a".toList], "T".toList, by decide, by decide⟩
    let q : TraitPath := ⟨["a".toList, "T".toList], "T".toList, by decide, by decide⟩
    (∃ r, parse "\ta::T::T\n".toList = .ok r) ∧ (¬ ∃ r, parse "a:::T".toList = .ok r) ∧
      parse "a::T::T".toList = .ok q ∧ p.scriptPath = "implementors/a/trait.T.js".toList ∧
      q.scriptPath = "implementors/a/T/trait.T.js".toList ∧ p.scriptPath ≠ q.scriptPath ∧
      ¬ p.scriptPath ++ ['/'] <+: q.scriptPath ∧ FileTree.IsProper "trait.T.js".toList := by
  intro p q
  obtain ⟨haccepted, hpaths⟩ := paths_read_back_and_lie_apart
  obtain ⟨-, hapart, -, hproper, -⟩ := hpaths p
  refine ⟨?_, ?_, (hpaths q).1, by decide, by decide, ?_, (hapart q).2, hproper _ (by decide)⟩
  · exact (haccepted _).2 ⟨["a".toList, "T".toList, "T".toList], by decide, by decide, by decide⟩
  · rintro ⟨r, hr⟩
    cases hr
  · exact fun h => absurd ((hapart q).1.1 h) (by decide)

end Implementors.TraitPath
