import Implementors.Proofs.Text.Cutting
import Mathlib

/-!
# Lines

A text is cut into lines at every line end. Each line stands in the text behind as many line ends as
there are lines before it, and which lines there are up to some line end does not depend on what
follows it.
-/
namespace Implementors.Text

theorem splitOn_eq_list_splitOn (separator : Char) (s : Text) :
    splitOn separator s = List.splitOn separator s := by
  induction s with
  | nil => rfl
  | cons c s ih =>
    rw [splitOn, List.splitOn_cons_eq_if_modifyHead, ih]
    simp only [beq_iff_eq]

/-- A piece without separators comes off at the first separator. -/
theorem splitOn_append {separator : Char} {piece : Text} (h : separator ∉ piece) (rest : Text) :
    splitOn separator (piece ++ separator :: rest) = piece :: splitOn separator rest := by
  rw [splitOn_eq_list_splitOn, splitOn_eq_list_splitOn]
  exact List.splitOn_append_cons_self_of_not_mem h rest

/-- Lines that are each ended by a separator, and then a rest. -/
theorem splitOn_flatMap {separator : Char} {pieces : List Text}
    (h : ∀ p ∈ pieces, separator ∉ p) (rest : Text) :
    splitOn separator (pieces.flatMap (· ++ [separator]) ++ rest) =
      pieces ++ splitOn separator rest := by
  induction pieces with
  | nil => rfl
  | cons p pieces ih =>
    have hp := splitOn_append (h p List.mem_cons_self)
      (pieces.flatMap (· ++ [separator]) ++ rest)
    have hr := ih fun q hq => h q (List.mem_cons_of_mem _ hq)
    simpa [hr] using hp

theorem splitOn_of_not_mem {separator : Char} {s : Text} (h : separator ∉ s) :
    splitOn separator s = [s] := by
  rw [splitOn_eq_list_splitOn]
  exact List.splitOn_eq_singleton h

theorem intercalate_splitOn (separator : Char) (s : Text) :
    [separator].intercalate (splitOn separator s) = s := by
  rw [splitOn_eq_list_splitOn]
  exact List.intercalate_splitOn separator

theorem splitOn_ne_nil (separator : Char) (s : Text) : splitOn separator s ≠ [] := by
  rw [splitOn_eq_list_splitOn]
  exact List.splitOn_ne_nil separator s

theorem not_mem_of_mem_splitOn {separator : Char} {s piece : Text}
    (h : piece ∈ splitOn separator s) : separator ∉ piece := by
  induction s generalizing piece with
  | nil =>
    rw [splitOn_nil, List.mem_singleton] at h
    subst h
    exact List.not_mem_nil
  | cons c s ih =>
    by_cases hc : c = separator
    · subst hc
      rw [splitOn_separator, List.mem_cons] at h
      rcases h with rfl | h
      · exact List.not_mem_nil
      · exact ih h
    · obtain ⟨p, ps, hp⟩ := List.exists_cons_of_ne_nil (splitOn_ne_nil separator s)
      rw [splitOn_cons_of_ne hc, hp, List.modifyHead_cons, List.mem_cons] at h
      rw [hp] at ih
      rcases h with rfl | h
      · rw [List.mem_cons, not_or]
        exact ⟨Ne.symm hc, ih List.mem_cons_self⟩
      · exact ih (List.mem_cons_of_mem p h)

/-- A line of a text, with what stands before and behind it. -/
structure IsLine (before line behind s : Text) : Prop where
  text : before ++ line ++ behind = s
  one : '\n' ∉ line
  starts : before = [] ∨ before.getLast? = some '\n'
  ends : behind = [] ∨ behind.head? = some '\n'

/-- A text that ends with a line consists of ended lines. -/
theorem exists_lines_of_ended {s : Text} (h : s = [] ∨ s.getLast? = some '\n') :
    ∃ lines : List Text, (∀ l ∈ lines, '\n' ∉ l) ∧ s = lines.flatMap (· ++ ['\n']) := by
  rcases h with rfl | h
  · exact ⟨[], nofun, rfl⟩
  · obtain ⟨t, rfl⟩ := List.getLast?_eq_some_iff.1 h
    refine ⟨splitOn '\n' t, fun l => not_mem_of_mem_splitOn, ?_⟩
    rw [flatMap_append_eq_intercalate _ (splitOn_ne_nil '\n' t), intercalate_splitOn]

/-- The lines of a text are its pieces between line ends. -/
theorem IsLine.exists_splitOn {before line behind s : Text} (h : IsLine before line behind s) :
    ∃ earlier later, splitOn '\n' s = earlier ++ line :: later ∧
      (∀ l ∈ earlier, '\n' ∉ l) ∧ before = earlier.flatMap (· ++ ['\n']) := by
  obtain ⟨earlier, hlines, rfl⟩ := exists_lines_of_ended h.starts
  rw [← h.text, List.append_assoc, splitOn_flatMap hlines]
  rcases h.ends with rfl | hend
  · refine ⟨earlier, [], ?_, hlines, rfl⟩
    rw [List.append_nil, splitOn_of_not_mem h.one]
  · obtain ⟨rest, rfl⟩ := List.head?_eq_some_iff.1 hend
    refine ⟨earlier, splitOn '\n' rest, ?_, hlines, rfl⟩
    rw [splitOn_append h.one]

theorem intercalate_append_cons {α : Type} (separator : List α) (earlier : List (List α))
    (piece : List α) (later : List (List α)) :
    separator.intercalate (earlier ++ piece :: later) =
      earlier.flatMap (· ++ separator) ++ piece ++ later.flatMap (separator ++ ·) := by
  induction earlier with
  | nil =>
    induction later generalizing piece with
    | nil => simp
    | cons p later ih =>
      rw [List.nil_append, List.intercalate_cons_cons]
      simpa using ih p
  | cons p earlier ih =>
    obtain ⟨q, qs, hq⟩ : ∃ q qs, earlier ++ piece :: later = q :: qs :=
      List.exists_cons_of_ne_nil (by simp)
    rw [hq] at ih
    rw [List.cons_append, hq, List.intercalate_cons_cons, ih]
    simp

theorem isLine_of_splitOn {s line : Text} {earlier later : List Text}
    (h : splitOn '\n' s = earlier ++ line :: later) :
    IsLine (earlier.flatMap (· ++ ['\n'])) line (later.flatMap (['\n'] ++ ·)) s where
  text := by rw [← intercalate_append_cons, ← h, intercalate_splitOn]
  one := not_mem_of_mem_splitOn (h ▸ List.mem_append_right earlier List.mem_cons_self)
  starts := by
    cases earlier using List.reverseRecOn with
    | nil => exact .inl rfl
    | append_singleton earlier l => exact .inr (by simp)
  ends := by
    cases later with
    | nil => exact .inl rfl
    | cons l later => exact .inr rfl

/-- Before a line there are as many line ends as lines. -/
theorem count_flatMap_lines {lines : List Text} (h : ∀ l ∈ lines, '\n' ∉ l) :
    (lines.flatMap (· ++ ['\n'])).count '\n' = lines.length := by
  induction lines with
  | nil => rfl
  | cons l lines ih =>
    obtain ⟨hl, hs⟩ := List.forall_mem_cons.1 h
    rw [List.flatMap_cons, List.count_append, List.count_append, List.count_eq_zero.2 hl, ih hs,
      List.length_cons]
    simp [Nat.add_comm]

end Implementors.Text
