import Implementors.Nesting
import Implementors.Proofs.Text.Cutting
import Mathlib

/-!
# Depth and lists of predicates

Blanks do not change the depth, so a piece and its trimmed form end at the same depth. A list whose
last entry ends at depth zero may be closed by another comma, which adds no entry. Behind a comma at
depth zero the scan begins anew. So texts that end at depth zero and are set a comma and a space apart
list what each of them lists; if they are entries, just these entries.

A parameter list is cut at the bracket that closes it. That is the first `>` at which its own scan may
be cut, so trimming moves it only if it puts a `-` before it.
-/
namespace Implementors.Nesting

theorem ne_of_isBlank {c : Char} (h : Text.isBlank c = true) : ∀ d, Text.isBlank d = false → c ≠ d := by
  rintro d hd rfl
  rw [h] at hd
  cases hd

/-- A scan in which a blank changes no depth. -/
def Quiet (scanner : Text.Scanner Nesting) : Prop :=
  ∀ state c, Text.isBlank c = true → scanner.step state c = ⟨state.depth, false⟩

theorem quiet_topLevel : Quiet topLevel := by
  intro state c h
  have hblank : brackets.all (!Text.isBlank ·) = true := rfl
  have hplain : c ∉ brackets := fun hm => by simpa [h] using List.all_eq_true.1 hblank c hm
  have hdash : (c == '-') = false := beq_eq_false_iff_ne.2 (ne_of_isBlank h '-' rfl)
  exact hdash ▸ step_other hplain state

namespace Quiet

variable {scanner : Text.Scanner Nesting} (hq : Quiet scanner)

include hq

theorem run_trimStart {state : Nesting} (hs : state.afterDash = false) (s : Text) :
    scanner.run state (Text.trimStart s) = scanner.run state s := by
  induction s with
  | nil => rfl
  | cons c s ih =>
    cases hc : Text.isBlank c with
    | false => rw [Text.trimStart_cons hc]
    | true =>
      have hstate : scanner.step state c = state := by rw [hq state c hc, ← hs]
      rw [Text.trimStart, List.dropWhile_cons_of_pos hc, ← Text.trimStart, ih,
        Text.Scanner.run_cons, hstate]

theorem depth_run_trimEnd (state : Nesting) (s : Text) :
    (scanner.run state (Text.trimEnd s)).depth = (scanner.run state s).depth := by
  induction s using List.reverseRecOn with
  | nil => rfl
  | append_singleton s c ih =>
    cases hc : Text.isBlank c with
    | false => rw [Text.trimEnd_concat hc]
    | true =>
      have hs : (scanner.run state (s ++ [c])).depth = (scanner.run state s).depth := by
        have hb := congrArg depth (hq (scanner.run state s) c hc)
        rw [Text.Scanner.run_append]
        exact hb
      rw [Text.trimEnd_concat_blank hc, ih, hs]

end Quiet

/-- A text without brackets does not change the depth. -/
theorem depth_run {s : Text} (h : ∀ c ∈ s, c ∉ brackets) (state : Nesting) :
    (topLevel.run state s).depth = state.depth := by
  induction s generalizing state with
  | nil => rfl
  | cons c s ih =>
    obtain ⟨hc, hs⟩ := List.forall_mem_cons.1 h
    have hstep : topLevel.step state c = ⟨state.depth, c == '-'⟩ := step_other hc state
    rw [Text.Scanner.run_cons, ih hs, hstep]

theorem depthOf_trim (s : Text) : depthOf (Text.trim s) = depthOf s := by
  rw [depthOf, Text.trim, quiet_topLevel.depth_run_trimEnd, quiet_topLevel.run_trimStart rfl, depthOf]

@[simp] theorem commaList_nil : commaList [] = [] := rfl

theorem commaList_of_pieces {s : Text} (h : topLevel.pieces s = [s]) :
    commaList s = if (Text.trim s).isEmpty then [] else [Text.trim s] := by
  rw [commaList, h]
  cases ht : Text.trim s <;> simp [ht]

theorem restarts_topLevel : topLevel.Restarts := by
  rintro ⟨depth, afterDash⟩ h
  obtain rfl : depth = 0 := beq_iff_eq.1 h
  rfl

/-- A list is divided by a comma if what stands before it ends at depth zero. -/
theorem commaList_append_comma {s : Text} (hd : depthOf s = 0) (t : Text) :
    commaList (s ++ ',' :: t) = commaList s ++ commaList t := by
  have hp := Text.Scanner.piecesFrom_append_comma restarts_topLevel (beq_iff_eq.2 hd) t
  rw [commaList, Text.Scanner.pieces, hp, List.map_append, List.filter_append]
  rfl

/-- A text is one piece, or it is one piece with a comma and a shorter text behind it. -/
theorem comma_induction {motive : Text → Prop}
    (one : ∀ s, topLevel.pieces s = [s] → motive s)
    (comma : ∀ s t, topLevel.pieces s = [s] → depthOf s = 0 → motive t → motive (s ++ ',' :: t))
    (s : Text) : motive s := by
  induction hn : s.length using Nat.strong_induction_on generalizing s with
  | h n ih =>
    obtain hs | ⟨before, rest, rfl, hb, hf⟩ := topLevel.piecesFrom_cases topLevel.start s
    · exact one s hs
    · have hl : rest.length < n := by
        rw [← hn, List.length_append, List.length_cons]
        omega
      exact comma before rest hb (beq_iff_eq.1 hf) (ih rest.length hl rest rfl)

/-- A comma behind a list adds nothing to it if the last entry ends at depth zero. -/
theorem commaList_concat_comma {s : Text} (h : ∀ p ∈ (commaList s).getLast?, depthOf p = 0) :
    commaList (s ++ [',']) = commaList s := by
  induction s using comma_induction with
  | one s hs =>
    have hd : depthOf s = 0 := by
      rw [← depthOf_trim]
      rw [commaList_of_pieces hs] at h
      cases ht : Text.trim s with
      | nil => rfl
      | cons c t => exact h _ (by simp [ht])
    rw [commaList_append_comma hd, commaList_nil, List.append_nil]
  | comma s t hs hd ih =>
    have ht : commaList (t ++ [',']) = commaList t := by
      refine ih fun p hp => h p ?_
      rw [commaList_append_comma hd, List.getLast?_append, Option.mem_def.1 hp]
      rfl
    rw [List.append_assoc, List.cons_append, commaList_append_comma hd,
      commaList_append_comma hd, ht]

/-- Entries are trimmed parts of the list. -/
theorem eq_trim_of_mem_commaList {p s : Text} (h : p ∈ commaList s) :
    p ≠ [] ∧ ∃ q, q <:+: s ∧ p = Text.trim q := by
  induction s using comma_induction with
  | one s hs =>
    rw [commaList_of_pieces hs] at h
    split at h
    · cases h
    · next hne =>
      rw [List.mem_singleton] at h
      subst h
      exact ⟨fun he => hne (List.isEmpty_iff.2 he), s, List.infix_refl s, rfl⟩
  | comma s t hs hd ih =>
    rw [commaList_append_comma hd, List.mem_append] at h
    rcases h with h | h
    · rw [commaList_of_pieces hs] at h
      split at h
      · cases h
      · next hne =>
        rw [List.mem_singleton] at h
        subst h
        exact ⟨fun he => hne (List.isEmpty_iff.2 he), s, (List.prefix_append s _).isInfix, rfl⟩
    · obtain ⟨hne, q, hq, he⟩ := ih h
      exact ⟨hne, q, hq.trans ((List.suffix_cons ',' t).trans (List.suffix_append s _)).isInfix, he⟩

theorem pieces_trim {s : Text} (h : topLevel.pieces s = [s]) :
    topLevel.pieces (Text.trim s) = [Text.trim s] := by
  have hstart : topLevel.pieces (Text.trimStart s) = [Text.trimStart s] := by
    induction s with
    | nil => rfl
    | cons c s ih =>
      cases hc : Text.isBlank c with
      | false => rwa [Text.trimStart_cons hc]
      | true =>
        have hcomma : c = ',' → topLevel.free topLevel.start = false :=
          fun he => absurd he (ne_of_isBlank hc ',' rfl)
        have hstate : topLevel.step topLevel.start c = topLevel.start := quiet_topLevel _ c hc
        rw [Text.Scanner.pieces, Text.Scanner.piecesFrom_cons hcomma, hstate] at h
        rw [Text.trimStart, List.dropWhile_cons_of_pos hc]
        exact ih (Text.Scanner.eq_singleton_of_modifyHead h)
  obtain ⟨e, he⟩ := Text.trimEnd_isPrefix (Text.trimStart s)
  rw [← he] at hstart
  exact Text.Scanner.piecesFrom_of_append hstart

/-- An entry is one piece, trimmed and not empty. All but the last end at depth zero. -/
inductive IsList : List Text → Prop
  | nil : IsList []
  | last {p : Text} : topLevel.pieces p = [p] → Text.trim p = p → p ≠ [] → IsList [p]
  | cons {p : Text} {ps : List Text} : topLevel.pieces p = [p] → Text.trim p = p → p ≠ [] →
      depthOf p = 0 → IsList ps → IsList (p :: ps)

theorem isList_commaList (s : Text) : IsList (commaList s) := by
  induction s using comma_induction with
  | one s hs =>
    rw [commaList_of_pieces hs]
    split
    · exact .nil
    · next hne =>
      exact .last (pieces_trim hs) (Text.trim_trim s) fun he => hne (List.isEmpty_iff.2 he)
  | comma s t hs hd ih =>
    rw [commaList_append_comma hd, commaList_of_pieces hs]
    split
    · exact ih
    · next hne =>
      exact .cons (pieces_trim hs) (Text.trim_trim s) (fun he => hne (List.isEmpty_iff.2 he))
        (depthOf_trim s ▸ hd) ih

theorem commaList_blank_cons {c : Char} (h : Text.isBlank c = true) (s : Text) :
    commaList (c :: s) = commaList s := by
  have hcomma : c = ',' → topLevel.free topLevel.start = false :=
    fun he => absurd he (ne_of_isBlank h ',' rfl)
  have hstate : topLevel.step topLevel.start c = topLevel.start := quiet_topLevel _ c h
  have ht : ∀ p, Text.trim (c :: p) = Text.trim p := by
    intro p
    rw [Text.trim, Text.trimStart, List.dropWhile_cons_of_pos h, ← Text.trimStart, ← Text.trim]
  rw [commaList, Text.Scanner.pieces, Text.Scanner.piecesFrom_cons hcomma, hstate]
  cases hp : topLevel.piecesFrom topLevel.start s with
  | nil => simp [commaList, Text.Scanner.pieces, hp]
  | cons p ps => simp [commaList, Text.Scanner.pieces, hp, ht]

/-- Texts that are set a comma and a space apart list what each of them lists, if all but the last end
at depth zero. -/
theorem commaList_intercalate_eq_flatMap {texts : List Text}
    (h : ∀ s ∈ texts.dropLast, depthOf s = 0) :
    commaList (", ".toList.intercalate texts) = texts.flatMap commaList := by
  induction texts with
  | nil => rfl
  | cons s texts ih =>
    cases texts with
    | nil => simp
    | cons t texts =>
      obtain ⟨hs, hrest⟩ := List.forall_mem_cons.1 (List.dropLast_cons_cons ▸ h)
      have he : s ++ ", ".toList ++ ", ".toList.intercalate (t :: texts) =
          s ++ ',' :: (' ' :: ", ".toList.intercalate (t :: texts)) :=
        List.append_assoc s ", ".toList _
      rw [List.intercalate_cons_cons, he, commaList_append_comma hs,
        commaList_blank_cons Text.isBlank_space, ih hrest]
      rfl

/-- A text is one piece just if it has no comma at the top level. -/
theorem pieces_eq_singleton_iff {s : Text} : topLevel.pieces s = [s] ↔
    ∀ before after, s = before ++ ',' :: after → depthOf before ≠ 0 := by
  constructor
  · rintro h before after rfl hd
    have hp := Text.Scanner.piecesFrom_append_comma restarts_topLevel (beq_iff_eq.2 hd) after
    rw [← Text.Scanner.pieces, h] at hp
    have hl := congrArg List.length hp
    have hbefore := List.length_pos_iff.2 (topLevel.piecesFrom_ne_nil topLevel.start before)
    have hafter := List.length_pos_iff.2 (topLevel.piecesFrom_ne_nil topLevel.start after)
    rw [List.length_append, List.length_singleton, Text.Scanner.pieces] at hl
    omega
  · intro h
    obtain hs | ⟨before, rest, he, -, hf⟩ := topLevel.piecesFrom_cases topLevel.start s
    · exact hs
    · exact absurd (beq_iff_eq.1 hf) (h before rest he)

theorem commaList_eq_singleton {s : Text} (h : topLevel.pieces s = [s]) (hne : Text.trim s ≠ []) :
    commaList s = [Text.trim s] := by
  rw [commaList_of_pieces h, if_neg fun he => hne (List.isEmpty_iff.1 he)]

namespace IsList

variable {ps : List Text}

theorem depthOf_dropLast (h : IsList ps) : ∀ p ∈ ps.dropLast, depthOf p = 0 := by
  induction h with
  | nil => exact nofun
  | last => exact nofun
  | @cons p ps _ _ _ hd _ ih =>
    cases ps with
    | nil => exact nofun
    | cons q ps => exact List.forall_mem_cons.2 ⟨hd, ih⟩

theorem flatMap_commaList (h : IsList ps) : ps.flatMap commaList = ps := by
  have hone : ∀ {p : Text}, topLevel.pieces p = [p] → Text.trim p = p → p ≠ [] →
      commaList p = [p] := by
    intro p hp ht hne
    rw [commaList_eq_singleton hp (by rwa [ht]), ht]
  induction h with
  | nil => rfl
  | last hp ht hne =>
    rw [List.flatMap_cons, hone hp ht hne]
    rfl
  | cons hp ht hne _ _ ih =>
    rw [List.flatMap_cons, hone hp ht hne, ih]
    rfl

end IsList

/-- What is written with a comma and a space between entries has these entries. -/
theorem commaList_intercalate {ps : List Text} (h : IsList ps) :
    commaList (", ".toList.intercalate ps) = ps := by
  rw [commaList_intercalate_eq_flatMap h.depthOf_dropLast, h.flatMap_commaList]

/-- The scan of a parameter list, in which only angle brackets count. It may be cut where the next
`>` closes the list. -/
def angles : Text.Scanner Nesting where
  start := ⟨0, false⟩
  step state c := {
    depth :=
      if c = '<' then state.depth + 1
      else if c = '>' ∧ state.afterDash = false then state.depth - 1
      else state.depth
    afterDash := c == '-' }
  free state := state.depth == 0 && !state.afterDash

theorem quiet_angles : Quiet angles := by
  intro state c h
  have hne := ne_of_isBlank h
  simp [angles, hne '<' rfl, hne '>' rfl, hne '-' rfl]

theorem closeAngleFrom?_eq_cutFrom? (depth : Nat) (afterDash : Bool) (s : Text) :
    closeAngleFrom? depth afterDash s = angles.cutFrom? ['>'] ⟨depth, afterDash⟩ s := by
  induction s generalizing depth afterDash with
  | nil => cases depth <;> rfl
  | cons c s ih =>
    by_cases hc : c = '>' ∧ afterDash = false
    · obtain ⟨rfl, rfl⟩ := hc
      cases depth with
      | zero => exact (Text.Scanner.cutFrom?_mark (List.cons_ne_nil _ _) rfl s).symm
      | succ depth =>
        have hfree : angles.free ⟨depth + 1, false⟩ = true →
            Text.afterStart? ['>'] ('>' :: s) = none := fun hf => by cases hf
        rw [Text.Scanner.cutFrom?_cons hfree]
        exact congrArg (Option.map _) (ih depth false)
    · have hfree : angles.free ⟨depth, afterDash⟩ = true →
          Text.afterStart? ['>'] (c :: s) = none := by
        intro hf
        have hdash : afterDash = false := by simpa using (Bool.and_eq_true_iff.1 hf).2
        exact Text.afterStart?_eq_none_of_ne (fun he => hc ⟨he.symm, hdash⟩) _ _
      have hn : ¬ (c = '>' ∧ (!afterDash) = true) := by simpa using hc
      have hdepth : angles.step ⟨depth, afterDash⟩ c =
          ⟨if c = '<' then depth + 1 else depth, c == '-'⟩ := by
        simp only [angles, if_neg hc]
      rw [Text.Scanner.cutFrom?_cons hfree, hdepth, ← ih]
      cases depth <;> exact if_neg hn

/-- A parameter list ends at the first `>` where its scan may be cut. -/
theorem closeAngle?_eq_cut? (s : Text) : closeAngle? s = angles.cut? ['>'] s :=
  closeAngleFrom?_eq_cutFrom? 0 false s

theorem afterDash_run (state : Nesting) (s : Text) :
    (angles.run state s).afterDash = s.getLast?.elim state.afterDash (· == '-') := by
  induction s using List.reverseRecOn with
  | nil => rfl
  | append_singleton s c =>
    rw [Text.Scanner.run_append, List.getLast?_concat]
    rfl

/-- Trimming a parameter list does not move its end, unless a `-` comes to stand before it. -/
theorem closeAngle?_trim {s inside after : Text} (h : closeAngle? s = some (inside, after))
    (hd : '-' ∉ (Text.trim inside).getLast?) (t : Text) :
    closeAngle? (Text.trim inside ++ '>' :: t) = some (Text.trim inside, t) := by
  have hm : ['>'] ≠ [] := List.cons_ne_nil _ _
  rw [closeAngle?_eq_cut?] at h
  have hnone : angles.cutFrom? ['>'] angles.start (Text.trim inside) = none := by
    have hb := Text.Scanner.cutFrom?_before hm h
    obtain ⟨b, hblank, hs⟩ := Text.exists_append_trimStart inside
    have hmem : '>' ∉ b := fun hin => by cases hblank '>' hin
    have hrun : angles.run angles.start b = angles.start := by
      have := quiet_angles.run_trimStart (rfl : angles.start.afterDash = false) b
      rwa [Text.trimStart_of_blank hblank, Text.Scanner.run_nil, eq_comm] at this
    rw [hs, Text.Scanner.cutFrom?_append_of_not_mem (m := '>') rfl hmem, hrun,
      Option.map_eq_none_iff] at hb
    obtain ⟨e, he⟩ := Text.trimEnd_isPrefix (Text.trimStart inside)
    cases hc : angles.cutFrom? ['>'] angles.start (Text.trim inside) with
    | none => rfl
    | some cut =>
      obtain ⟨x, y⟩ := cut
      have := Text.Scanner.cutFrom?_append hm hc e
      rw [Text.trim, he, hb] at this
      cases this
  have hfree : angles.free (angles.run angles.start (Text.trim inside)) = true := by
    have hf := (Text.Scanner.occurs_of_cutFrom? h).free
    have hdepth : (angles.run angles.start (Text.trim inside)).depth =
        (angles.run angles.start inside).depth := by
      rw [Text.trim, quiet_angles.depth_run_trimEnd, quiet_angles.run_trimStart rfl]
    have hdash : (angles.run angles.start (Text.trim inside)).afterDash = false := by
      rw [afterDash_run]
      cases hl : (Text.trim inside).getLast? with
      | none => rfl
      | some c =>
        rw [hl] at hd
        exact beq_eq_false_iff_ne.2 fun he => hd (he ▸ rfl)
    have hzero := (Bool.and_eq_true_iff.1 hf).1
    rw [← hdepth] at hzero
    exact Bool.and_eq_true_iff.2 ⟨hzero, by rw [hdash]; rfl⟩
  have hself := Text.Scanner.cutFrom?_append_mark (List.not_mem_nil) hnone hfree
  rw [closeAngle?_eq_cut?]
  have hall := Text.Scanner.cutFrom?_append hm hself t
  rwa [List.append_assoc] at hall

end Implementors.Nesting
