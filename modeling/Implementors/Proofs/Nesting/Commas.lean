import Implementors.Proofs.Nesting
import Mathlib

/-!
# Cutting at commas with one scan

A list is divided by cutting off one piece after another, and for each of them the scan begins anew with
what is left. The commas at which it is cut are nevertheless those at which a scan of the whole text is
at depth zero: a piece ends at depth zero, so the scan that goes on behind its comma and the one that
begins there agree.
-/
namespace Implementors

namespace Text.Scanner

variable {σ : Type} {scanner : Scanner σ}

/-- Cuts one piece off a text and begins to scan anew behind its comma. There is no round if no comma
is left. -/
def round? (scanner : Scanner σ) : List Text × Text → Option (List Text × Text)
  | (pieces, s) => (scanner.cut? [','] s).map fun (before, rest) => (pieces ++ [before], rest)

/-- A number of rounds, if there are as many. -/
def rounds? (scanner : Scanner σ) : Nat → List Text × Text → Option (List Text × Text)
  | 0, state => some state
  | n + 1, state => (scanner.round? state).bind (scanner.rounds? n)

/-- The rounds come to an end, and what they cut off and what is left then are the pieces. -/
theorem exists_rounds (cut : List Text) (s : Text) :
    ∃ pieces rest, scanner.rounds? pieces.length (cut, s) = some (cut ++ pieces, rest) ∧
      scanner.cut? [','] rest = none ∧ scanner.pieces s = pieces ++ [rest] := by
  -- Each round takes the first of the pieces.
  induction hp : scanner.pieces s generalizing cut s with
  | nil => exact absurd hp (scanner.piecesFrom_ne_nil scanner.start s)
  | cons p ps ih =>
    cases hc : scanner.cut? [','] s with
    | none =>
      rw [← hp, pieces, piecesFrom_of_cutFrom?_eq_none hc]
      exact ⟨[], s, by simp [rounds?], hc, rfl⟩
    | some next =>
      obtain ⟨before, rest⟩ := next
      rw [pieces, piecesFrom_of_cutFrom? hc] at hp
      obtain ⟨rfl, hrest⟩ := List.cons.inj hp
      obtain ⟨more, last, hrounds, hlast, rfl⟩ := ih (cut ++ [before]) rest hrest
      refine ⟨before :: more, last, ?_, hlast, rfl⟩
      rw [List.length_cons, rounds?, round?, hc, Option.map_some, Option.bind_some, hrounds]
      simp

end Text.Scanner

namespace Nesting

/-- Between two of the pieces there is a comma, with the given texts before and after it. -/
def CommaBetween (pieces : List Text) (before after : Text) : Prop :=
  ∃ left right, left ≠ [] ∧ right ≠ [] ∧ pieces = left ++ right ∧
    before = [','].intercalate left ∧ after = [','].intercalate right

/-- A text consists of pieces with commas between them, and these are the commas at which the scan of the
whole text is at depth zero. -/
structure Divides (pieces : List Text) (s : Text) : Prop where
  ne_nil : pieces ≠ []
  text : [','].intercalate pieces = s
  comma_iff : ∀ before after, s = before ++ ',' :: after →
    (CommaBetween pieces before after ↔ depthOf before = 0)

theorem depthOf_append_comma {s : Text} (hd : depthOf s = 0) (t : Text) :
    depthOf (s ++ ',' :: t) = depthOf t := by
  have hr := restarts_topLevel (topLevel.run topLevel.start s) (beq_iff_eq.2 hd)
  rw [depthOf, Text.Scanner.run_append, Text.Scanner.run_cons, hr, depthOf]

theorem intercalate_comma_cons (p : Text) {ps : List Text} (h : ps ≠ []) :
    [','].intercalate (p :: ps) = p ++ ',' :: [','].intercalate ps := by
  rw [List.intercalate_cons_of_ne_nil h, List.append_assoc, List.singleton_append]

theorem commaBetween_cons_iff {p before after : Text} {ps : List Text} :
    CommaBetween (p :: ps) before after ↔
      (ps ≠ [] ∧ before = p ∧ after = [','].intercalate ps) ∨
        ∃ b, before = p ++ ',' :: b ∧ CommaBetween ps b after := by
  constructor
  · rintro ⟨left, right, hl, hr, he, rfl, rfl⟩
    obtain ⟨q, left, rfl⟩ := List.exists_cons_of_ne_nil hl
    obtain ⟨rfl, rfl⟩ := List.cons.inj he
    by_cases hleft : left = []
    · subst hleft
      exact .inl ⟨hr, List.intercalate_singleton, rfl⟩
    · exact .inr ⟨_, intercalate_comma_cons p hleft, left, right, hleft, hr, rfl, rfl, rfl⟩
  · rintro (⟨hps, rfl, rfl⟩ | ⟨b, rfl, left, right, hl, hr, rfl, rfl, rfl⟩)
    · exact ⟨[before], ps, List.cons_ne_nil _ _, hps, rfl, List.intercalate_singleton.symm, rfl⟩
    · exact ⟨p :: left, right, List.cons_ne_nil _ _, hr, rfl,
        (intercalate_comma_cons p hl).symm, rfl⟩

theorem commaBetween_cons_append_iff {p b after : Text} {ps : List Text} :
    CommaBetween (p :: ps) (p ++ ',' :: b) after ↔ CommaBetween ps b after := by
  rw [commaBetween_cons_iff]
  constructor
  · rintro (⟨-, he, -⟩ | ⟨b', he, h⟩)
    · exact absurd (List.append_right_eq_self.1 he) (List.cons_ne_nil _ _)
    · obtain ⟨-, rfl⟩ := List.cons.inj (List.append_cancel_left he)
      exact h
  · exact fun h => .inr ⟨b, rfl, h⟩

theorem not_commaBetween_singleton (p before after : Text) : ¬ CommaBetween [p] before after := by
  rw [commaBetween_cons_iff]
  rintro (⟨h, -⟩ | ⟨_, -, left, right, hl, -, he, -⟩)
  · exact h rfl
  · exact hl (List.append_eq_nil_iff.1 he.symm).1

/-- A piece that is not the last one ends at depth zero, with a comma behind it. -/
theorem Divides.first {p s : Text} {ps : List Text} (h : Divides (p :: ps) s) (hps : ps ≠ []) :
    s = p ++ ',' :: [','].intercalate ps ∧ depthOf p = 0 := by
  have htext := h.text.symm.trans (intercalate_comma_cons p hps)
  have hbetween : CommaBetween (p :: ps) p ([','].intercalate ps) :=
    commaBetween_cons_iff.2 (.inl ⟨hps, rfl, rfl⟩)
  exact ⟨htext, (h.comma_iff p _ htext).1 hbetween⟩

/-- A text without a comma at the top level is one piece. -/
theorem divides_iff_of_whole {s : Text} {pieces : List Text} (hs : topLevel.pieces s = [s]) :
    Divides pieces s ↔ pieces = [s] := by
  have hwhole := pieces_eq_singleton_iff.1 hs
  constructor
  · intro h
    obtain ⟨p, ps, rfl⟩ := List.exists_cons_of_ne_nil h.ne_nil
    by_cases hps : ps = []
    · subst hps
      rw [← h.text, List.intercalate_singleton]
    · obtain ⟨htext, hd⟩ := h.first hps
      exact absurd hd (hwhole p _ htext)
  · rintro rfl
    refine ⟨List.cons_ne_nil s [], List.intercalate_singleton, fun before after he => ?_⟩
    exact iff_of_false (not_commaBetween_singleton s before after) (hwhole before after he)

/-- What stands before the first comma at the top level is the first piece. -/
theorem Divides.exists_cons {s t : Text} {pieces : List Text} (h : Divides pieces (s ++ ',' :: t))
    (hs : topLevel.pieces s = [s]) (hd : depthOf s = 0) : ∃ ps, pieces = s :: ps := by
  obtain ⟨left, right, hl, hr, rfl, rfl, rfl⟩ := (h.comma_iff s t rfl).2 hd
  obtain ⟨p, ps, rfl⟩ := List.exists_cons_of_ne_nil hl
  by_cases hps : ps = []
  · subst hps
    rw [List.intercalate_singleton]
    exact ⟨right, rfl⟩
  · -- A comma behind an earlier piece would stand at the top level too.
    obtain ⟨-, hp⟩ := h.first (List.append_ne_nil_of_left_ne_nil hps right)
    exact absurd hp (pieces_eq_singleton_iff.1 hs p _ (intercalate_comma_cons p hps))

/-- Behind its first comma at the top level, a text is divided as it is by itself. -/
theorem divides_cons_iff {s t : Text} {ps : List Text} (hs : topLevel.pieces s = [s])
    (hd : depthOf s = 0) : Divides (s :: ps) (s ++ ',' :: t) ↔ Divides ps t := by
  constructor
  · intro h
    have hps : ps ≠ [] := by
      rintro rfl
      have htext := h.text
      rw [List.intercalate_singleton] at htext
      exact List.cons_ne_nil _ _ (List.append_right_eq_self.1 htext.symm)
    have htext := h.text
    rw [intercalate_comma_cons s hps] at htext
    obtain ⟨-, ht⟩ := List.cons.inj (List.append_cancel_left htext)
    refine ⟨hps, ht, ?_⟩
    rintro before after rfl
    have hc := h.comma_iff (s ++ ',' :: before) after (by rw [List.append_assoc, List.cons_append])
    rwa [commaBetween_cons_append_iff, depthOf_append_comma hd] at hc
  · intro h
    refine ⟨List.cons_ne_nil s ps, ?_, fun before after he => ?_⟩
    · rw [intercalate_comma_cons s h.ne_nil, h.text]
    obtain ⟨rfl, rfl⟩ | ⟨x, hx⟩ | ⟨x, rfl, ht⟩ := Text.eq_or_of_append_cons_eq he
    · exact iff_of_true (commaBetween_cons_iff.2 (.inl ⟨h.ne_nil, rfl, h.text.symm⟩)) hd
    · -- Inside the first piece there is no comma at the top level.
      refine iff_of_false (fun hb => ?_) (pieces_eq_singleton_iff.1 hs before x hx)
      have hl := congrArg List.length hx
      rw [List.length_append, List.length_cons] at hl
      obtain ⟨-, rfl, -⟩ | ⟨b, rfl, -⟩ := commaBetween_cons_iff.1 hb
      · omega
      · rw [List.length_append] at hl
        omega
    · rw [commaBetween_cons_append_iff, depthOf_append_comma hd]
      exact h.comma_iff x after ht

/-- The pieces are the one way to divide a text by a single scan. -/
theorem divides_iff {s : Text} {pieces : List Text} :
    Divides pieces s ↔ pieces = topLevel.pieces s := by
  induction s using comma_induction generalizing pieces with
  | one s hs =>
    rw [hs]
    exact divides_iff_of_whole hs
  | comma s t hs hd ih =>
    rw [Text.Scanner.pieces_append_comma hs (beq_iff_eq.2 hd)]
    constructor
    · intro h
      obtain ⟨ps, rfl⟩ := h.exists_cons hs hd
      rw [ih.1 ((divides_cons_iff hs hd).1 h)]
    · rintro rfl
      exact (divides_cons_iff hs hd).2 (ih.2 rfl)

/-- The rounds, each with a scan of its own, end for every text. What they cut off, with what is left,
divides the text at the commas at which one scan of the whole text is at depth zero, and nothing else
does. The list has these pieces, trimmed, except for those that are empty then. -/
theorem commaList_divides_by_one_scan (s : Text) :
    ∃ cut rest, topLevel.rounds? cut.length ([], s) = some (cut, rest) ∧
      topLevel.round? (cut, rest) = none ∧
      (∀ pieces, Divides pieces s ↔ pieces = cut ++ [rest]) ∧
      commaList s = ((cut ++ [rest]).map Text.trim).filter (!·.isEmpty) := by
  obtain ⟨cut, rest, hrounds, hlast, hpieces⟩ := topLevel.exists_rounds [] s
  refine ⟨cut, rest, hrounds, ?_, fun pieces => ?_, ?_⟩
  · rw [Text.Scanner.round?, hlast, Option.map_none]
  · rw [divides_iff, hpieces]
  · rw [commaList, hpieces]

example : commaList "a>,, b->,<(c,d] ,e>, f->(,g".toList =
    ["a>".toList, "b->".toList, "<(c,d] ,e>".toList, "f->(,g".toList] := by decide

end Nesting
end Implementors
