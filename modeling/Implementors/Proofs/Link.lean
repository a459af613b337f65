import Implementors.Link
import Implementors.TraitPath
import Mathlib

/-!
# Tokens

A text is cut into tokens in just one way: each is a run of name characters or one other character,
and no run goes on in the next token. So a name is found in a text only where it is a whole token,
never as a part of a longer name.
-/
namespace Implementors.Text

/-- A run of name characters, or one other character. -/
def IsToken (t : Text) : Prop := IsSegment t ∨ ∃ c, t = [c] ∧ isNameChar c = false

/-- The tokens are the text, and no run is cut in two. -/
structure Tokenizes (tokens : List Text) (s : Text) : Prop where
  flatten : tokens.flatten = s
  isToken : ∀ t ∈ tokens, IsToken t
  longest : tokens.IsChain fun t u => ¬ (IsSegment t ∧ IsSegment u)

/-- Two neighbouring characters belong to one token. -/
def joined (c d : Char) : Bool := isNameChar c && isNameChar d

variable {s t u : Text} {c : Char}

theorem isSegment_iff : IsSegment s ↔ s ≠ [] ∧ ∀ c ∈ s, isNameChar c = true := by
  rw [IsSegment, List.all_eq_true]

theorem isToken_singleton (c : Char) : IsToken [c] := by
  cases hc : isNameChar c with
  | true => exact .inl (isSegment_iff.2 ⟨List.cons_ne_nil c [], List.forall_mem_singleton.2 hc⟩)
  | false => exact .inr ⟨c, rfl, hc⟩

/-- A token has characters, and they are joined. -/
theorem isToken_iff : IsToken t ↔ t ≠ [] ∧ t.IsChain fun c d => joined c d = true := by
  rw [IsToken, isSegment_iff]
  constructor
  · rintro (⟨hne, hall⟩ | ⟨c, rfl, -⟩)
    · refine ⟨hne, List.Pairwise.isChain (List.pairwise_iff_forall_sublist.2 fun {c d} hs => ?_)⟩
      have hc := hall c (hs.subset List.mem_cons_self)
      have hd := hall d (hs.subset (List.mem_cons_of_mem c List.mem_cons_self))
      exact Bool.and_eq_true_iff.2 ⟨hc, hd⟩
    · exact ⟨List.cons_ne_nil c [], List.isChain_singleton c⟩
  · rintro ⟨hne, hchain⟩
    obtain ⟨c, rest, rfl⟩ := List.exists_cons_of_ne_nil hne
    rw [← isSegment_iff]
    induction rest generalizing c with
    | nil => exact isToken_singleton c
    | cons d rest ih =>
      obtain ⟨hj, hrest⟩ := List.isChain_cons_cons.1 hchain
      obtain ⟨hc, hd⟩ := Bool.and_eq_true_iff.1 hj
      refine .inl (isSegment_iff.2 ⟨hne, List.forall_mem_cons.2 ⟨hc, ?_⟩⟩)
      rcases ih d (List.cons_ne_nil d rest) hrest with hs | ⟨e, he, hn⟩
      · exact (isSegment_iff.1 hs).2
      · cases he
        rw [hd] at hn
        cases hn

/-- One token is not joined to the next just if not both are runs. -/
theorem not_joined_iff (ht : IsToken t) (hu : IsToken u) :
    (∃ ht hu, joined (t.getLast ht) (u.head hu) = false) ↔ ¬ (IsSegment t ∧ IsSegment u) := by
  have htne := (isToken_iff.1 ht).1
  have hune := (isToken_iff.1 hu).1
  constructor
  · rintro ⟨_, _, hj⟩ ⟨hts, hus⟩
    have hlast := (isSegment_iff.1 hts).2 _ (List.getLast_mem htne)
    have hhead := (isSegment_iff.1 hus).2 _ (List.head_mem hune)
    rw [joined, hlast, hhead] at hj
    cases hj
  · intro hn
    refine ⟨htne, hune, ?_⟩
    rcases ht with ht | ⟨c, rfl, hc⟩
    · rcases hu with hu | ⟨d, rfl, hd⟩
      · exact absurd ⟨ht, hu⟩ hn
      · exact Bool.and_eq_false_iff.2 (.inr hd)
    · exact Bool.and_eq_false_iff.2 (.inl hc)

/-- There is only one way to cut a text into tokens: wherever two characters are not joined. -/
theorem tokenizes_iff {tokens : List Text} : Tokenizes tokens s ↔ s.splitBy joined = tokens := by
  rw [List.splitBy_eq_iff]
  constructor
  · rintro ⟨rfl, htoken, hlongest⟩
    refine ⟨rfl, fun hm => (isToken_iff.1 (htoken [] hm)).1 rfl,
      fun t ht => (isToken_iff.1 (htoken t ht)).2, ?_⟩
    exact hlongest.imp_of_mem_imp fun t u ht hu => (not_joined_iff (htoken t ht) (htoken u hu)).2
  · rintro ⟨rfl, hne, hchain, hlongest⟩
    have htoken : ∀ t ∈ tokens, IsToken t := fun t ht =>
      isToken_iff.2 ⟨fun he => hne (he ▸ ht), hchain t ht⟩
    refine ⟨rfl, htoken, ?_⟩
    exact hlongest.imp_of_mem_imp fun t u ht hu => (not_joined_iff (htoken t ht) (htoken u hu)).1

theorem tokenizes_tokens (s : Text) : Tokenizes s.tokens s := by
  induction s with
  | nil => exact ⟨rfl, nofun, List.isChain_nil⟩
  | cons c s ih =>
    cases s with
    | nil =>
      exact ⟨rfl, List.forall_mem_singleton.2 (isToken_singleton c), List.isChain_singleton _⟩
    | cons d s =>
      rw [tokens, ← joined]
      generalize tokens (d :: s) = ts at ih ⊢
      obtain ⟨hflat, htoken, hlongest⟩ := ih
      cases ts with
      | nil => cases hflat
      | cons t ts =>
        obtain ⟨ht, hts⟩ := List.forall_mem_cons.1 htoken
        obtain ⟨hne, hchain⟩ := isToken_iff.1 ht
        obtain ⟨e, t, rfl⟩ := List.exists_cons_of_ne_nil hne
        obtain ⟨rfl, -⟩ := List.cons.inj hflat
        by_cases hj : joined c e = true
        · -- The character makes the first token longer.
          have hlonger : IsToken (c :: e :: t) :=
            isToken_iff.2 ⟨List.cons_ne_nil c _, List.isChain_cons_cons.2 ⟨hj, hchain⟩⟩
          have hshorter : IsSegment (c :: e :: t) → IsSegment (e :: t) := fun hs =>
            isSegment_iff.2 ⟨hne, (List.forall_mem_cons.1 (isSegment_iff.1 hs).2).2⟩
          rw [if_pos hj, List.modifyHead_cons]
          refine ⟨congrArg (c :: ·) hflat, List.forall_mem_cons.2 ⟨hlonger, hts⟩, ?_⟩
          rw [List.isChain_cons] at hlongest ⊢
          exact ⟨fun u hu hs => hlongest.1 u hu ⟨hshorter hs.1, hs.2⟩, hlongest.2⟩
        · -- It is a token of its own, and not both are runs.
          rw [if_neg hj]
          refine ⟨congrArg (c :: ·) hflat,
            List.forall_mem_cons.2 ⟨isToken_singleton c, htoken⟩,
            List.isChain_cons_cons.2 ⟨fun hs => hj ?_, hlongest⟩⟩
          have hc := (isSegment_iff.1 hs.1).2 c List.mem_cons_self
          have he := (isSegment_iff.1 hs.2).2 e List.mem_cons_self
          exact Bool.and_eq_true_iff.2 ⟨hc, he⟩

/-- The tokens of a text are its longest runs of name characters and its other characters. -/
theorem tokens_eq_iff {tokens : List Text} : s.tokens = tokens ↔ Tokenizes tokens s := by
  rw [tokenizes_iff, tokenizes_iff.1 (tokenizes_tokens s)]

end Implementors.Text
