import Implementors.Proofs.Markup.References
import Mathlib

/-!
# Reading markup step by step

Outside of tags, each step of reading keeps a character, drops a tag or decodes a reference. Reading
goes on until nothing is left or a tag is not closed. What a step shows depends on its own part of the
markup alone, so escaped text is read back unchanged whatever stands behind it.
-/
namespace Implementors.Markup

open Text (Numeral SignedNumeral)

/-- One step of reading outside of tags: the markup that is left, what is shown for its beginning, and
what is left then. -/
inductive Step : Text → Text → Text → Prop
  | char {c : Char} {rest : Text} : c ≠ '<' → c ≠ '&' → Step (c :: rest) [c] rest
  | tag {content rest : Text} : '>' ∉ content →
      Step ('<' :: content ++ '>' :: rest) (if isLineBreak content then ['\n'] else []) rest
  | reference {tail rest : Text} {c : Char} :
      reference? ('&' :: (tail ++ rest)) = some (c, tail.length + 1) →
      Step ('&' :: (tail ++ rest)) [c] rest
  | ampersand {rest : Text} : reference? ('&' :: rest) = none → Step ('&' :: rest) ['&'] rest

theorem readFrom_eq (skip : Nat) (s : Text) : readFrom skip s = toText (s.drop skip) := by
  induction skip generalizing s with
  | zero => rfl
  | succ skip ih =>
    cases s with
    | nil => rfl
    | cons c s => exact ih s

@[simp] theorem toText_nil : toText [] = [] := rfl

theorem Step.toText_eq {s shown rest : Text} (h : Step s shown rest) :
    toText s = shown ++ toText rest := by
  cases h with
  | @char c _ hlt hamp =>
    rw [toText, readFrom.eq_def]
    split <;> simp_all [toText]
  | @tag content _ hm =>
    have ht := takeWhile_ne_append hm rest
    have hl : content.length < (content ++ '>' :: rest).length := by
      simp only [List.length_append, List.length_cons]
      omega
    have hd : (content ++ '>' :: rest).drop (content.length + 1) = rest := by simp
    rw [List.cons_append, toText, readFrom]
    simp only [ht]
    rw [if_pos hl, readFrom_eq, hd]
  | @reference tail _ c hr =>
    rw [toText, readFrom, hr]
    simp only [Nat.add_sub_cancel]
    rw [readFrom_eq, List.drop_left]
    rfl
  | ampersand hr =>
    rw [toText, readFrom, hr]
    rfl

theorem Reference.step {r : Text} {c : Char} (h : Reference SignedNumeral r c) (rest : Text) :
    Step (r ++ rest) [c] rest := by
  have hl : reference? (r ++ rest) = some (c, r.length) := by
    obtain ⟨hn, hle⟩ := h
    exact reference?_eq_some_iff.2 ⟨_, .mk hn hle, List.prefix_append _ rest, rfl⟩
  obtain ⟨-, -⟩ := h
  exact .reference hl

/-- At an `&`, a reference is decoded if one stands there, and the `&` is kept otherwise. -/
theorem step_ampersand_iff {rest shown after : Text} :
    Step ('&' :: rest) shown after ↔
      (∃ r c, Reference SignedNumeral r c ∧ '&' :: rest = r ++ after ∧ shown = [c]) ∨
        (∀ r c, Reference SignedNumeral r c → ¬ r <+: '&' :: rest) ∧
          shown = ['&'] ∧ after = rest := by
  constructor
  · intro h
    cases h with
    | char _ hamp => exact absurd rfl hamp
    | @reference tail _ c hr =>
      obtain ⟨r, hc, hp, hl⟩ := reference?_eq_some_iff.1 hr
      obtain ⟨t, ht⟩ := hp
      have he : r ++ t = ('&' :: tail) ++ after := ht
      obtain ⟨rfl, -⟩ := List.append_inj he hl
      exact .inl ⟨_, c, hc, rfl, rfl⟩
    | ampersand hr => exact .inr ⟨reference?_eq_none_iff.1 hr, rfl, rfl⟩
  · rintro (⟨r, c, hr, he, rfl⟩ | ⟨hnone, rfl, rfl⟩)
    · rw [he]
      exact hr.step after
    · exact .ampersand (reference?_eq_none_iff.2 hnone)

/-- Reading gets from some markup to a rest of it, outside of tags, and shows a text on the way. -/
inductive Reaches : Text → Text → Text → Prop
  | refl (s : Text) : Reaches s [] s
  | step {s t u shown more : Text} : Step s shown t → Reaches t more u → Reaches s (shown ++ more) u

/-- Nothing is left, or a tag that is not closed. -/
def Ends (s : Text) : Prop := s = [] ∨ ∃ content, s = '<' :: content ∧ '>' ∉ content

namespace Reaches

theorem of_step {s shown t : Text} (h : Step s shown t) : Reaches s shown t := by
  have hs := Reaches.step h (.refl t)
  rwa [List.append_nil] at hs

theorem trans {s t u shown more : Text} (hs : Reaches s shown t) (ht : Reaches t more u) :
    Reaches s (shown ++ more) u := by
  induction hs with
  | refl s => exact ht
  | step hstep _ ih =>
    rw [List.append_assoc]
    exact .step hstep (ih ht)

theorem toText_eq {s shown rest : Text} (h : Reaches s shown rest) :
    toText s = shown ++ toText rest := by
  induction h with
  | refl s => rfl
  | step hstep _ ih => rw [hstep.toText_eq, ih, List.append_assoc]

end Reaches

theorem toText_of_ends {s : Text} (h : Ends s) : toText s = s := by
  obtain rfl | ⟨content, rfl, hm⟩ := h
  · rfl
  · have ht : content.takeWhile (· != '>') = content :=
      List.takeWhile_eq_self_iff.2 fun c hc => bne_iff_ne.2 fun he => hm (he ▸ hc)
    rw [toText, readFrom]
    simp only [ht, Nat.lt_irrefl, if_false]

theorem Step.length_lt {s shown rest : Text} (h : Step s shown rest) : rest.length < s.length := by
  cases h with
  | char => exact Nat.lt_succ_self _
  | tag =>
    simp only [List.length_append, List.length_cons]
    omega
  | reference =>
    simp only [List.length_append, List.length_cons]
    omega
  | ampersand => exact Nat.lt_succ_self _

/-- Where reading does not end, a step can be made. -/
theorem ends_or_step (s : Text) : Ends s ∨ ∃ shown rest, Step s shown rest := by
  cases s with
  | nil => exact .inl (.inl rfl)
  | cons c s =>
    by_cases hlt : c = '<'
    · subst hlt
      by_cases hm : '>' ∈ s
      · obtain ⟨content, rest, rfl, hn⟩ := List.eq_append_cons_of_mem hm
        exact .inr ⟨_, rest, .tag hn⟩
      · exact .inl (.inr ⟨s, rfl, hm⟩)
    by_cases hamp : c = '&'
    · subst hamp
      by_cases hr : ∀ r c, Reference SignedNumeral r c → ¬ r <+: '&' :: s
      · exact .inr ⟨_, _, step_ampersand_iff.2 (.inr ⟨hr, rfl, rfl⟩)⟩
      · push Not at hr
        obtain ⟨r, c, hr, rest, he⟩ := hr
        exact .inr ⟨_, rest, step_ampersand_iff.2 (.inl ⟨r, c, hr, he.symm, rfl⟩)⟩
    · exact .inr ⟨_, s, .char hlt hamp⟩

/-- Reading always gets to its end. -/
theorem exists_reaches_ends (s : Text) : ∃ shown rest, Reaches s shown rest ∧ Ends rest := by
  induction hn : s.length using Nat.strong_induction_on generalizing s with
  | h n ih =>
    obtain hs | ⟨shown, rest, hs⟩ := ends_or_step s
    · exact ⟨[], s, .refl s, hs⟩
    · obtain ⟨more, last, hr, he⟩ := ih rest.length (hn ▸ hs.length_lt) rest rfl
      exact ⟨_, last, .step hs hr, he⟩

/-- At every `&` that reading gets to, a reference is decoded if one stands there, and reading goes on
behind it; otherwise the `&` is kept, and reading goes on with the next character. The number of such
a reference may have a plus sign. Reading stops nowhere before its end. -/
theorem reading_decodes_references (markup : Text) :
    (∃ shown rest, Reaches markup shown rest ∧ Ends rest ∧ toText markup = shown ++ rest) ∧
    ∀ shown rest, Reaches markup shown ('&' :: rest) → ∀ next after,
      (Step ('&' :: rest) next after ↔
        (∃ r c, Reference SignedNumeral r c ∧ '&' :: rest = r ++ after ∧ next = [c]) ∨
          (∀ r c, Reference SignedNumeral r c → ¬ r <+: '&' :: rest) ∧
            next = ['&'] ∧ after = rest) ∧
      (Step ('&' :: rest) next after → toText markup = shown ++ next ++ toText after) := by
  obtain ⟨shown, rest, hr, he⟩ := exists_reaches_ends markup
  have htext : toText markup = shown ++ rest := by rw [hr.toText_eq, toText_of_ends he]
  refine ⟨⟨shown, rest, hr, he, htext⟩, fun shown rest h next after => ⟨step_ampersand_iff, fun hs => ?_⟩⟩
  exact (h.trans (.of_step hs)).toText_eq

/-- A reference behind a tag is decoded, and one that is not closed is kept. -/
theorem reading_decodes_references_behind_tag :
    let markup := "<i>a&#X42;&lt".toList
    Reaches markup ['a'] "&#X42;&lt".toList ∧
      Step "&#X42;&lt".toList ['B'] "&lt".toList ∧ toText markup = "aB&lt".toList := by
  have htag : Step "<i>a&#X42;&lt".toList [] "a&#X42;&lt".toList :=
    @Step.tag ['i'] _ (by decide)
  have hchar : Step "a&#X42;&lt".toList ['a'] "&#X42;&lt".toList := .char (by decide) (by decide)
  have h : Reaches "<i>a&#X42;&lt".toList ['a'] "&#X42;&lt".toList :=
    .step htag (.of_step hchar)
  have hnumber : Text.Numeral 16 "42".toList 'B'.toNat :=
    (Text.ofDigits?_eq_some_iff (by decide) (by decide)).1 (by decide)
  obtain ⟨hiff, htext⟩ :=
    (reading_decodes_references _).2 ['a'] "#X42;&lt".toList h ['B'] "&lt".toList
  have hs := hiff.2 (.inl ⟨_, 'B', .mk (.hexadecimal (.inr rfl) (.inl hnumber)) (by decide), rfl, rfl⟩)
  exact ⟨h, hs, htext hs⟩

/-- A numeral holds no plus sign, so no reference with a numeral has one behind its `#`. -/
theorem not_prefix_plus {r : Text} {c : Char} (h : Reference Numeral r c) (s : Text) :
    ¬ r <+: '&' :: '#' :: '+' :: s := by
  intro hp
  obtain ⟨hn, -⟩ := h
  have hp := (List.cons_prefix_cons.1 hp).2
  cases hn with
  | lt | gt | amp | quot | apos | nbsp => exact absurd (List.cons_prefix_cons.1 hp).1 (by decide)
  | @decimal digits _ hd =>
    obtain ⟨d, ds, rfl⟩ := List.exists_cons_of_ne_nil hd.ne_nil
    obtain rfl := (List.cons_prefix_cons.1 (List.cons_prefix_cons.1 hp).2).1
    exact hd.not_mem (by decide) List.mem_cons_self
  | hexadecimal hx =>
    obtain rfl := (List.cons_prefix_cons.1 (List.cons_prefix_cons.1 hp).2).1
    exact absurd hx (by decide)

/-- A number behind a plus sign is decoded, though no reference with a numeral stands there. -/
theorem reading_decodes_number_behind_plus :
    let markup := "&#+65;".toList
    (∀ r c, Reference Numeral r c → ¬ r <+: markup) ∧ Step markup ['A'] [] ∧
      toText markup = ['A'] := by
  have hs : Step "&#+65;".toList ['A'] [] := @Step.reference "#+65;".toList [] 'A' (by decide)
  exact ⟨fun r c h => not_prefix_plus h "65;".toList, hs, hs.toText_eq⟩

/-- An escaped character is read as that character. -/
theorem step_escapeChar (c : Char) (rest : Text) : Step (escapeChar c ++ rest) [c] rest := by
  by_cases h₁ : c = '<'
  · subst h₁
    exact (Reference.mk .lt (by decide)).step rest
  by_cases h₂ : c = '>'
  · subst h₂
    exact (Reference.mk .gt (by decide)).step rest
  by_cases h₃ : c = '&'
  · subst h₃
    exact (Reference.mk .amp (by decide)).step rest
  by_cases h₄ : c = '"'
  · subst h₄
    exact (Reference.mk .quot (by decide)).step rest
  have he : escapeChar c = [c] := by
    rw [escapeChar.eq_def]
    split <;> simp_all
  rw [he]
  exact .char h₁ h₃

theorem reaches_escape (s rest : Text) : Reaches (escape s ++ rest) s rest := by
  induction s with
  | nil => exact .refl rest
  | cons c s ih =>
    have hs : escape (c :: s) = escapeChar c ++ escape s := rfl
    rw [hs, List.append_assoc]
    exact .step (step_escapeChar c _) ih

/-- Whatever markup stands behind it, escaped text is read back unchanged: reading shows the text and
gets to the beginning of the markup, none of which was read. -/
theorem escaped_text_comes_back_before_markup (s markup : Text) :
    Reaches (escape s ++ markup) s markup ∧ toText (escape s ++ markup) = s ++ toText markup :=
  ⟨reaches_escape s markup, (reaches_escape s markup).toText_eq⟩

end Implementors.Markup
