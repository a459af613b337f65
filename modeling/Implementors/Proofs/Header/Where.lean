import Implementors.Proofs.Header
import Implementors.Proofs.Text.Cutting
import Mathlib

/-!
# Where the bounds of a header begin

The bounds begin at the word `where`, at the top level behind the type. The search stops at the first
` where` of the top level, be it that word or the beginning of a longer one. So the first keyword is
found just if no longer word that begins like it stands before it; otherwise nothing is, and the
whole text is the type.
-/
namespace Implementors.Header

/-- At this place of the top level stands ` where`, or a longer word that begins like it. -/
def WhereAt (s : Text) (n : Nat) : Prop :=
  " where".toList <+: s.drop n ∧ Nesting.depthOf (s.take n) = 0

/-- At this place of the top level stands ` where`, with a space or the end of the text behind it. -/
def KeywordAt (s : Text) (n : Nat) : Prop :=
  WhereAt s n ∧ (s[n + 6]? = none ∨ s[n + 6]? = some ' ')

instance (s : Text) (n : Nat) : Decidable (WhereAt s n) := inferInstanceAs (Decidable (_ ∧ _))

instance (s : Text) (n : Nat) : Decidable (KeywordAt s n) := inferInstanceAs (Decidable (_ ∧ _))

theorem whereAt_of_occurs {before after s : Text}
    (h : Nesting.topLevel.Occurs " where".toList Nesting.topLevel.start before after s) :
    WhereAt s before.length := by
  have hs : s = before ++ (" where".toList ++ after) := by
    rw [← h.text, List.append_assoc]
  constructor
  · rw [hs, List.drop_left]
    exact List.prefix_append _ after
  · rw [hs, List.take_left]
    exact beq_iff_eq.1 h.free

theorem occurs_of_whereAt {s : Text} {n : Nat} (h : WhereAt s n) :
    Nesting.topLevel.Occurs " where".toList Nesting.topLevel.start (s.take n) (s.drop (n + 6)) s := by
  obtain ⟨⟨after, ha⟩, hlevel⟩ := h
  have hdrop : s.drop (n + 6) = after := by
    rw [← List.drop_drop, ← ha]
    rfl
  refine ⟨?_, beq_iff_eq.2 hlevel⟩
  rw [hdrop, List.append_assoc, ha, List.take_append_drop]

theorem length_take_of_whereAt {s : Text} {n : Nat} (h : WhereAt s n) : (s.take n).length = n := by
  have hl := h.1.length_le
  rw [List.length_drop] at hl
  rw [List.length_take, Nat.min_eq_left]
  have hpos : " where".toList.length = 6 := rfl
  omega

/-- The text is cut at the first ` where` of the top level. -/
theorem cut?_where {s : Text} {n : Nat} (h : WhereAt s n) (hfirst : ∀ m < n, ¬ WhereAt s m) :
    Nesting.topLevel.cut? " where".toList s = some (s.take n, s.drop (n + 6)) := by
  refine (Text.Scanner.cutFrom?_eq_some_iff (by decide)).2 ⟨occurs_of_whereAt h, fun b a ho => ?_⟩
  rw [length_take_of_whereAt h]
  by_contra hlt
  exact hfirst b.length (Nat.lt_of_not_le hlt) (whereAt_of_occurs ho)

theorem cut?_where_eq_none {s : Text} (h : ∀ n, ¬ WhereAt s n) :
    Nesting.topLevel.cut? " where".toList s = none :=
  (Text.Scanner.cutFrom?_eq_none_iff (by decide)).2 fun b _ ho => h b.length (whereAt_of_occurs ho)

/-- A text is not split, or at the place where it is cut. -/
theorem splitWhere_cases (s : Text) : splitWhere s = (s, []) ∨
    ∃ before after, Nesting.topLevel.cut? " where".toList s = some (before, after) ∧
      splitWhere s = (before, after.drop 1) := by
  rw [splitWhere]
  split
  · next before hc => exact .inr ⟨before, [], hc, rfl⟩
  · next before after hc => exact .inr ⟨before, ' ' :: after, hc, rfl⟩
  · exact .inl rfl

theorem splitWhere_of_keywordAt {s : Text} {n : Nat} (h : KeywordAt s n)
    (hfirst : ∀ m < n, ¬ WhereAt s m) : splitWhere s = (s.take n, s.drop (n + 7)) := by
  have hc := cut?_where h.1 hfirst
  have hspace := h.2
  rw [← List.head?_drop] at hspace
  rw [show n + 7 = n + 6 + 1 from rfl, ← List.drop_drop]
  cases hd : s.drop (n + 6) with
  | nil =>
    rw [hd] at hc
    rw [splitWhere, hc]
    rfl
  | cons c after =>
    rw [hd] at hc hspace
    obtain rfl : c = ' ' := by simpa using hspace
    rw [splitWhere, hc]
    rfl

theorem splitWhere_of_not_keywordAt {s : Text} {n : Nat} (h : WhereAt s n) (hk : ¬ KeywordAt s n)
    (hfirst : ∀ m < n, ¬ WhereAt s m) : splitWhere s = (s, []) := by
  have hc := cut?_where h hfirst
  have hword : ¬ (s[n + 6]? = none ∨ s[n + 6]? = some ' ') := fun hw => hk ⟨h, hw⟩
  rw [← List.head?_drop] at hword
  cases hd : s.drop (n + 6) with
  | nil =>
    rw [hd] at hword
    exact absurd (.inl rfl) hword
  | cons c after =>
    rw [hd] at hc hword
    have hne : c ≠ ' ' := by simpa using hword
    rw [splitWhere, hc]
    simp [hne]

/-- The first keyword is found just if no longer word that begins like it stands at the top level
before it; then the text is split there. If it is not found, or there is none, nothing is split. -/
theorem splitWhere_keywordAt_iff (s : Text) :
    (∀ n, KeywordAt s n → (∀ m < n, ¬ KeywordAt s m) →
      (splitWhere s = (s.take n, s.drop (n + 7)) ↔ ∀ m < n, ¬ WhereAt s m)) ∧
    ((∀ n, KeywordAt s n → ∃ m < n, WhereAt s m) → splitWhere s = (s, [])) := by
  have hmissed : (∀ n, KeywordAt s n → ∃ m < n, WhereAt s m) → splitWhere s = (s, []) := by
    intro h
    by_cases hex : ∃ n, WhereAt s n
    · -- The first ` where` is no keyword, since none stands before it.
      have hfirst : ∀ m < Nat.find hex, ¬ WhereAt s m := fun m hm => Nat.find_min hex hm
      refine splitWhere_of_not_keywordAt (Nat.find_spec hex) (fun hk => ?_) hfirst
      obtain ⟨m, hm, hw⟩ := h _ hk
      exact hfirst m hm hw
    · have hnone := cut?_where_eq_none fun n hw => hex ⟨n, hw⟩
      rw [splitWhere, hnone]
  refine ⟨fun n hk hleast => ⟨fun hs m hm hw => ?_, fun hf => splitWhere_of_keywordAt hk hf⟩, hmissed⟩
  have hall : ∀ k, KeywordAt s k → ∃ m < k, WhereAt s m := by
    intro k hkk
    have hle : n ≤ k := by
      by_contra hlt
      exact hleast k (Nat.lt_of_not_le hlt) hkk
    exact ⟨m, Nat.lt_of_lt_of_le hm hle, hw⟩
  have hl := congrArg (fun r : Text × Text => r.1.length) (hs.symm.trans (hmissed hall))
  have hpos := hk.1.1.length_le
  simp only [length_take_of_whereAt hk.1] at hl
  rw [List.length_drop, ← hl, Nat.sub_self] at hpos
  exact absurd hpos (by decide)

/-- The ` where` between brackets is not looked at, and a text without the word is not split. -/
theorem splitWhere_keywordAt_iff_nested :
    (let s := "Fn(u8 wherein) where T: Copy".toList
    KeywordAt s 14 ∧ (∀ m < 14, ¬ KeywordAt s m) ∧ (∀ m < 14, ¬ WhereAt s m) ∧
      splitWhere s = ("Fn(u8 wherein)".toList, "T: Copy".toList)) ∧
    (let s := "Somewhere whereabouts".toList
    (∀ n, KeywordAt s n → ∃ m < n, WhereAt s m) ∧ splitWhere s = (s, [])) := by
  have hk : KeywordAt "Fn(u8 wherein) where T: Copy".toList 14 := by decide
  have hleast : ∀ m < 14, ¬ KeywordAt "Fn(u8 wherein) where T: Copy".toList m := by decide
  have hfirst : ∀ m < 14, ¬ WhereAt "Fn(u8 wherein) where T: Copy".toList m := by decide
  have hlong : ∀ n, KeywordAt "Somewhere whereabouts".toList n →
      ∃ m < n, WhereAt "Somewhere whereabouts".toList m := by
    intro n hn
    have hsmall : ∀ n ≤ 9, ¬ KeywordAt "Somewhere whereabouts".toList n := by decide
    exact ⟨9, Nat.lt_of_not_le fun hle => hsmall n hle hn, by decide⟩
  exact ⟨⟨hk, hleast, hfirst, ((splitWhere_keywordAt_iff _).1 14 hk hleast).2 hfirst⟩,
    hlong, (splitWhere_keywordAt_iff _).2 hlong⟩

/-- A path that begins like the keyword hides the where clause behind it: the clause is taken for a
part of the type. -/
theorem splitWhere_misses_keyword :
    let s := "&mut wherever::Foo<T> where T: Copy".toList
    KeywordAt s 21 ∧ (∀ m < 21, ¬ KeywordAt s m) ∧
      splitWhere s ≠ (s.take 21, s.drop 28) ∧ splitWhere s = (s, []) ∧
      ofText ("impl Read for ".toList ++ s) = ofNames s "Read".toList := by
  decide

end Implementors.Header
