import Implementors.Markup.Reader
import Implementors.Proofs.Text.Numerals
import Mathlib

/-!
# Character references

A reference is written `&name;`, where the name is a word or `#` and a number. The reader looks for its
end in the first twelve bytes, and in the whole text if these are not whole characters. A reference has
only characters of one byte, so either way it is found just if it is there and no longer than that.

A number may have a plus sign before its digits, so the reader takes more for references than those
whose numbers are numerals.
-/
namespace Implementors

namespace Text

/-- The number of bytes of a text in UTF-8. -/
def byteCount (s : Text) : Nat := (s.map Char.utf8Size).sum

/-- A numeral, with or without a plus sign before it. -/
def SignedNumeral (base : Nat) (s : Text) (n : Nat) : Prop :=
  Numeral base s n ∨ ∃ digits, s = '+' :: digits ∧ Numeral base digits n

@[simp] theorem byteCount_nil : byteCount [] = 0 := rfl

@[simp] theorem byteCount_cons (c : Char) (s : Text) :
    byteCount (c :: s) = c.utf8Size + byteCount s := rfl

theorem byteCount_eq_zero_iff {s : Text} : byteCount s = 0 ↔ s = [] := by
  cases s with
  | nil => exact iff_of_true rfl rfl
  | cons c s =>
    have hc := c.utf8Size_pos
    rw [byteCount_cons]
    exact iff_of_false (by omega) (List.cons_ne_nil c s)

theorem byteCount_append (s t : Text) : byteCount (s ++ t) = byteCount s + byteCount t := by
  rw [byteCount, List.map_append, List.sum_append, byteCount, byteCount]

theorem byteCount_eq_length {s : Text} (h : ∀ c ∈ s, c.utf8Size = 1) : byteCount s = s.length := by
  rw [byteCount, List.map_eq_replicate_iff.2 h, List.sum_replicate, smul_eq_mul, Nat.mul_one]

theorem byteCount_le_of_prefix {s t : Text} (h : s <+: t) : byteCount s ≤ byteCount t := by
  obtain ⟨u, rfl⟩ := h
  rw [byteCount_append]
  exact Nat.le_add_right _ _

end Text

namespace Markup

open Text (byteCount Numeral SignedNumeral)

/-- What stands between the `&` and the `;` of a reference to a character, if numbers are written in
the given way. The number of a character is its code point. -/
inductive Names (number : Nat → Text → Nat → Prop) : Text → Char → Prop
  | lt : Names number "lt".toList '<'
  | gt : Names number "gt".toList '>'
  | amp : Names number "amp".toList '&'
  | quot : Names number "quot".toList '"'
  | apos : Names number "apos".toList '\''
  | nbsp : Names number "nbsp".toList ' '
  | decimal {digits : Text} {c : Char} : number 10 digits c.toNat → Names number ('#' :: digits) c
  | hexadecimal {x : Char} {digits : Text} {c : Char} : x = 'x' ∨ x = 'X' →
      number 16 digits c.toNat → Names number ('#' :: x :: digits) c

/-- The references of at most twelve bytes, with their characters. -/
inductive Reference (number : Nat → Text → Nat → Prop) : Text → Char → Prop
  | mk {name : Text} {c : Char} : Names number name c →
      byteCount ('&' :: name ++ [';']) ≤ 12 → Reference number ('&' :: name ++ [';']) c

theorem number?_eq_some_iff {base n : Nat} (hb : base ≤ 16) {s : Text} :
    number? base s = some n ↔ SignedNumeral base s n := by
  have hread : ∀ {c rest}, Text.ofDigits? base (c :: rest) = some n ↔ Numeral base (c :: rest) n :=
    Text.ofDigits?_eq_some_iff hb (List.cons_ne_nil _ _)
  have hnil : ¬ Numeral base [] n := fun h => h.ne_nil rfl
  have hplus : ∀ digits, ¬ Numeral base ('+' :: digits) n :=
    fun digits h => h.not_mem (by decide) List.mem_cons_self
  rw [SignedNumeral]
  unfold number?
  split
  · simp [hread, hplus]
  · next c rest hc =>
    rw [hread]
    refine ⟨.inl, ?_⟩
    rintro (h | ⟨digits, he, hd⟩)
    · exact h
    · cases digits with
      | nil => exact absurd hd hnil
      | cons d ds =>
        cases he
        exact (hc d ds rfl rfl).elim
  · simp [hnil]

theorem ofCodePoint?_eq_some_iff {n : Nat} {c : Char} :
    Text.ofCodePoint? n = some c ↔ n = c.toNat := by
  rw [Text.ofCodePoint?]
  constructor
  · intro h
    split at h
    · next hv =>
      cases h
      exact (Char.toNat_ofNat n ▸ if_pos hv).symm
    · cases h
  · rintro rfl
    have hv : c.toNat.isValidChar := c.valid
    rw [if_pos hv, Char.ofNat_toNat]

/-- A number is read as the character that has it. -/
theorem number?_bind_eq_some_iff {base : Nat} (hb : base ≤ 16) {s : Text} {c : Char} :
    number? base s >>= Text.ofCodePoint? = some c ↔ SignedNumeral base s c.toNat := by
  simp only [Option.bind_eq_bind, Option.bind_eq_some_iff, ofCodePoint?_eq_some_iff,
    number?_eq_some_iff hb, exists_eq_right]

theorem not_signedNumeral_cons {base n : Nat} {c : Char} {s : Text} (hc : Text.digitValue? 16 c = none)
    (hp : c ≠ '+') : ¬ SignedNumeral base (c :: s) n := by
  rintro (h | ⟨digits, he, -⟩)
  · exact h.not_mem hc List.mem_cons_self
  · exact hp (List.cons.inj he).1

theorem charOfName?_eq_some_iff {name : Text} {c : Char} :
    charOfName? name = some c ↔ Names SignedNumeral name c := by
  constructor
  · intro h
    rw [charOfName?.eq_def] at h
    split at h
    · next hl =>
      cases h
      obtain ⟨_, _, he, -⟩ := List.lookup_eq_some_iff.1 hl
      have hm : (name, c) ∈ namedChars := he ▸ List.mem_append_right _ List.mem_cons_self
      simp only [namedChars, List.mem_cons, Prod.mk.injEq, List.not_mem_nil, or_false] at hm
      obtain ⟨rfl, rfl⟩ | ⟨rfl, rfl⟩ | ⟨rfl, rfl⟩ | ⟨rfl, rfl⟩ | ⟨rfl, rfl⟩ | ⟨rfl, rfl⟩ := hm
      · exact .lt
      · exact .gt
      · exact .amp
      · exact .quot
      · exact .apos
      · exact .nbsp
    · split at h
      · exact .hexadecimal (.inl rfl) ((number?_bind_eq_some_iff (by decide)).1 h)
      · exact .hexadecimal (.inr rfl) ((number?_bind_eq_some_iff (by decide)).1 h)
      · exact .decimal ((number?_bind_eq_some_iff (by decide)).1 h)
      · cases h
  · intro h
    cases h with
    | lt | gt | amp | quot | apos | nbsp => rfl
    | @decimal digits _ hn =>
      have hx : ∀ x hex, x = 'x' ∨ x = 'X' → digits ≠ x :: hex := by
        rintro x hex (rfl | rfl) rfl <;> exact not_signedNumeral_cons (by decide) (by decide) hn
      rw [charOfName?.eq_def, show namedChars.lookup ('#' :: digits) = none from rfl]
      simp only
      split
      · next hd => exact absurd (List.cons.inj hd).2 (hx _ _ (.inl rfl))
      · next hd => exact absurd (List.cons.inj hd).2 (hx _ _ (.inr rfl))
      · next hd =>
        obtain rfl := (List.cons.inj hd).2
        exact (number?_bind_eq_some_iff (by decide)).2 hn
      · next hd => exact absurd rfl (hd digits)
    | hexadecimal hx hn =>
      obtain rfl | rfl := hx <;> exact (number?_bind_eq_some_iff (by decide)).2 hn

/-- Names have only characters of one byte, and none that ends a reference. -/
theorem Names.plain {name : Text} {c : Char} (h : Names SignedNumeral name c) :
    (∀ d ∈ name, d.utf8Size = 1) ∧ ';' ∉ name := by
  have hnumber : ∀ {base n s}, SignedNumeral base s n → (∀ d ∈ s, d.utf8Size = 1) ∧ ';' ∉ s := by
    rintro base n s (h | ⟨digits, rfl, h⟩)
    · exact ⟨fun _ => h.utf8Size_of_mem, h.not_mem (by decide)⟩
    · have hm : ';' ∉ digits := h.not_mem (by decide)
      exact ⟨List.forall_mem_cons.2 ⟨by decide, fun _ => h.utf8Size_of_mem⟩, by simp [hm]⟩
  cases h with
  | lt | gt | amp | quot | apos | nbsp => exact ⟨by simp; decide, by decide⟩
  | decimal hn =>
    obtain ⟨hs, hm⟩ := hnumber hn
    exact ⟨List.forall_mem_cons.2 ⟨by decide, hs⟩, by simp [hm]⟩
  | @hexadecimal x digits _ hx hn =>
    obtain ⟨hs, hm⟩ := hnumber hn
    have hxs : x.utf8Size = 1 ∧ ';' ≠ x := by obtain rfl | rfl := hx <;> decide
    exact ⟨List.forall_mem_cons.2 ⟨by decide, List.forall_mem_cons.2 ⟨hxs.1, hs⟩⟩, by simp [hm, hxs.2]⟩

theorem Names.utf8Size_of_mem {name : Text} {c : Char} (h : Names SignedNumeral name c) :
    ∀ d ∈ '&' :: name ++ [';'], d.utf8Size = 1 :=
  List.forall_mem_append.2 ⟨List.forall_mem_cons.2 ⟨rfl, h.plain.1⟩, List.forall_mem_singleton.2 rfl⟩

/-- What the first bytes of a text are, if they are whole characters. -/
theorem takeBytes?_eq_some_iff {n : Nat} {s w : Text} :
    takeBytes? n s = some w ↔ w <+: s ∧ byteCount w = n := by
  fun_induction takeBytes? n s generalizing w with
  | case1 s =>
    rw [Text.byteCount_eq_zero_iff, Option.some.injEq, eq_comm]
    exact ⟨fun h => ⟨h ▸ List.nil_prefix, h⟩, And.right⟩
  | case2 n =>
    simp only [reduceCtorEq, List.prefix_nil, false_iff]
    rintro ⟨rfl, hb⟩
    cases hb
  | case3 n c s hc ih =>
    simp only [Option.map_eq_some_iff, ih, List.prefix_cons_iff]
    constructor
    · rintro ⟨t, ⟨ht, hb⟩, rfl⟩
      refine ⟨.inr ⟨t, rfl, ht⟩, ?_⟩
      rw [Text.byteCount_cons, hb]
      omega
    · rintro ⟨rfl | ⟨t, rfl, ht⟩, hb⟩
      · cases hb
      · rw [Text.byteCount_cons] at hb
        exact ⟨t, ⟨ht, by omega⟩, rfl⟩
  | case4 n c s hc =>
    simp only [reduceCtorEq, List.prefix_cons_iff, false_iff]
    rintro ⟨rfl | ⟨t, rfl, ht⟩, hb⟩
    · cases hb
    · rw [Text.byteCount_cons] at hb
      omega

/-- A beginning of characters of one byte is in the window just if it is no longer than that. -/
theorem prefix_window_iff {n : Nat} {r s : Text} (hr : ∀ c ∈ r, c.utf8Size = 1) :
    r <+: (takeBytes? n s).getD s ↔ r <+: s ∧ byteCount r ≤ n := by
  have hlength : ∀ {t : Text}, t <+: r → byteCount t = t.length := fun ht =>
    Text.byteCount_eq_length fun c hc => hr c (ht.subset hc)
  cases hw : takeBytes? n s with
  | some w =>
    obtain ⟨hws, rfl⟩ := takeBytes?_eq_some_iff.1 hw
    refine ⟨fun h => ⟨h.trans hws, Text.byteCount_le_of_prefix h⟩, fun ⟨hrs, hle⟩ => ?_⟩
    obtain h | h := List.prefix_or_prefix_of_prefix hrs hws
    · exact h
    · -- The window is not longer than what begins with it and has no more bytes.
      rw [hlength (List.prefix_refl r), hlength h] at hle
      exact (h.eq_of_length_le hle) ▸ List.prefix_refl r
  | none =>
    refine ⟨fun h => ⟨h, ?_⟩, And.left⟩
    by_contra hlt
    have htake : byteCount (r.take n) = n := by
      rw [hlength (List.take_prefix n r), List.length_take]
      rw [hlength (List.prefix_refl r)] at hlt
      omega
    have hs : takeBytes? n s = some (r.take n) :=
      takeBytes?_eq_some_iff.2 ⟨(List.take_prefix n r).trans h, htake⟩
    rw [hw] at hs
    cases hs

theorem takeWhile_ne_append {s : Text} {d : Char} (h : d ∉ s) (t : Text) :
    (s ++ d :: t).takeWhile (· != d) = s := by
  have hp : ∀ c ∈ s, (c != d) = true := fun c hc => bne_iff_ne.2 fun he => h (he ▸ hc)
  rw [List.takeWhile_append_of_pos hp, List.takeWhile_cons_of_neg (by simp), List.append_nil]

/-- What stands before the first occurrence of a character, if there is one. -/
theorem takeWhile_ne_eq_iff {s b : Text} {d : Char} :
    s.takeWhile (· != d) = b ∧ b.length < s.length ↔ d ∉ b ∧ b ++ [d] <+: s := by
  constructor
  · rintro ⟨rfl, hlt⟩
    refine ⟨fun hm => by simpa using List.mem_takeWhile_imp hm, ?_⟩
    have hsplit : s.takeWhile (· != d) ++ s.dropWhile (· != d) = s := List.takeWhile_append_dropWhile
    cases hd : s.dropWhile (· != d) with
    | nil =>
      rw [hd, List.append_nil] at hsplit
      rw [hsplit] at hlt
      exact absurd hlt (Nat.lt_irrefl _)
    | cons e t =>
      have he : e = d := by simpa [hd] using List.head?_dropWhile_not (· != d) s
      subst he
      exact ⟨t, by rw [List.append_assoc, List.singleton_append, ← hd, hsplit]⟩
  · rintro ⟨hm, t, rfl⟩
    rw [List.append_assoc, List.singleton_append]
    refine ⟨takeWhile_ne_append hm t, ?_⟩
    rw [List.length_append, List.length_cons]
    omega

theorem window_isPrefix (n : Nat) (s : Text) : (takeBytes? n s).getD s <+: s := by
  cases hw : takeBytes? n s with
  | some w => exact (takeBytes?_eq_some_iff.1 hw).1
  | none => exact List.prefix_refl s

/-- A reference is decoded just if the text begins with it. -/
theorem reference?_eq_some_iff {rest : Text} {c : Char} {n : Nat} :
    reference? ('&' :: rest) = some (c, n) ↔
      ∃ r, Reference SignedNumeral r c ∧ r <+: '&' :: rest ∧ r.length = n := by
  rw [reference?]
  constructor
  · intro h
    split at h
    · next hlt =>
      obtain ⟨c, hc, he⟩ := Option.map_eq_some_iff.1 h
      cases he
      obtain ⟨-, hp⟩ := takeWhile_ne_eq_iff.1 ⟨rfl, hlt⟩
      generalize ((takeBytes? 12 ('&' :: rest)).getD ('&' :: rest)).takeWhile (· != ';') = b at hc hp ⊢
      -- What stands before the `;` is not empty, since the text begins with another character.
      obtain ⟨name, rfl⟩ : ∃ name, b = '&' :: name := by
        have hb := hp.trans (window_isPrefix 12 _)
        cases b with
        | nil => cases (List.cons_prefix_cons.1 hb).1
        | cons d name => exact ⟨name, by rw [(List.cons_prefix_cons.1 hb).1]⟩
      have hn : Names SignedNumeral name c := charOfName?_eq_some_iff.1 hc
      obtain ⟨hr, hle⟩ := (prefix_window_iff hn.utf8Size_of_mem).1 hp
      exact ⟨_, .mk hn hle, hr, by simp⟩
    · cases h
  · rintro ⟨_, @⟨name, c, hn, hle⟩, hp, rfl⟩
    have hm : ';' ∉ '&' :: name := by simpa using hn.plain.2
    obtain ⟨ht, hlt⟩ :=
      takeWhile_ne_eq_iff.2 ⟨hm, (prefix_window_iff hn.utf8Size_of_mem).2 ⟨hp, hle⟩⟩
    have hc : charOfName? (('&' :: name).drop 1) = some c := charOfName?_eq_some_iff.2 hn
    simp only [ht, hc]
    rw [if_pos hlt]
    simp

theorem reference?_eq_none_iff {rest : Text} :
    reference? ('&' :: rest) = none ↔
      ∀ r c, Reference SignedNumeral r c → ¬ r <+: '&' :: rest := by
  rw [Option.eq_none_iff_forall_ne_some]
  constructor
  · exact fun h r c hr hp => h (c, r.length) (reference?_eq_some_iff.2 ⟨r, hr, hp, rfl⟩)
  · rintro h ⟨c, n⟩ hs
    obtain ⟨r, hr, hp, -⟩ := reference?_eq_some_iff.1 hs
    exact h r c hr hp

end Markup
end Implementors
