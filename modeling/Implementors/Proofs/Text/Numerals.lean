import Implementors.Proofs.Text.Spelled
import Implementors.Text.Digits
import Mathlib

/-!
# Numerals

One or more digits of a base stand for a number, the most significant digit first. Every numeral is
read as its number, and no other text that is not empty is read as a number.
-/
namespace Implementors.Text

open Literal (HexDigit)

/-- The texts of one or more digits that are smaller than the base, with their numbers. The digits
above nine are letters of either case. -/
inductive Numeral (base : Nat) : Text → Nat → Prop
  | digit {d : Char} {value : Nat} : HexDigit d value → value < base → Numeral base [d] value
  | concat {digits : Text} {n : Nat} {d : Char} {value : Nat} : Numeral base digits n →
      HexDigit d value → value < base → Numeral base (digits ++ [d]) (n * base + value)

/-- A digit has the same value in every base that has it. -/
theorem digitValue?_eq_some_iff_of_le {base value : Nat} (hb : base ≤ 16) {d : Char} :
    digitValue? base d = some value ↔ digitValue? 16 d = some value ∧ value < base := by
  unfold digitValue?
  split_ifs <;> simp <;> omega

theorem toNat_lt_of_digitValue? {base value : Nat} {d : Char} (h : digitValue? base d = some value) :
    d.toNat < 128 := by
  by_contra hn
  have hrange : ∀ e : Char, e.toNat < 128 → ¬ d ≤ e := fun e he hle => hn (Nat.lt_of_le_of_lt hle he)
  simp [digitValue?, hrange '9' (by decide), hrange 'f' (by decide), hrange 'F' (by decide)] at h

theorem digitValue?_sixteen_eq_some_iff {value : Nat} {d : Char} :
    digitValue? 16 d = some value ↔ HexDigit d value := by
  constructor
  · intro h
    have key : ∀ n < 128, ∀ v ∈ digitValue? 16 (Char.ofNat n), HexDigit (Char.ofNat n) v := by
      decide
    have hd := key d.toNat (toNat_lt_of_digitValue? h)
    rw [Char.ofNat_toNat] at hd
    exact hd value h
  · exact Literal.digitValue?_of_hexDigit

theorem digitValue?_eq_some_iff {base value : Nat} (hb : base ≤ 16) {d : Char} :
    digitValue? base d = some value ↔ HexDigit d value ∧ value < base := by
  rw [digitValue?_eq_some_iff_of_le hb, digitValue?_sixteen_eq_some_iff]

theorem digitsFrom?_append (base value : Nat) (s t : Text) :
    digitsFrom? base value (s ++ t) =
      (digitsFrom? base value s).bind fun n => digitsFrom? base n t := by
  induction s generalizing value with
  | nil => rfl
  | cons c s ih =>
    simp only [List.cons_append, digitsFrom?, ih, Option.bind_eq_bind, Option.bind_assoc]

/-- A last digit multiplies what was read by the base. -/
theorem ofDigits?_concat_eq_some_iff {base n : Nat} {s : Text} {d : Char} :
    ofDigits? base (s ++ [d]) = some n ↔ ∃ m value, ofDigits? base s = some m ∧
      digitValue? base d = some value ∧ m * base + value = n := by
  have hone : ∀ m, digitsFrom? base m [d] = (digitValue? base d).map (m * base + ·) :=
    fun m => (Option.map_eq_bind).symm
  simp only [ofDigits?, digitsFrom?_append, hone, Option.bind_eq_some_iff, Option.map_eq_some_iff,
    exists_and_left]

theorem Numeral.ofDigits? {base n : Nat} (hb : base ≤ 16) {s : Text} (h : Numeral base s n) :
    Text.ofDigits? base s = some n := by
  induction h with
  | @digit d value hd hv =>
    have hone : Text.ofDigits? base ([] ++ [d]) = some (0 * base + value) :=
      ofDigits?_concat_eq_some_iff.2 ⟨0, value, rfl, (digitValue?_eq_some_iff hb).2 ⟨hd, hv⟩, rfl⟩
    rwa [List.nil_append, Nat.zero_mul, Nat.zero_add] at hone
  | @concat digits n d value _ hd hv ih =>
    exact ofDigits?_concat_eq_some_iff.2 ⟨n, value, ih, (digitValue?_eq_some_iff hb).2 ⟨hd, hv⟩, rfl⟩

/-- Of the texts that are not empty, just the numerals are read as numbers. -/
theorem ofDigits?_eq_some_iff {base n : Nat} (hb : base ≤ 16) {s : Text} (hs : s ≠ []) :
    ofDigits? base s = some n ↔ Numeral base s n := by
  refine ⟨fun h => ?_, fun h => h.ofDigits? hb⟩
  induction s using List.reverseRecOn generalizing n with
  | nil => exact absurd rfl hs
  | append_singleton s d ih =>
    obtain ⟨m, value, hm, hd, rfl⟩ := ofDigits?_concat_eq_some_iff.1 h
    obtain ⟨hdigit, hv⟩ := (digitValue?_eq_some_iff hb).1 hd
    by_cases he : s = []
    · subst he
      cases hm
      rw [Nat.zero_mul, Nat.zero_add]
      exact .digit hdigit hv
    · exact .concat (ih he hm) hdigit hv

theorem utf8Size_of_hexDigit {d : Char} {value : Nat} (h : HexDigit d value) : d.utf8Size = 1 := by
  have hlt := toNat_lt_of_digitValue? (digitValue?_sixteen_eq_some_iff.2 h)
  rw [Char.utf8Size_eq_one_iff, UInt32.le_iff_toNat_le]
  exact Nat.le_of_lt_succ hlt

namespace Numeral

variable {base n : Nat} {s : Text}

theorem ne_nil (h : Numeral base s n) : s ≠ [] := by
  cases h with
  | digit => exact List.cons_ne_nil _ _
  | concat => simp

theorem hexDigit_of_mem (h : Numeral base s n) {d : Char} (hm : d ∈ s) :
    ∃ value, HexDigit d value ∧ value < base := by
  induction h with
  | digit hd hv =>
    rw [List.mem_singleton.1 hm]
    exact ⟨_, hd, hv⟩
  | concat _ hd hv ih =>
    rcases List.mem_append.1 hm with hm | hm
    · exact ih hm
    · rw [List.mem_singleton.1 hm]
      exact ⟨_, hd, hv⟩

/-- A character that is no digit is in no numeral. -/
theorem not_mem (h : Numeral base s n) {c : Char} (hc : digitValue? 16 c = none) : c ∉ s := by
  intro hm
  obtain ⟨value, hd, -⟩ := h.hexDigit_of_mem hm
  rw [Literal.digitValue?_of_hexDigit hd] at hc
  cases hc

theorem utf8Size_of_mem (h : Numeral base s n) {d : Char} (hm : d ∈ s) : d.utf8Size = 1 := by
  obtain ⟨value, hd, -⟩ := h.hexDigit_of_mem hm
  exact utf8Size_of_hexDigit hd

end Numeral

end Implementors.Text
