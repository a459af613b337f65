import Implementors.Header
import Mathlib

/-!
# What reading a header gives

A text that splits into a header has a trait and a type, and one that does not is free text,
unchanged. So reading gives free text just if the text does not split.
-/
namespace Implementors.Header

theorem not_isVerbatim {h : Header} (ht : h.traitName ≠ []) : ¬ h.isVerbatim = true :=
  fun he => ht (List.isEmpty_iff.1 he)

/-- A text splits into a header just if each cut is possible and leaves a trait and a type. -/
theorem split?_eq_some_iff {s : Text} {h : Header} :
    split? s = some h ↔ ∃ rest generics rest' traitName after,
      Text.afterStart? "impl".toList s = some rest ∧
        splitGenerics? rest = some (generics, rest') ∧
        Nesting.topLevel.cut? " for ".toList (Text.trimStart rest') = some (traitName, after) ∧
        Text.trim traitName ≠ [] ∧ Text.trim (splitWhere after).1 ≠ [] ∧
        h = {
          generics := Text.trim generics
          typeName := Text.trim (splitWhere after).1
          traitName := Text.trim traitName
          bounds := ", ".toList.intercalate (Nesting.commaList (splitWhere after).2) } := by
  constructor
  · intro hs
    simp only [split?, Option.bind_eq_bind, Option.bind_eq_some_iff] at hs
    obtain ⟨rest, hrest, ⟨generics, rest'⟩, hg, ⟨traitName, after⟩, hc, hs⟩ := hs
    split at hs
    · cases hs
    · next hne =>
      rw [Bool.or_eq_true, List.isEmpty_iff, List.isEmpty_iff, not_or] at hne
      cases hs
      exact ⟨rest, generics, rest', traitName, after, hrest, hg, hc, hne.1, hne.2, rfl⟩
  · rintro ⟨rest, generics, rest', traitName, after, hrest, hg, hc, ht, hn, rfl⟩
    simp only [split?, hrest, hg, hc, Option.bind_eq_bind, Option.bind_some]
    rw [if_neg]
    · rfl
    · rw [Bool.or_eq_true, List.isEmpty_iff, List.isEmpty_iff, not_or]
      exact ⟨ht, hn⟩

theorem traitName_ne_nil_of_split? {s : Text} {h : Header} (hs : split? s = some h) :
    h.traitName ≠ [] := by
  obtain ⟨_, _, _, _, _, _, _, _, ht, _, rfl⟩ := split?_eq_some_iff.1 hs
  exact ht

theorem isVerbatim_ofText_iff {s : Text} :
    (ofText s).isVerbatim = true ↔ ofText s = verbatim s := by
  cases hs : split? (Text.squash s) with
  | none => simp [ofText, hs]
  | some h =>
    have ht := traitName_ne_nil_of_split? hs
    have hv : ofText s = h := by rw [ofText, hs, Option.getD_some]
    rw [hv, isVerbatim, List.isEmpty_iff]
    constructor
    · exact fun he => absurd he ht
    · rintro rfl
      exact absurd rfl ht

end Implementors.Header
