import Implementors.Proofs.Markup.References
import Mathlib

/-!
# How far a reference is looked for

Which reference a text begins with depends only on the whole characters in its first twelve bytes. If a
character lies across the end of these, the reader looks through the whole text. Even so, no `;` behind
that character ends a reference, since names have only characters of one byte.
-/
namespace Implementors.Markup

open Text (byteCount SignedNumeral)

/-- The longest beginning of a text with at most the given number of bytes. -/
def within : Nat → Text → Text
  | _, [] => []
  | n, c :: rest => if c.utf8Size ≤ n then c :: within (n - c.utf8Size) rest else []

/-- The beginnings that have no more bytes are the beginnings of the longest one. -/
theorem prefix_within_iff {n : Nat} {r s : Text} : r <+: within n s ↔ r <+: s ∧ byteCount r ≤ n := by
  fun_induction within n s generalizing r with
  | case1 n =>
    refine ⟨fun h => ⟨h, ?_⟩, And.left⟩
    rw [List.prefix_nil.1 h]
    exact Nat.zero_le n
  | case2 n c rest hc ih =>
    rw [List.prefix_cons_iff, List.prefix_cons_iff]
    constructor
    · rintro (rfl | ⟨t, rfl, ht⟩)
      · exact ⟨.inl rfl, Nat.zero_le n⟩
      · obtain ⟨hp, hle⟩ := ih.1 ht
        refine ⟨.inr ⟨t, rfl, hp⟩, ?_⟩
        rw [Text.byteCount_cons]
        omega
    · rintro ⟨rfl | ⟨t, rfl, hp⟩, hle⟩
      · exact .inl rfl
      · rw [Text.byteCount_cons] at hle
        exact .inr ⟨t, rfl, ih.2 ⟨hp, by omega⟩⟩
  | case3 n c rest hc =>
    rw [List.prefix_nil, List.prefix_cons_iff]
    constructor
    · rintro rfl
      exact ⟨.inl rfl, Nat.zero_le n⟩
    · rintro ⟨rfl | ⟨t, rfl, -⟩, hle⟩
      · rfl
      · rw [Text.byteCount_cons] at hle
        omega

theorem Reference.byteCount_le {number : Nat → Text → Nat → Prop} {r : Text} {c : Char}
    (h : Reference number r c) : byteCount r ≤ 12 := by
  obtain ⟨-, hle⟩ := h
  exact hle

theorem Reference.byteCount_eq_length {r : Text} {c : Char} (h : Reference SignedNumeral r c) :
    byteCount r = r.length := by
  obtain ⟨hn, -⟩ := h
  exact Text.byteCount_eq_length hn.utf8Size_of_mem

/-- A reference has a `;` at its end only. -/
theorem Reference.exists_name {r : Text} {c : Char} (h : Reference SignedNumeral r c) :
    ∃ name, r = '&' :: name ++ [';'] ∧ ';' ∉ '&' :: name := by
  obtain @⟨name, _, hn, -⟩ := h
  exact ⟨name, rfl, by simpa using hn.plain.2⟩

/-- A reference is decoded just if the whole characters in the first twelve bytes begin with it. -/
theorem reference?_eq_some_iff_within {rest : Text} {c : Char} {n : Nat} :
    reference? ('&' :: rest) = some (c, n) ↔
      ∃ r, Reference SignedNumeral r c ∧ r <+: within 12 ('&' :: rest) ∧ r.length = n := by
  rw [reference?_eq_some_iff]
  refine exists_congr fun r => and_congr_right fun hr => and_congr_left' ?_
  rw [prefix_within_iff, and_iff_left hr.byteCount_le]

/-- Texts with the same whole characters in the first twelve bytes begin with the same reference, and
with none if there is no `;` among these. A reference ends within twelve bytes at the first `;` of the
text, and it is decoded whatever stands behind it. -/
theorem decoding_looks_no_further (s : Text) :
    (∀ t, within 12 ('&' :: t) = within 12 ('&' :: s) →
      reference? ('&' :: t) = reference? ('&' :: s)) ∧
    (';' ∉ within 12 ('&' :: s) → reference? ('&' :: s) = none) ∧
    ∀ c n, reference? ('&' :: s) = some (c, n) → n ≤ 12 ∧ ∃ name,
      takeBytes? n ('&' :: s) = some ('&' :: name ++ [';']) ∧
      ';' ∉ '&' :: name ∧ byteCount ('&' :: name) + 1 = n ∧
      ∀ u, reference? ('&' :: name ++ [';'] ++ u) = some (c, n) := by
  refine ⟨fun t ht => ?_, fun hm => ?_, fun c n h => ?_⟩
  · refine Option.ext fun ⟨c, n⟩ => ?_
    rw [reference?_eq_some_iff_within, reference?_eq_some_iff_within, ht]
  · rw [Option.eq_none_iff_forall_ne_some]
    rintro ⟨c, n⟩ h
    obtain ⟨r, hr, hp, -⟩ := reference?_eq_some_iff_within.1 h
    obtain ⟨name, rfl, -⟩ := hr.exists_name
    exact hm (hp.subset (List.mem_append_right _ List.mem_cons_self))
  · obtain ⟨r, hr, hp, rfl⟩ := reference?_eq_some_iff.1 h
    obtain ⟨name, rfl, hfirst⟩ := hr.exists_name
    have hbytes := hr.byteCount_eq_length
    have hend : byteCount ('&' :: name ++ [';']) = byteCount ('&' :: name) + 1 :=
      Text.byteCount_append _ _
    have hagain : ∀ u, reference? ('&' :: name ++ [';'] ++ u) =
        some (c, ('&' :: name ++ [';']).length) :=
      fun u => reference?_eq_some_iff.2 ⟨_, hr, List.prefix_append _ u, rfl⟩
    exact ⟨hbytes ▸ hr.byteCount_le, name, takeBytes?_eq_some_iff.2 ⟨hp, hbytes⟩, hfirst,
      hend.symm.trans hbytes, hagain⟩

/-- A character across the end of the twelfth byte does not matter, and a `;` behind it ends no
reference. -/
theorem decoding_looks_no_further_than_split_character :
    let s := "lt;2345678é;".toList
    let t := "lt;2345678€".toList
    let late := "#000000065é;".toList
    takeBytes? 12 ('&' :: s) = none ∧ takeBytes? 12 ('&' :: late) = none ∧
      (within 12 ('&' :: t) = within 12 ('&' :: s) ∧ reference? ('&' :: t) = reference? ('&' :: s)) ∧
      (';' ∉ within 12 ('&' :: late) ∧ reference? ('&' :: late) = none) ∧
      reference? ('&' :: s) = some ('<', 4) ∧ 4 ≤ 12 ∧ ∃ name,
        takeBytes? 4 ('&' :: s) = some ('&' :: name ++ [';']) ∧
        ';' ∉ '&' :: name ∧ byteCount ('&' :: name) + 1 = 4 ∧
        ∀ u, reference? ('&' :: name ++ [';'] ++ u) = some ('<', 4) := by
  intro s t late
  have ht : within 12 ('&' :: t) = within 12 ('&' :: s) := by decide
  have hlate : ';' ∉ within 12 ('&' :: late) := by decide
  have hs : reference? ('&' :: s) = some ('<', 4) := by decide
  obtain ⟨hsame, -, hdecoded⟩ := decoding_looks_no_further s
  obtain ⟨-, hnone, -⟩ := decoding_looks_no_further late
  exact ⟨by decide, by decide, ⟨ht, hsame t ht⟩, ⟨hlate, hnone hlate⟩, hs, hdecoded '<' 4 hs⟩

end Implementors.Markup
