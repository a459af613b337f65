import Implementors.Proofs.Text.Spelled
import Mathlib

/-!
# Written literals

What is written for a text is one of its spellings, so it is read back. A mark without quotes,
backslashes and escaped characters occurs in a written text just where it occurs in the text.
-/
namespace Implementors.Text.Literal

/-- The three ways in which a character is written. -/
inductive Spelling (c : Char) : Text → Prop
  | itself : c ≠ '"' → c ≠ '\\' → 0x20 ≤ c.toNat → Spelling c [c]
  | short (e : Char) : e ∈ "\"\\bfnrt".toList → escaped? e = some c → Spelling c ['\\', e]
  | number (n : Nat) : n < 0x20 → c = Char.ofNat n →
      Spelling c ['\\', 'u', '0', '0', hexDigit (n / 16), hexDigit (n % 16)]

theorem spelling_writeChar (c : Char) : Spelling c (writeChar c) := by
  unfold writeChar
  split
  case h_8 hq hb _ _ _ _ _ =>
    split
    case isTrue h => exact .number c.toNat h (Char.ofNat_toNat c).symm
    case isFalse h => exact .itself hq hb (by omega)
  all_goals exact .short _ (by decide) rfl

theorem codeUnit_hexDigit {n : Nat} (h : n < 0x20) :
    CodeUnit ['0', '0', hexDigit (n / 16), hexDigit (n % 16)] n := by
  have hzero : HexDigit '0' 0 := by decide
  have hhigh : HexDigit (hexDigit (n / 16)) (n / 16) := ⟨by omega, .inl rfl⟩
  have hlow : HexDigit (hexDigit (n % 16)) (n % 16) := ⟨by omega, .inl rfl⟩
  have hn : ((0 * 16 + 0) * 16 + n / 16) * 16 + n % 16 = n := by omega
  have hunit := CodeUnit.mk hzero hzero hhigh hlow
  rwa [hn] at hunit

/-- What is written for a character is one of its spellings. -/
theorem Spelling.spells {c : Char} {w : Text} (h : Spelling c w) : SpellsChar w c := by
  cases h with
  | itself hq hb hc => exact .itself hq hb hc
  | short e he hc =>
    have key : ∀ e ∈ "\"\\bfnrt".toList,
        (escaped? e).all (fun c => (e, c) ∈ shortEscapes) = true :=
      List.all_iff_forall_prop.1 (by decide)
    exact .short (by simpa [hc] using key e he)
  | number n hn hc =>
    have hvalid : n.isValidChar := .inl (by omega)
    obtain rfl : c.toNat = n := by rw [hc, Char.toNat_ofNat, if_pos hvalid]
    exact .unit (codeUnit_hexDigit hn)

theorem spells_written (s : Text) : Spells (s.flatMap writeChar) s := by
  induction s with
  | nil => exact .nil
  | cons c s ih => exact .cons (spelling_writeChar c).spells ih

/-- A written literal is a literal for the text. -/
theorem spaced_write (s : Text) : Spaced (write s) s :=
  .mk isGap_nil (spells_written s) isGap_nil

theorem read?_write (s : Text) : read? (write s) = some s := (spaced_write s).read?

/-- A literal has to be closed. -/
theorem read?_unclosed (s : Text) : read? ('"' :: s.flatMap writeChar) = none :=
  (spells_written s).read?_unclosed isGap_nil.isSpace

/-- A written literal stays on its line. -/
theorem newline_not_mem_write (s : Text) : '\n' ∉ write s := (spaced_write s).newline_not_mem

/-- Written literals with commas between them list the texts. -/
theorem items_write (item : Text) (items : List Text) :
    Items ([','].intercalate ((item :: items).map write)) (item :: items) := by
  induction items generalizing item with
  | nil => simpa using Items.one (spaced_write item)
  | cons next items ih => simpa using Items.cons (spaced_write item) (ih next)

/-- The characters that escapes are made of. -/
def escapeChars : Text := "\\\"bfnrtu0123456789abcdef".toList

/-- A character that is written as it is and is part of no escape. -/
def IsPlain (c : Char) : Prop := 0x20 ≤ c.toNat ∧ c ∉ escapeChars

instance (c : Char) : Decidable (IsPlain c) := inferInstanceAs (Decidable (_ ∧ _))

theorem hexDigit_mem_escapeChars : ∀ n < 0x20,
    hexDigit (n / 16) ∈ escapeChars ∧ hexDigit (n % 16) ∈ escapeChars := by
  decide

/-- An escape is made of its own characters, and stands for a character that is not plain. -/
theorem Spelling.itself_or_escape {c : Char} {w : Text} (h : Spelling c w) :
    (w = [c] ∧ 0x20 ≤ c.toNat) ∨
      (w ≠ [] ∧ (∀ d ∈ w, d ∈ escapeChars) ∧ ¬ IsPlain c) := by
  cases h with
  | itself hq hb hc => exact .inl ⟨rfl, hc⟩
  | short e he hc =>
    have key : ∀ e ∈ "\"\\bfnrt".toList,
        e ∈ escapeChars ∧ (escaped? e).all (fun c => ¬ IsPlain c) = true :=
      List.all_iff_forall_prop.1 (by decide)
    refine .inr ⟨List.cons_ne_nil _ _, ?_, ?_⟩
    · intro d hd
      obtain rfl | rfl : d = '\\' ∨ d = e := by simpa using hd
      · decide
      · exact (key d he).1
    · simpa [hc] using (key e he).2
  | number n hn hc =>
    refine .inr ⟨List.cons_ne_nil _ _, ?_, fun hp => ?_⟩
    · have hx := hexDigit_mem_escapeChars n hn
      have hs : ∀ d ∈ "\\u00".toList, d ∈ escapeChars := List.all_iff_forall_prop.1 (by decide)
      intro d hd
      rcases List.mem_append.1 (show d ∈ "\\u00".toList ++ [_, _] from hd) with hd | hd
      · exact hs d hd
      · obtain rfl | rfl : d = _ ∨ d = _ := by simpa using hd
        exacts [hx.1, hx.2]
    · have : ∀ n < 0x20, ¬ IsPlain (Char.ofNat n) := by decide
      exact this n hn (hc ▸ hp)

theorem writeChar_cases (c : Char) : (writeChar c = [c] ∧ 0x20 ≤ c.toNat) ∨
    (writeChar c ≠ [] ∧ (∀ d ∈ writeChar c, d ∈ escapeChars) ∧ ¬ IsPlain c) :=
  (spelling_writeChar c).itself_or_escape

/-- A written text begins with a plain mark just if the text does. -/
theorem afterStart?_written {mark : Text} (hm : ∀ m ∈ mark, IsPlain m) (s t : Text) :
    afterStart? mark (s.flatMap writeChar ++ '"' :: t) =
      (afterStart? mark s).map fun r => r.flatMap writeChar ++ '"' :: t := by
  induction mark generalizing s with
  | nil => simp
  | cons m mark ih =>
    have hp : IsPlain m := hm m List.mem_cons_self
    have hi := ih fun d hd => hm d (List.mem_cons_of_mem _ hd)
    cases s with
    | nil =>
      have hq : m ≠ '"' := by rintro rfl; exact absurd hp (by decide)
      exact afterStart?_eq_none_of_ne hq _ _
    | cons c s =>
      rw [List.flatMap_cons, List.append_assoc]
      obtain ⟨hw, -⟩ | ⟨hne, he, hc⟩ := writeChar_cases c
      · rw [hw, List.singleton_append, afterStart?_cons_cons, afterStart?_cons_cons, hi]
        split <;> rfl
      · obtain ⟨d, w, hw⟩ := List.exists_cons_of_ne_nil hne
        have hd : m ≠ d := by
          rintro rfl
          exact hp.2 (he m (hw ▸ List.mem_cons_self))
        have hmc : m ≠ c := by rintro rfl; exact hc hp
        rw [hw, List.cons_append, afterStart?_eq_none_of_ne hd, afterStart?_eq_none_of_ne hmc]
        rfl

/-- A plain mark occurs first in a written text where it does in the text. -/
theorem cut?_written {mark : Text} (hm : ∀ m ∈ mark, IsPlain m) (hne : mark ≠ []) (s t : Text) :
    cut? mark (s.flatMap writeChar ++ '"' :: t) =
      match cut? mark s with
      | some (before, after) =>
        some (before.flatMap writeChar, after.flatMap writeChar ++ '"' :: t)
      | none => (cut? mark t).map fun r => (s.flatMap writeChar ++ '"' :: r.1, r.2) := by
  obtain ⟨m, ms, rfl⟩ := List.exists_cons_of_ne_nil hne
  have hp : IsPlain m := hm m List.mem_cons_self
  induction s with
  | nil =>
    have hq : m ∉ ['"'] := by rintro h; rw [List.mem_singleton] at h; exact absurd (h ▸ hp) (by decide)
    exact cut?_append_of_not_mem rfl hq t
  | cons c s ih =>
    have ha := afterStart?_written hm (c :: s) t
    rw [List.flatMap_cons, List.append_assoc] at ha ⊢
    obtain ⟨hw, -⟩ | ⟨-, he, hc⟩ := writeChar_cases c
    · rw [hw, List.singleton_append] at ha ⊢
      cases hs : afterStart? (m :: ms) (c :: s) with
      | some rest =>
        rw [hs] at ha
        rw [cut?_of_afterStart? ha, cut?_of_afterStart? hs]
        rfl
      | none =>
        rw [hs] at ha
        rw [cut?_cons ha, cut?_cons hs, ih]
        cases cut? (m :: ms) s <;> simp [hw, Function.comp_def]
    · have hmw : m ∉ writeChar c := fun h => hp.2 (he m h)
      have hmc : m ≠ c := by rintro rfl; exact hc hp
      rw [cut?_append_of_not_mem rfl hmw, cut?_cons (afterStart?_eq_none_of_ne hmc _ _), ih]
      cases cut? (m :: ms) s <;> simp [Function.comp_def]

end Implementors.Text.Literal
