import Implementors.Proofs.Text.Cutting
import Implementors.Text.Blank
import Mathlib

/-!
# Words and squashed text

A blank ends a word, so the words on both sides of a blank are found one side at a time. Squashed
text is recognized by what its characters are and which of them stand side by side; so it can be
put together from squashed parts.
-/
namespace Implementors.Text

@[simp] theorem words_nil : words [] = [] := rfl

theorem words_blank_cons {c : Char} (h : isBlank c = true) (s : Text) :
    words (c :: s) = words s := by
  cases s with
  | nil => simp [words, h]
  | cons d s => simp [words, h]

theorem words_singleton {c : Char} (h : isBlank c = false) : words [c] = [[c]] := by
  simp [words, h]

/-- A blank after one character ends its word. -/
theorem words_cons_blank {c d : Char} (hc : isBlank c = false) (hd : isBlank d = true) (s : Text) :
    words (c :: d :: s) = [c] :: words s := by
  have hs : words (d :: s) = words s := words_blank_cons hd s
  simp [words, hc, hd, hs]

theorem words_cons_cons {c d : Char} (hc : isBlank c = false) (hd : isBlank d = false) (s : Text) :
    words (c :: d :: s) = (words (d :: s)).modifyHead (c :: ·) := by
  simp [words, hc, hd]

theorem words_cons_ne_nil {c : Char} (hc : isBlank c = false) (s : Text) : words (c :: s) ≠ [] := by
  induction s generalizing c with
  | nil => simp [words_singleton hc]
  | cons d s ih =>
    cases hd : isBlank d with
    | true => simp [words_cons_blank hc hd]
    | false =>
      rw [words_cons_cons hc hd]
      intro h
      exact ih hd (List.modifyHead_eq_nil_iff.1 h)

/-- No word reaches across a blank. -/
theorem words_append_blank {c : Char} (h : isBlank c = true) (s t : Text) :
    words (s ++ c :: t) = words s ++ words t := by
  induction s with
  | nil => exact words_blank_cons h t
  | cons a s ih =>
    cases ha : isBlank a with
    | true => rw [List.cons_append, words_blank_cons ha, words_blank_cons ha, ih]
    | false =>
      cases s with
      | nil =>
        rw [words_singleton ha]
        exact words_cons_blank ha h t
      | cons b s =>
        cases hb : isBlank b with
        | true =>
          have hs : words ((b :: s) ++ c :: t) = words (s ++ c :: t) := words_blank_cons hb _
          rw [List.cons_append, List.cons_append, words_cons_blank ha hb, words_cons_blank ha hb,
            List.cons_append, ← hs, ih, words_blank_cons hb]
        | false =>
          obtain ⟨w, ws, hw⟩ := List.exists_cons_of_ne_nil (words_cons_ne_nil hb s)
          rw [List.cons_append, List.cons_append, words_cons_cons ha hb, ← List.cons_append, ih,
            words_cons_cons ha hb, hw]
          rfl

theorem words_append_of_blank {b s : Text} (h : b.all isBlank = true) : words (b ++ s) = words s := by
  induction b with
  | nil => rfl
  | cons c b ih =>
    obtain ⟨hc, hb⟩ : isBlank c = true ∧ b.all isBlank = true := by simpa using h
    rw [List.cons_append, words_blank_cons hc, ih hb]

theorem of_mem_words {w s : Text} (h : w ∈ words s) : w ≠ [] ∧ ∀ c ∈ w, isBlank c = false := by
  induction s generalizing w with
  | nil => simp at h
  | cons c s ih =>
    cases hc : isBlank c with
    | true =>
      rw [words_blank_cons hc] at h
      exact ih h
    | false =>
      cases s with
      | nil =>
        rw [words_singleton hc, List.mem_singleton] at h
        subst h
        exact ⟨by simp, by simpa using hc⟩
      | cons d s =>
        cases hd : isBlank d with
        | true =>
          rw [words_cons_blank hc hd, List.mem_cons] at h
          rcases h with rfl | h
          · exact ⟨by simp, by simpa using hc⟩
          · exact ih (by rwa [words_blank_cons hd])
        | false =>
          obtain ⟨v, vs, hv⟩ := List.exists_cons_of_ne_nil (words_cons_ne_nil hd s)
          rw [words_cons_cons hc hd, hv, List.modifyHead_cons, List.mem_cons] at h
          rcases h with rfl | h
          · have hv := ih (w := v) (by rw [hv]; exact List.mem_cons_self)
            exact ⟨List.cons_ne_nil c v, List.forall_mem_cons.2 ⟨hc, hv.2⟩⟩
          · exact ih (by rw [hv]; exact List.mem_cons_of_mem v h)

/-- Texts that are set a blank apart keep their words. -/
theorem words_intercalate {c : Char} (h : isBlank c = true) (texts : List Text) :
    words ([c].intercalate texts) = texts.flatMap words := by
  induction texts with
  | nil => rfl
  | cons s texts ih =>
    cases texts with
    | nil => simp
    | cons t texts =>
      rw [List.intercalate_cons_cons, List.append_assoc, List.singleton_append,
        words_append_blank h, ih]
      rfl

/-- No blank stands at an end or beside another, and all blanks are spaces. -/
structure Tidy (s : Text) : Prop where
  spaces : ∀ c ∈ s, isBlank c = true → c = ' '
  apart : s.IsChain fun c d => isBlank c = false ∨ isBlank d = false
  head : ∀ c ∈ s.head?, isBlank c = false
  last : ∀ c ∈ s.getLast?, isBlank c = false

namespace Tidy

theorem nil : Tidy [] := ⟨nofun, .nil, nofun, nofun⟩

theorem of_no_blank {w : Text} (h : ∀ c ∈ w, isBlank c = false) : Tidy w where
  spaces c hc hb := by
    rw [h c hc] at hb
    cases hb
  apart := by
    induction w with
    | nil => exact .nil
    | cons c w ih =>
      obtain ⟨hc, hw⟩ := List.forall_mem_cons.1 h
      exact List.isChain_cons.2 ⟨fun _ _ => .inl hc, ih hw⟩
  head c hc := h c (List.mem_of_mem_head? hc)
  last c hc := h c (List.mem_of_mem_getLast? hc)

theorem append {s t : Text} (hs : Tidy s) (ht : Tidy t) : Tidy (s ++ t) where
  spaces c hc := (List.mem_append.1 hc).elim (hs.spaces c) (ht.spaces c)
  apart := List.isChain_append.2 ⟨hs.apart, ht.apart, fun c hc _ _ => .inl (hs.last c hc)⟩
  head c hc := by
    rw [List.head?_append] at hc
    cases s with
    | nil => exact ht.head c hc
    | cons d s => exact hs.head c hc
  last c hc := by
    rw [List.getLast?_append] at hc
    cases hl : t.getLast? with
    | none =>
      rw [hl] at hc
      exact hs.last c hc
    | some d =>
      rw [hl] at hc
      exact ht.last c (hl ▸ hc)

/-- Two texts that are there may be set a space apart. -/
theorem append_space {s t : Text} (hs : Tidy s) (ht : Tidy t) (hsn : s ≠ []) (htn : t ≠ []) :
    Tidy (s ++ ' ' :: t) where
  spaces c hc hb := by
    rcases List.mem_append.1 hc with hc | hc
    · exact hs.spaces c hc hb
    · rcases List.mem_cons.1 hc with rfl | hc
      · rfl
      · exact ht.spaces c hc hb
  apart := by
    refine List.isChain_append.2 ⟨hs.apart, ?_, fun c hc _ _ => .inl (hs.last c hc)⟩
    exact List.isChain_cons.2 ⟨fun d hd => .inr (ht.head d hd), ht.apart⟩
  head c hc := by
    rw [List.head?_append_of_ne_nil _ hsn] at hc
    exact hs.head c hc
  last c hc := by
    rw [List.getLast?_append_of_ne_nil _ (by simp), List.getLast?_cons_of_ne_nil htn] at hc
    exact ht.last c hc

theorem intercalate {ws : List Text} (h : ∀ w ∈ ws, w ≠ [] ∧ ∀ c ∈ w, isBlank c = false) :
    Tidy ([' '].intercalate ws) := by
  induction ws with
  | nil => exact nil
  | cons w ws ih =>
    obtain ⟨hw, hs⟩ := List.forall_mem_cons.1 h
    cases ws with
    | nil =>
      rw [List.intercalate_singleton]
      exact of_no_blank hw.2
    | cons v ws =>
      have hv : [' '].intercalate (v :: ws) ≠ [] := by
        cases ws with
        | nil => simpa using (hs v List.mem_cons_self).1
        | cons u us => simp [List.intercalate_cons_cons]
      rw [List.intercalate_cons_cons, List.append_assoc]
      exact (of_no_blank hw.2).append_space (ih hs) hw.1 hv

theorem trim {s : Text} (h : Tidy s) : trim s = s := by
  rw [Text.trim, trimStart_eq_self h.head, trimEnd_eq_self h.last]

/-- What is cut out of a tidy text is tidy once it is trimmed. -/
theorem trim_infix {s t : Text} (h : Tidy s) (ht : t <:+: s) : Tidy (Text.trim t) := by
  have hi : Text.trim t <:+: s :=
    ((trimEnd_isPrefix _).isInfix.trans (List.dropWhile_suffix isBlank).isInfix).trans ht
  exact {
    spaces := fun c hc => h.spaces c (hi.subset hc)
    apart := h.apart.infix hi
    head := fun _ => isBlank_of_mem_head?_trim
    last := fun _ => isBlank_of_mem_getLast?_trimEnd }

theorem trimStart_suffix {s t : Text} (h : Tidy s) (ht : t <:+ s) : Tidy (trimStart t) := by
  have hs : trimStart t <:+ s := (List.dropWhile_suffix isBlank).trans ht
  have hlast : ∀ c ∈ (trimStart t).getLast?, isBlank c = false := by
    obtain ⟨r, hr⟩ := hs
    intro c hc
    refine h.last c ?_
    rw [← hr, List.getLast?_append, Option.mem_def.1 hc]
    rfl
  have he : Text.trim t = trimStart t := trimEnd_eq_self hlast
  rw [← he]
  exact h.trim_infix ht.isInfix

theorem before_space {s t : Text} (h : Tidy (s ++ ' ' :: t)) : Tidy s where
  spaces c hc := h.spaces c (List.mem_append_left _ hc)
  apart := h.apart.left_of_append
  head c hc := by
    refine h.head c ?_
    rw [List.head?_append, Option.mem_def.1 hc]
    rfl
  last c hc := by
    have hend := (List.isChain_append.1 h.apart).2.2 c hc ' ' rfl
    simpa using hend

theorem after_space {s t : Text} (h : Tidy (s ++ ' ' :: t)) : Tidy t := by
  have hapart := (List.isChain_append.1 h.apart).2.1
  have hhead : ∀ c ∈ t.head?, isBlank c = false := by
    intro c hc
    simpa using (List.isChain_cons.1 hapart).1 c hc
  have ht : trimStart t = t := trimStart_eq_self hhead
  rw [← ht]
  exact h.trimStart_suffix ((List.suffix_cons ' ' t).trans (List.suffix_append s _))

/-- Tidy texts may be listed with a comma and a space between them. -/
theorem intercalate_comma {ps : List Text} (h : ∀ p ∈ ps, p ≠ [] ∧ Tidy p) :
    Tidy (", ".toList.intercalate ps) := by
  induction ps with
  | nil => exact nil
  | cons p ps ih =>
    obtain ⟨hp, hps⟩ := List.forall_mem_cons.1 h
    cases ps with
    | nil =>
      rw [List.intercalate_singleton]
      exact hp.2
    | cons q ps =>
      have hq : ", ".toList.intercalate (q :: ps) ≠ [] := by
        cases ps with
        | nil => simpa using (hps q List.mem_cons_self).1
        | cons r ps => simp [List.intercalate_cons_cons]
      have hcomma : Tidy [','] := of_no_blank (by simp; rfl)
      have hs : p ++ ", ".toList ++ ", ".toList.intercalate (q :: ps) =
          (p ++ [',']) ++ ' ' :: ", ".toList.intercalate (q :: ps) := by
        simp
      rw [List.intercalate_cons_cons, hs]
      exact (hp.2.append hcomma).append_space (ih hps) (by simp) hq

end Tidy

theorem tidy_squash (s : Text) : Tidy (squash s) := .intercalate fun _ => of_mem_words

/-- What squashing does to a text whose blanks are single spaces: it drops one at the beginning. -/
theorem squash_eq_trimStart {s : Text} (hb : ∀ c ∈ s, isBlank c = true → c = ' ')
    (ha : s.IsChain fun c d => isBlank c = false ∨ isBlank d = false)
    (hl : ∀ c ∈ s.getLast?, isBlank c = false) : squash s = trimStart s := by
  induction s with
  | nil => rfl
  | cons c s ih =>
    obtain ⟨hcs, hs⟩ := List.isChain_cons.1 ha
    have hl' : ∀ d ∈ s.getLast?, isBlank d = false := by
      intro d hd
      refine hl d ?_
      cases s with
      | nil => cases hd
      | cons e s => rwa [List.getLast?_cons_cons]
    have ih := ih (fun d hd => hb d (List.mem_cons_of_mem c hd)) hs hl'
    cases hc : isBlank c with
    | true =>
      rw [squash, words_blank_cons hc, ← squash, ih, trimStart, trimStart,
        List.dropWhile_cons_of_pos hc]
    | false =>
      rw [trimStart_cons hc]
      cases s with
      | nil => rw [squash, words_singleton hc, List.intercalate_singleton]
      | cons d s =>
        cases hd : isBlank d with
        | false =>
          obtain ⟨w, ws, hw⟩ := List.exists_cons_of_ne_nil (words_cons_ne_nil hd s)
          rw [trimStart_cons hd, squash, hw] at ih
          rw [squash, words_cons_cons hc hd, hw, List.modifyHead_cons, ← ih]
          cases ws <;> simp [List.intercalate_cons_cons]
        | true =>
          -- the blank is a space, and what follows it begins a word
          obtain rfl : d = ' ' := hb d (by simp) hd
          cases s with
          | nil => simp at hl
          | cons e s =>
            have he : isBlank e = false := by
              have := List.isChain_cons_cons.1 hs
              simpa using this.1
            obtain ⟨w, ws, hw⟩ := List.exists_cons_of_ne_nil (words_cons_ne_nil he s)
            rw [squash, words_blank_cons hd, trimStart, List.dropWhile_cons_of_pos hd,
              ← trimStart, trimStart_cons he, hw] at ih
            rw [squash, words_cons_blank hc hd, hw, List.intercalate_cons_cons, ih]
            rfl

theorem isSquashed_iff_tidy {s : Text} : IsSquashed s ↔ Tidy s := by
  constructor
  · intro h
    rw [← show squash s = s from h]
    exact tidy_squash s
  · intro h
    rw [IsSquashed, squash_eq_trimStart h.spaces h.apart h.last, trimStart_eq_self h.head]

end Implementors.Text
