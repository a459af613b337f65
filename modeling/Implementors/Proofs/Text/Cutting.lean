import Implementors.Text.Blank
import Implementors.Text.Scanner
import Mathlib

/-!
# Cutting texts

Beginnings, endings, first occurrences and trimming. Each cut is described by what is joined to get the
text back, so that later proofs never follow the scan itself.
-/
namespace Implementors.Text

theorem afterStart?_eq_some_iff {beginning s rest : Text} :
    afterStart? beginning s = some rest ↔ beginning ++ rest = s :=
  List.isPrefixOf?_eq_some_iff_append_eq

@[simp] theorem afterStart?_append (beginning rest : Text) :
    afterStart? beginning (beginning ++ rest) = some rest :=
  afterStart?_eq_some_iff.2 rfl

@[simp] theorem afterStart?_nil (s : Text) : afterStart? [] s = some s :=
  afterStart?_eq_some_iff.2 rfl

theorem afterStart?_cons_cons (m c : Char) (mark s : Text) :
    afterStart? (m :: mark) (c :: s) = if m = c then afterStart? mark s else none := by
  simp [afterStart?, List.isPrefixOf?]

theorem afterStart?_eq_none_of_ne {m c : Char} (h : m ≠ c) (mark s : Text) :
    afterStart? (m :: mark) (c :: s) = none := by
  rw [afterStart?_cons_cons, if_neg h]

@[simp] theorem beforeEnd?_append (s ending : Text) :
    beforeEnd? ending (s ++ ending) = some s := by
  simp only [beforeEnd?, List.isSuffixOf?, List.reverse_append,
    List.isPrefixOf?_eq_some_iff_append_eq.2 rfl, Option.map_some, List.reverse_reverse]

theorem beforeEnd?_concat_of_ne {c d : Char} (h : c ≠ d) (s : Text) :
    beforeEnd? [c] (s ++ [d]) = none := by
  rw [beforeEnd?, List.isSuffixOf?, List.reverse_concat, List.reverse_singleton,
    List.isPrefixOf?, if_neg (by simpa using h), Option.map_none]

/-- Two places of a character in a text are the same, or one stands behind the other. -/
theorem eq_or_of_append_cons_eq {c : Char} {s t before after : Text}
    (h : s ++ c :: t = before ++ c :: after) :
    (before = s ∧ after = t) ∨ (∃ x, s = before ++ c :: x) ∨
      ∃ x, before = s ++ c :: x ∧ t = x ++ c :: after := by
  rcases List.append_eq_append_iff.1 h with ⟨x, rfl, hx⟩ | ⟨x, rfl, hx⟩
  · cases x with
    | nil => exact .inl ⟨List.append_nil s, (List.cons.inj hx).2.symm⟩
    | cons d x =>
      obtain ⟨rfl, ht⟩ := List.cons.inj hx
      exact .inr (.inr ⟨x, rfl, ht⟩)
  · cases x with
    | nil => exact .inl ⟨(List.append_nil before).symm, (List.cons.inj hx).2⟩
    | cons d x =>
      obtain ⟨rfl, -⟩ := List.cons.inj hx
      exact .inr (.inl ⟨x, rfl⟩)

/-- A text that occurs around a character that it does not hold occurs on one side of it. -/
theorem infix_of_infix_append_cons {mark s t : Text} {c : Char} (hc : c ∉ mark)
    (h : mark <:+: s ++ c :: t) : mark <:+: s ∨ mark <:+: t := by
  obtain ⟨before, after, he⟩ := h
  rcases List.append_eq_append_iff.1 he with ⟨x, rfl, -⟩ | ⟨x, hs, ht⟩
  · exact .inl ⟨before, x, rfl⟩
  cases x with
  | nil => exact .inl ⟨before, [], by simpa using hs⟩
  | cons d x =>
    obtain ⟨rfl, rfl⟩ := List.cons.inj ht
    rcases List.append_eq_append_iff.1 hs with ⟨y, -, hm⟩ | ⟨y, -, hy⟩
    · exact absurd (hm ▸ List.mem_append_right y List.mem_cons_self) hc
    · cases y with
      | nil =>
        rw [List.nil_append] at hy
        exact absurd (hy ▸ List.mem_cons_self) hc
      | cons e y =>
        obtain ⟨-, rfl⟩ := List.cons.inj hy
        exact .inr ⟨y, after, rfl⟩

/-- Texts that are each ended by a separator are the same texts joined by it, and then ended. -/
theorem flatMap_append_eq_intercalate (separator : Text) {pieces : List Text} (h : pieces ≠ []) :
    pieces.flatMap (· ++ separator) = separator.intercalate pieces ++ separator := by
  induction pieces with
  | nil => exact absurd rfl h
  | cons p pieces ih =>
    cases pieces with
    | nil => simp
    | cons q pieces =>
      rw [List.flatMap_cons, ih (List.cons_ne_nil q pieces), List.intercalate_cons_cons]
      simp

theorem intercalate_concat (separator : Text) {pieces : List Text} (h : pieces ≠ []) (s : Text) :
    separator.intercalate (pieces ++ [s]) = separator.intercalate pieces ++ separator ++ s := by
  induction pieces with
  | nil => exact absurd rfl h
  | cons p pieces ih =>
    cases pieces with
    | nil => simp
    | cons q pieces =>
      have hc : separator.intercalate (p :: q :: pieces ++ [s]) =
          p ++ separator ++ separator.intercalate (q :: pieces ++ [s]) :=
        List.intercalate_cons_cons
      rw [hc, ih (List.cons_ne_nil q pieces), List.intercalate_cons_cons]
      simp only [List.append_assoc]

/-- Whatever is made of single elements is made of joined lists part by part. -/
theorem flatMap_intercalate {α β : Type} (f : α → List β) (separator : List α)
    (parts : List (List α)) : (separator.intercalate parts).flatMap f =
      (separator.flatMap f).intercalate (parts.map (·.flatMap f)) := by
  induction parts with
  | nil => rfl
  | cons part parts ih =>
    cases parts with
    | nil => simp
    | cons next parts =>
      rw [List.intercalate_cons_cons, List.flatMap_append, List.flatMap_append, ih]
      exact List.intercalate_cons_cons.symm

namespace Scanner

variable {σ : Type} {scanner : Scanner σ}

theorem cutFrom?_mark {mark : Text} {state : σ} (hm : mark ≠ []) (hf : scanner.free state = true)
    (rest : Text) : scanner.cutFrom? mark state (mark ++ rest) = some ([], rest) := by
  obtain ⟨m, ms, rfl⟩ := List.exists_cons_of_ne_nil hm
  have ha := afterStart?_append (m :: ms) rest
  rw [List.cons_append] at ha ⊢
  simp only [cutFrom?, hf, if_true, ha]

theorem cutFrom?_cons {mark : Text} {state : σ} {c : Char} {s : Text}
    (h : scanner.free state = true → afterStart? mark (c :: s) = none) :
    scanner.cutFrom? mark state (c :: s) =
      (scanner.cutFrom? mark (scanner.step state c) s).map fun r => (c :: r.1, r.2) := by
  have hn : (if scanner.free state then afterStart? mark (c :: s) else none) = none := by
    by_cases hf : scanner.free state = true
    · rw [if_pos hf, h hf]
    · rw [if_neg hf]
  rw [cutFrom?, hn]

/-- Either the mark stands here, or the scan goes on with the next character. -/
theorem cutFrom?_cons_eq_some {mark before after : Text} {state : σ} {c : Char} {s : Text}
    (h : scanner.cutFrom? mark state (c :: s) = some (before, after)) :
    (scanner.free state = true ∧ before = [] ∧ mark ++ after = c :: s) ∨
      ((scanner.free state = true → afterStart? mark (c :: s) = none) ∧
        ∃ b, before = c :: b ∧
          scanner.cutFrom? mark (scanner.step state c) s = some (b, after)) := by
  by_cases hf : scanner.free state = true
  · cases ha : afterStart? mark (c :: s) with
    | some rest =>
      simp only [cutFrom?, hf, if_true, ha, Option.some.injEq, Prod.mk.injEq] at h
      exact .inl ⟨hf, h.1.symm, h.2 ▸ afterStart?_eq_some_iff.1 ha⟩
    | none =>
      rw [cutFrom?_cons fun _ => ha, Option.map_eq_some_iff] at h
      obtain ⟨⟨b, a⟩, hr, he⟩ := h
      cases he
      exact .inr ⟨fun _ => rfl, b, rfl, hr⟩
  · rw [cutFrom?_cons fun ht => absurd ht hf, Option.map_eq_some_iff] at h
    obtain ⟨⟨b, a⟩, hr, he⟩ := h
    cases he
    exact .inr ⟨fun ht => absurd ht hf, b, rfl, hr⟩

/-- Where nothing is cut, the mark does not stand here and nothing is cut further on. -/
theorem of_cutFrom?_cons_eq_none {mark : Text} {state : σ} {c : Char} {s : Text}
    (h : scanner.cutFrom? mark state (c :: s) = none) :
    (scanner.free state = true → afterStart? mark (c :: s) = none) ∧
      scanner.cutFrom? mark (scanner.step state c) s = none := by
  have hnone : scanner.free state = true → afterStart? mark (c :: s) = none := by
    intro hf
    cases ha : afterStart? mark (c :: s) with
    | none => rfl
    | some rest => simp [cutFrom?, hf, ha] at h
  rw [cutFrom?_cons hnone, Option.map_eq_none_iff] at h
  exact ⟨hnone, h⟩

/-- The mark stands in a text where the scan may be cut. -/
structure Occurs (scanner : Scanner σ) (mark : Text) (state : σ) (before after s : Text) :
    Prop where
  text : before ++ mark ++ after = s
  free : scanner.free (scanner.run state before) = true

/-- A text is cut where the mark stands. -/
theorem occurs_of_cutFrom? {mark before after : Text} {state : σ} {s : Text}
    (h : scanner.cutFrom? mark state s = some (before, after)) :
    scanner.Occurs mark state before after s := by
  induction s generalizing state before with
  | nil => simp [cutFrom?] at h
  | cons c s ih =>
    obtain ⟨hf, rfl, he⟩ | ⟨-, b, rfl, hr⟩ := cutFrom?_cons_eq_some h
    · exact ⟨he, hf⟩
    · have ho := ih hr
      exact ⟨congrArg (c :: ·) ho.text, ho.free⟩

/-- A text is not cut behind a place where the mark stands. -/
theorem length_le_of_cutFrom? {mark before after b a : Text} {state : σ} {s : Text}
    (h : scanner.cutFrom? mark state s = some (before, after))
    (ho : scanner.Occurs mark state b a s) : before.length ≤ b.length := by
  induction s generalizing state before b with
  | nil => simp [cutFrom?] at h
  | cons c s ih =>
    obtain ⟨-, rfl, -⟩ | ⟨hn, before, rfl, hr⟩ := cutFrom?_cons_eq_some h
    · exact Nat.zero_le _
    · cases b with
      | nil =>
        have ht : mark ++ a = c :: s := ho.text
        have hs := hn ho.free
        rw [afterStart?_eq_some_iff.2 ht] at hs
        exact absurd hs (Option.some_ne_none a)
      | cons d b =>
        obtain ⟨rfl, ht⟩ := List.cons.inj ho.text
        exact Nat.succ_le_succ (ih hr ⟨ht, ho.free⟩)

theorem not_occurs_of_cutFrom?_eq_none {mark before after : Text} {state : σ} {s : Text}
    (hm : mark ≠ []) (h : scanner.cutFrom? mark state s = none) :
    ¬ scanner.Occurs mark state before after s := by
  rintro ⟨rfl, hf⟩
  induction before generalizing state with
  | nil =>
    have hs : scanner.cutFrom? mark state (mark ++ after) = some ([], after) := cutFrom?_mark hm hf after
    rw [List.nil_append, hs] at h
    exact Option.some_ne_none _ h
  | cons c before ih => exact ih hf (of_cutFrom?_cons_eq_none h).2

/-- A text is not cut just if the mark stands nowhere in it where it may be cut. -/
theorem cutFrom?_eq_none_iff {mark : Text} {state : σ} {s : Text} (hm : mark ≠ []) :
    scanner.cutFrom? mark state s = none ↔
      ∀ before after, ¬ scanner.Occurs mark state before after s := by
  constructor
  · exact fun h _ _ => not_occurs_of_cutFrom?_eq_none hm h
  · intro h
    rw [Option.eq_none_iff_forall_ne_some]
    rintro ⟨before, after⟩ hs
    exact h before after (occurs_of_cutFrom? hs)

/-- A text is cut at the first place where the mark stands and it may be cut. -/
theorem cutFrom?_eq_some_iff {mark before after : Text} {state : σ} {s : Text} (hm : mark ≠ []) :
    scanner.cutFrom? mark state s = some (before, after) ↔
      scanner.Occurs mark state before after s ∧
        ∀ b a, scanner.Occurs mark state b a s → before.length ≤ b.length := by
  constructor
  · exact fun h => ⟨occurs_of_cutFrom? h, fun b a => length_le_of_cutFrom? h⟩
  · rintro ⟨ho, hfirst⟩
    cases hc : scanner.cutFrom? mark state s with
    | none => exact absurd ho (not_occurs_of_cutFrom?_eq_none hm hc)
    | some cut =>
      obtain ⟨b, a⟩ := cut
      have hb := occurs_of_cutFrom? hc
      have hl : b.length = before.length :=
        Nat.le_antisymm (length_le_of_cutFrom? hc ho) (hfirst b a hb)
      have ht := hb.text.trans ho.text.symm
      rw [List.append_assoc, List.append_assoc] at ht
      obtain ⟨rfl, ha⟩ := List.append_inj ht hl
      rw [List.append_cancel_left ha]

/-- Whether the mark stands first at a place depends only on the text up to its end. -/
theorem cutFrom?_exchange {mark before after : Text} {state : σ} {s : Text} (hm : mark ≠ [])
    (h : scanner.cutFrom? mark state s = some (before, after)) (t : Text) :
    scanner.cutFrom? mark state (before ++ mark ++ t) = some (before, t) := by
  obtain ⟨⟨rfl, hf⟩, hfirst⟩ := (cutFrom?_eq_some_iff hm).1 h
  refine (cutFrom?_eq_some_iff hm).2 ⟨⟨rfl, hf⟩, fun b a ho => ?_⟩
  by_contra hlt
  -- An earlier mark would end before this one does, so it would stand in the old text too.
  have hl : (b ++ mark).length ≤ (before ++ mark).length := by
    rw [List.length_append, List.length_append]
    omega
  obtain ⟨x, hx⟩ := List.prefix_of_prefix_length_le ⟨a, ho.text⟩ (List.prefix_append _ t) hl
  have hold : b ++ mark ++ (x ++ after) = before ++ mark ++ after := by
    rw [← hx]
    simp only [List.append_assoc]
  exact hlt (hfirst b (x ++ after) ⟨hold, ho.free⟩)

/-- A first occurrence stays the first one when more text follows. -/
theorem cutFrom?_append {mark before after : Text} {state : σ} {s : Text} (hm : mark ≠ [])
    (h : scanner.cutFrom? mark state s = some (before, after)) (t : Text) :
    scanner.cutFrom? mark state (s ++ t) = some (before, after ++ t) := by
  have hs := (occurs_of_cutFrom? h).text
  rw [← hs, List.append_assoc]
  exact cutFrom?_exchange hm h (after ++ t)

/-- What stands before the first occurrence has none. -/
theorem cutFrom?_before {mark before after : Text} {state : σ} {s : Text} (hm : mark ≠ [])
    (h : scanner.cutFrom? mark state s = some (before, after)) :
    scanner.cutFrom? mark state before = none := by
  refine (cutFrom?_eq_none_iff hm).2 fun b a ho => ?_
  have hs := (occurs_of_cutFrom? h).text
  have hb : scanner.Occurs mark state b (a ++ (mark ++ after)) s :=
    ⟨by rw [← hs, ← ho.text]; simp only [List.append_assoc], ho.free⟩
  have hle := length_le_of_cutFrom? h hb
  have hlt := congrArg List.length ho.text
  have hpos := List.length_pos_iff.2 hm
  simp only [List.length_append] at hlt
  omega

theorem cut?_append {mark before after s : Text} (hm : mark ≠ [])
    (h : scanner.cut? mark s = some (before, after)) (t : Text) :
    scanner.cut? mark (s ++ t) = some (before, after ++ t) :=
  cutFrom?_append hm h t

/-- A text without the first character of the mark is passed over. -/
theorem cutFrom?_append_of_not_mem {m : Char} {mark s : Text} (hm : mark.head? = some m)
    (h : m ∉ s) (state : σ) (t : Text) : scanner.cutFrom? mark state (s ++ t) =
      (scanner.cutFrom? mark (scanner.run state s) t).map fun r => (s ++ r.1, r.2) := by
  obtain ⟨ms, rfl⟩ := List.head?_eq_some_iff.1 hm
  induction s generalizing state with
  | nil => simp
  | cons c s ih =>
    have hc : m ≠ c := fun he => h (he ▸ List.mem_cons_self)
    rw [List.cons_append, cutFrom?_cons fun _ => afterStart?_eq_none_of_ne hc _ _,
      ih fun hm => h (List.mem_cons_of_mem _ hm), Option.map_map]
    rfl

/-- A mark whose first character does not occur again in it cannot begin before it is written, if it
does not occur by then. -/
theorem cutFrom?_append_mark {m : Char} {ms s : Text} {state : σ} (hm : m ∉ ms)
    (h : scanner.cutFrom? (m :: ms) state s = none)
    (hf : scanner.free (scanner.run state s) = true) :
    scanner.cutFrom? (m :: ms) state (s ++ m :: ms) = some (s, []) := by
  induction s generalizing state with
  | nil => simpa using cutFrom?_mark (List.cons_ne_nil m ms) hf []
  | cons c s ih =>
    obtain ⟨hnone, h⟩ := of_cutFrom?_cons_eq_none h
    rw [List.cons_append, cutFrom?_cons fun ht => ?_, ih h hf]
    · rfl
    rw [Option.eq_none_iff_forall_ne_some]
    intro rest hr
    -- The mark would begin in the text and end in the one that is written, so it would begin twice.
    have hbegin : ∀ after, (m :: ms) ++ after ≠ c :: s := fun after he => by
      rw [← he, afterStart?_append] at hnone
      exact Option.some_ne_none _ (hnone ht)
    have hw : (m :: ms) ++ rest = (c :: s) ++ m :: ms := afterStart?_eq_some_iff.1 hr
    rcases List.append_eq_append_iff.1 hw with ⟨t, he, -⟩ | ⟨t, he, ht'⟩
    · exact hbegin t he.symm
    · cases t with
      | nil => exact hbegin [] (by simpa using he)
      | cons d t =>
        obtain ⟨rfl, -⟩ := List.cons.inj ht'
        exact hm ((List.cons.inj he).2 ▸ List.mem_append_right s List.mem_cons_self)

end Scanner

theorem cut?_mark {mark : Text} (hm : mark ≠ []) (rest : Text) :
    cut? mark (mark ++ rest) = some ([], rest) :=
  Scanner.cutFrom?_mark hm rfl rest

theorem cut?_of_afterStart? {mark s rest : Text} {c : Char}
    (h : afterStart? mark (c :: s) = some rest) : cut? mark (c :: s) = some ([], rest) := by
  simp [cut?, Scanner.cut?, Scanner.cutFrom?, everywhere, h]

theorem cut?_cons {mark s : Text} {c : Char} (h : afterStart? mark (c :: s) = none) :
    cut? mark (c :: s) = (cut? mark s).map fun r => (c :: r.1, r.2) :=
  Scanner.cutFrom?_cons fun _ => h

theorem cut?_append_of_not_mem {m : Char} {mark s : Text} (hm : mark.head? = some m) (h : m ∉ s)
    (t : Text) : cut? mark (s ++ t) = (cut? mark t).map fun r => (s ++ r.1, r.2) :=
  Scanner.cutFrom?_append_of_not_mem hm h () t

/-- A mark is found just if the text contains it. -/
theorem cut?_eq_none_iff {mark s : Text} (hm : mark ≠ []) : cut? mark s = none ↔ ¬ mark <:+: s := by
  refine (Scanner.cutFrom?_eq_none_iff hm).trans ⟨?_, ?_⟩
  · rintro h ⟨before, after, ht⟩
    exact h before after ⟨ht, rfl⟩
  · rintro h before after ho
    exact h ⟨before, after, ho.text⟩

namespace Scanner

variable {σ : Type} {scanner : Scanner σ}

theorem piecesFrom_cons {c : Char} {state : σ} (h : c = ',' → scanner.free state = false)
    (s : Text) : scanner.piecesFrom state (c :: s) =
      (scanner.piecesFrom (scanner.step state c) s).modifyHead (c :: ·) := by
  rw [piecesFrom, if_neg]
  simpa using h

theorem piecesFrom_comma {state : σ} (h : scanner.free state = true) (s : Text) :
    scanner.piecesFrom state (',' :: s) = [] :: scanner.pieces s := by
  simp [piecesFrom, h, pieces]

theorem eq_singleton_of_modifyHead {c : Char} {pieces : List Text} {s : Text}
    (h : pieces.modifyHead (c :: ·) = [c :: s]) : pieces = [s] := by
  cases pieces with
  | nil => cases h
  | cons x xs => simpa using h

/-- A text without a free comma joins the first piece of what follows. -/
theorem piecesFrom_append {state : σ} {s : Text} (h : scanner.piecesFrom state s = [s]) (t : Text) :
    scanner.piecesFrom state (s ++ t) =
      (scanner.piecesFrom (scanner.run state s) t).modifyHead (s ++ ·) := by
  induction s generalizing state with
  | nil => exact (congrFun List.modifyHead_id _).symm
  | cons c s ih =>
    by_cases hc : c = ',' ∧ scanner.free state = true
    · rw [hc.1, piecesFrom_comma hc.2] at h
      simp at h
    · have hf : c = ',' → scanner.free state = false := by simpa using hc
      rw [piecesFrom_cons hf] at h
      rw [List.cons_append, piecesFrom_cons hf, ih (eq_singleton_of_modifyHead h),
        List.modifyHead_modifyHead]
      rfl

/-- A scan goes from one state to another over a text and cuts it nowhere. -/
structure Passes (scanner : Scanner σ) (state : σ) (s : Text) (next : σ) : Prop where
  run : scanner.run state s = next
  whole : scanner.piecesFrom state s = [s]

theorem Passes.nil (state : σ) : scanner.Passes state [] state := ⟨rfl, rfl⟩

theorem Passes.append {state middle next : σ} {s t : Text} (hs : scanner.Passes state s middle)
    (ht : scanner.Passes middle t next) : scanner.Passes state (s ++ t) next where
  run := by rw [run_append, hs.run, ht.run]
  whole := by
    rw [piecesFrom_append hs.whole, hs.run, ht.whole]
    rfl

/-- A state that no character of a text changes is passed by, if the text has no comma or the state is
not free. -/
theorem passes_of_step {state : σ} {s : Text} (hstep : ∀ c ∈ s, scanner.step state c = state)
    (hf : ',' ∈ s → scanner.free state = false) : scanner.Passes state s state := by
  induction s with
  | nil => exact .nil state
  | cons c s ih =>
    obtain ⟨hc, hs⟩ := List.forall_mem_cons.1 hstep
    have hrest := ih hs fun hm => hf (List.mem_cons_of_mem c hm)
    refine ⟨by rw [run_cons, hc, hrest.run], ?_⟩
    rw [piecesFrom_cons fun he => hf (he ▸ List.mem_cons_self), hc, hrest.whole]
    rfl

/-- The beginning of a text without a free comma has none either. -/
theorem piecesFrom_of_append {state : σ} {s t : Text}
    (h : scanner.piecesFrom state (s ++ t) = [s ++ t]) : scanner.piecesFrom state s = [s] := by
  induction s generalizing state with
  | nil => rfl
  | cons c s ih =>
    by_cases hc : c = ',' ∧ scanner.free state = true
    · rw [hc.1, List.cons_append, piecesFrom_comma hc.2] at h
      simp at h
    · have hf : c = ',' → scanner.free state = false := by simpa using hc
      rw [List.cons_append, piecesFrom_cons hf] at h
      rw [piecesFrom_cons hf, ih (eq_singleton_of_modifyHead h)]
      rfl

/-- A text without a free comma, that ends in a free state, is the first piece before a comma. -/
theorem pieces_append_comma {s : Text} (h : scanner.pieces s = [s])
    (hf : scanner.free (scanner.run scanner.start s) = true) (t : Text) :
    scanner.pieces (s ++ ',' :: t) = s :: scanner.pieces t := by
  rw [pieces, piecesFrom_append h, piecesFrom_comma hf]
  simp

/-- Behind a free comma the scan is where it began. -/
def Restarts (scanner : Scanner σ) : Prop :=
  ∀ state, scanner.free state = true → scanner.step state ',' = scanner.start

theorem piecesFrom_ne_nil (state : σ) (s : Text) : scanner.piecesFrom state s ≠ [] := by
  induction s generalizing state with
  | nil => exact List.cons_ne_nil _ _
  | cons c s ih =>
    rw [piecesFrom]
    split
    · exact List.cons_ne_nil _ _
    · exact fun h => ih _ (List.modifyHead_eq_nil_iff.1 h)

/-- A comma in a free state divides a text, if the scan can be begun anew there. -/
theorem piecesFrom_append_comma (hr : scanner.Restarts) {state : σ} {s : Text}
    (hf : scanner.free (scanner.run state s) = true) (t : Text) :
    scanner.piecesFrom state (s ++ ',' :: t) = scanner.piecesFrom state s ++ scanner.pieces t := by
  induction s generalizing state with
  | nil => exact piecesFrom_comma hf t
  | cons c s ih =>
    by_cases hc : c = ',' ∧ scanner.free state = true
    · obtain ⟨rfl, hs⟩ := hc
      rw [run_cons, hr state hs] at hf
      rw [List.cons_append, piecesFrom_comma hs, piecesFrom_comma hs, pieces, ih hf]
      rfl
    · have hn : c = ',' → scanner.free state = false := by simpa using hc
      obtain ⟨p, ps, hp⟩ := List.exists_cons_of_ne_nil
        (scanner.piecesFrom_ne_nil (scanner.step state c) s)
      rw [List.cons_append, piecesFrom_cons hn, piecesFrom_cons hn, ih hf, hp]
      rfl

theorem free_eq_false_of_comma {state : σ} {c : Char} {s : Text}
    (h : scanner.free state = true → afterStart? [','] (c :: s) = none) (hc : c = ',') :
    scanner.free state = false := by
  subst hc
  refine Bool.eq_false_iff.2 fun hf => ?_
  have hs := h hf
  rw [show ',' :: s = [','] ++ s from rfl, afterStart?_append] at hs
  cases hs

/-- The first piece is what is cut off at the first free comma, and the others are those of the rest. -/
theorem piecesFrom_of_cutFrom? {state : σ} {before rest s : Text}
    (h : scanner.cutFrom? [','] state s = some (before, rest)) :
    scanner.piecesFrom state s = before :: scanner.pieces rest := by
  induction s generalizing state before with
  | nil => cases h
  | cons c s ih =>
    obtain ⟨hf, rfl, he⟩ | ⟨hn, before, rfl, hr⟩ := cutFrom?_cons_eq_some h
    · obtain ⟨rfl, rfl⟩ := List.cons.inj he
      exact piecesFrom_comma hf _
    · rw [piecesFrom_cons (free_eq_false_of_comma hn), ih hr]
      rfl

theorem piecesFrom_of_cutFrom?_eq_none {state : σ} {s : Text}
    (h : scanner.cutFrom? [','] state s = none) : scanner.piecesFrom state s = [s] := by
  induction s generalizing state with
  | nil => rfl
  | cons c s ih =>
    obtain ⟨hn, hr⟩ := of_cutFrom?_cons_eq_none h
    rw [piecesFrom_cons (free_eq_false_of_comma hn), ih hr]
    rfl

/-- A text is one piece, or it is cut at its first free comma and the rest is cut from there. -/
theorem piecesFrom_cases (state : σ) (s : Text) :
    scanner.piecesFrom state s = [s] ∨ ∃ before rest, s = before ++ ',' :: rest ∧
      scanner.piecesFrom state before = [before] ∧
        scanner.free (scanner.run state before) = true := by
  cases hc : scanner.cutFrom? [','] state s with
  | none => exact .inl (piecesFrom_of_cutFrom?_eq_none hc)
  | some cut =>
    obtain ⟨before, rest⟩ := cut
    have ho := occurs_of_cutFrom? hc
    have hbefore := piecesFrom_of_cutFrom?_eq_none (cutFrom?_before (List.cons_ne_nil ',' []) hc)
    refine .inr ⟨before, rest, ?_, hbefore, ho.free⟩
    rw [← ho.text, List.append_assoc, List.singleton_append]

end Scanner

theorem dropEndWhile_eq_rdropWhile (p : Char → Bool) (s : Text) :
    dropEndWhile p s = s.rdropWhile p := by
  induction s with
  | nil => rfl
  | cons c s ih =>
    rw [dropEndWhile, ih, List.rdropWhile, List.rdropWhile, List.reverse_cons, List.dropWhile_append]
    cases hd : s.reverse.dropWhile p with
    | nil => by_cases hc : p c <;> simp [hc]
    | cons d kept =>
      have hne : (d :: kept).reverse ≠ [] := by simp
      obtain ⟨x, xs, hx⟩ := List.exists_cons_of_ne_nil hne
      simp only [List.isEmpty_cons, Bool.false_eq_true, if_false, List.reverse_append, hx]
      rfl

theorem dropEndWhile_cons {p : Char → Bool} {c : Char} (h : p c = false) (s : Text) :
    dropEndWhile p (c :: s) = c :: dropEndWhile p s := by
  rw [dropEndWhile]
  cases dropEndWhile p s with
  | nil => simp [h]
  | cons d kept => rfl

theorem trimStart_cons {c : Char} (h : isBlank c = false) (s : Text) :
    trimStart (c :: s) = c :: s := by
  simp [trimStart, h]

theorem trimStart_eq_self {s : Text} (h : ∀ c ∈ s.head?, isBlank c = false) : trimStart s = s := by
  cases s with
  | nil => rfl
  | cons c s => exact trimStart_cons (h c rfl) s

theorem trimEnd_concat {c : Char} (h : isBlank c = false) (s : Text) :
    trimEnd (s ++ [c]) = s ++ [c] := by
  rw [trimEnd, dropEndWhile_eq_rdropWhile, List.rdropWhile_concat, h]
  rfl

theorem trimEnd_concat_blank {c : Char} (h : isBlank c = true) (s : Text) :
    trimEnd (s ++ [c]) = trimEnd s := by
  rw [trimEnd, dropEndWhile_eq_rdropWhile, List.rdropWhile_concat_pos _ _ _ h,
    ← dropEndWhile_eq_rdropWhile, ← trimEnd]

theorem trimEnd_append_blank {b : Text} (h : ∀ c ∈ b, isBlank c = true) (s : Text) :
    trimEnd (s ++ b) = trimEnd s := by
  induction b using List.reverseRecOn with
  | nil => rw [List.append_nil]
  | append_singleton b c ih =>
    obtain ⟨hb, hc⟩ := List.forall_mem_append.1 h
    rw [← List.append_assoc, trimEnd_concat_blank (hc c List.mem_cons_self), ih hb]

theorem trimStart_of_blank {b : Text} (h : ∀ c ∈ b, isBlank c = true) : trimStart b = [] :=
  List.dropWhile_eq_nil_iff.2 h

/-- Blanks around a text are trimmed away with its own. -/
theorem trim_between {a b : Text} (ha : ∀ c ∈ a, isBlank c = true) (hb : ∀ c ∈ b, isBlank c = true)
    (s : Text) : trim (a ++ s ++ b) = trim s := by
  rw [trim, trimStart, List.append_assoc, List.dropWhile_append_of_pos ha, List.dropWhile_append,
    ← trimStart, ← trimStart]
  cases hs : trimStart s with
  | nil =>
    rw [List.isEmpty_nil, if_pos rfl, trimStart_of_blank hb, trim, hs]
  | cons c t =>
    rw [List.isEmpty_cons, if_neg Bool.false_ne_true, trimEnd_append_blank hb, trim, hs]

/-- Trimming drops blanks at the beginning only. -/
theorem exists_append_trimStart (s : Text) :
    ∃ b, (∀ c ∈ b, isBlank c = true) ∧ s = b ++ trimStart s :=
  ⟨s.takeWhile isBlank, fun _ => List.mem_takeWhile_imp, List.takeWhile_append_dropWhile.symm⟩

theorem trimEnd_isPrefix (s : Text) : trimEnd s <+: s := by
  rw [trimEnd, dropEndWhile_eq_rdropWhile]
  exact List.rdropWhile_prefix isBlank s

theorem isBlank_of_mem_head?_trimStart {c : Char} {s : Text} (h : c ∈ (trimStart s).head?) :
    isBlank c = false := by
  have := List.head?_dropWhile_not isBlank s
  rw [trimStart] at h
  simpa [Option.mem_def.1 h] using this

theorem isBlank_of_mem_getLast?_trimEnd {c : Char} {s : Text} (h : c ∈ (trimEnd s).getLast?) :
    isBlank c = false := by
  rw [trimEnd, dropEndWhile_eq_rdropWhile, List.rdropWhile, List.getLast?_reverse] at h
  have := List.head?_dropWhile_not isBlank s.reverse
  simpa [Option.mem_def.1 h] using this

theorem trimEnd_eq_self {s : Text} (h : ∀ c ∈ s.getLast?, isBlank c = false) : trimEnd s = s := by
  induction s using List.reverseRecOn with
  | nil => rfl
  | append_singleton s c => exact trimEnd_concat (h c (by simp)) s

/-- Only blank texts are trimmed to nothing. -/
theorem trim_ne_nil {c : Char} {s : Text} (hm : c ∈ s) (hc : isBlank c = false) : trim s ≠ [] := by
  have hs : trimStart s ≠ [] := by
    intro he
    rw [List.dropWhile_eq_nil_iff.1 he c hm] at hc
    cases hc
  obtain ⟨d, t, hd⟩ := List.exists_cons_of_ne_nil hs
  have hblank : isBlank d = false := isBlank_of_mem_head?_trimStart (s := s) (by rw [hd]; rfl)
  rw [trim, hd, trimEnd, dropEndWhile_cons hblank]
  exact List.cons_ne_nil _ _

/-- A trimmed text neither begins nor ends with a blank. -/
theorem isBlank_of_mem_head?_trim {c : Char} {s : Text} (h : c ∈ (trim s).head?) :
    isBlank c = false := by
  obtain ⟨t, ht⟩ := trimEnd_isPrefix (trimStart s)
  refine isBlank_of_mem_head?_trimStart (s := s) ?_
  rw [← ht, List.head?_append, ← trim, Option.mem_def.1 h]
  rfl

theorem trim_trim (s : Text) : trim (trim s) = trim s := by
  have hs : trimStart (trim s) = trim s := trimStart_eq_self fun _ => isBlank_of_mem_head?_trim
  rw [trim, hs]
  exact trimEnd_eq_self fun _ => isBlank_of_mem_getLast?_trimEnd

/-- A text that begins and ends with characters that are not blank is trimmed already. -/
theorem trim_eq_self {c d : Char} {s : Text} (hc : isBlank c = false) (hd : isBlank d = false) :
    trim (c :: s ++ [d]) = c :: s ++ [d] := by
  rw [trim, List.cons_append, trimStart_cons hc, ← List.cons_append, trimEnd_concat hd]

end Implementors.Text
