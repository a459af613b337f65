import Implementors.Proofs.Text.Cutting
import Implementors.Text.Literal
import Mathlib

/-!
# Spelled literals

The grammar of JSON for the text between the quotes of a literal: every character has several
spellings, and a text is spelled character by character. Every spelling is read back, with blanks
around the quotes, and a list of literals with commas between them gives the texts in their order.
-/
namespace Implementors.Text.Literal

/-- The characters behind a backslash, and what they stand for. -/
def shortEscapes : List (Char × Char) :=
  [('"', '"'), ('\\', '\\'), ('/', '/'), ('b', '\x08'), ('f', '\x0c'), ('n', '\n'), ('r', '\r'),
    ('t', '\t')]

/-- A hexadecimal digit, of either case, and its value. -/
def HexDigit (digit : Char) (value : Nat) : Prop :=
  value < 16 ∧ (digit = Nat.digitChar value ∨ digit = (Nat.digitChar value).toUpper)

instance (digit : Char) (value : Nat) : Decidable (HexDigit digit value) :=
  inferInstanceAs (Decidable (_ ∧ _))

/-- Four hexadecimal digits and the code unit with that number. -/
inductive CodeUnit : Text → Nat → Prop
  | mk {a b c d : Char} {i j k l : Nat} : HexDigit a i → HexDigit b j → HexDigit c k → HexDigit d l →
      CodeUnit [a, b, c, d] (((i * 16 + j) * 16 + k) * 16 + l)

/-- The spellings of one character. -/
inductive SpellsChar : Text → Char → Prop
  | itself {c : Char} : c ≠ '"' → c ≠ '\\' → 0x20 ≤ c.toNat → SpellsChar [c] c
  | short {e c : Char} : (e, c) ∈ shortEscapes → SpellsChar ['\\', e] c
  | unit {digits : Text} {c : Char} : CodeUnit digits c.toNat → SpellsChar ('\\' :: 'u' :: digits) c
  | pair {high low : Text} {c : Char} : 0x10000 ≤ c.toNat →
      CodeUnit high (0xD800 + (c.toNat - 0x10000) / 0x400) →
      CodeUnit low (0xDC00 + (c.toNat - 0x10000) % 0x400) →
      SpellsChar ('\\' :: 'u' :: high ++ '\\' :: 'u' :: low) c

/-- The spellings of a text. -/
inductive Spells : Text → Text → Prop
  | nil : Spells [] []
  | cons {w u s : Text} {c : Char} : SpellsChar w c → Spells u s → Spells (w ++ u) (c :: s)

/-- A text without quotes, backslashes and control characters is spelled by itself. -/
theorem spells_self {s : Text} (h : ∀ c ∈ s, c ≠ '"' ∧ c ≠ '\\' ∧ 0x20 ≤ c.toNat) : Spells s s := by
  induction s with
  | nil => exact .nil
  | cons c s ih =>
    obtain ⟨⟨hq, hb, hc⟩, hs⟩ := List.forall_mem_cons.1 h
    exact .cons (.itself hq hb hc) (ih hs)

theorem digitValue?_of_hexDigit {digit : Char} {value : Nat} (h : HexDigit digit value) :
    digitValue? 16 digit = some value := by
  have key : ∀ v < 16, digitValue? 16 (Nat.digitChar v) = some v ∧
      digitValue? 16 (Nat.digitChar v).toUpper = some v := by
    decide
  obtain ⟨hv, rfl | rfl⟩ := h
  · exact (key value hv).1
  · exact (key value hv).2

theorem CodeUnit.ofDigits? {digits : Text} {n : Nat} (h : CodeUnit digits n) :
    ofDigits? 16 digits = some n := by
  obtain ⟨ha, hb, hc, hd⟩ := h
  simp only [Text.ofDigits?, digitsFrom?, digitValue?_of_hexDigit ha, digitValue?_of_hexDigit hb,
    digitValue?_of_hexDigit hc, digitValue?_of_hexDigit hd, Option.bind_eq_bind, Option.bind_some,
    Nat.zero_mul, Nat.zero_add]

theorem hexDigit_ne_mark {digit : Char} {value : Nat} (h : HexDigit digit value) :
    0x20 ≤ digit.toNat ∧ digit ≠ '"' ∧ digit ≠ '\\' := by
  have key : ∀ v < 16, ∀ d ∈ [Nat.digitChar v, (Nat.digitChar v).toUpper],
      0x20 ≤ d.toNat ∧ d ≠ '"' ∧ d ≠ '\\' := by
    intro v hv
    exact List.all_iff_forall_prop.1 (by revert v; decide)
  obtain ⟨hv, hd⟩ := h
  exact key value hv digit (by simpa using hd)

/-- A character is no surrogate, and numbered below the last plane's end. -/
theorem toNat_cases (c : Char) :
    c.toNat < 0xD800 ∨ (0xE000 ≤ c.toNat ∧ c.toNat < 0x110000) := by
  obtain h | ⟨h₁, h₂⟩ := c.valid
  · exact .inl h
  · exact .inr ⟨h₁, h₂⟩

theorem parts?_itself {c : Char} (hq : c ≠ '"') (hb : c ≠ '\\') (hc : 0x20 ≤ c.toNat) (t : Text) :
    parts? (c :: t) = (parts? t).map fun r => (.char c :: r.1, r.2) := by
  rw [parts?.eq_def]
  split <;> simp_all [Option.map_eq_bind]

theorem parts?_short {e c : Char} (hu : e ≠ 'u') (he : escaped? e = some c) (t : Text) :
    parts? ('\\' :: e :: t) = (parts? t).map fun r => (.char c :: r.1, r.2) := by
  rw [parts?]
  · simp [he, Option.map_eq_bind]
  · rintro _ _ _ _ _ rfl
    exact absurd rfl hu

theorem parts?_unit {digits : Text} {n : Nat} (h : CodeUnit digits n) (t : Text) :
    parts? ('\\' :: 'u' :: digits ++ t) = (parts? t).map fun r => (.unit n :: r.1, r.2) := by
  have hn := h.ofDigits?
  obtain ⟨ha, hb, hc, hd⟩ := h
  simp only [List.cons_append, List.nil_append]
  rw [parts?, hn]
  simp [Option.map_eq_bind]

theorem joinUnits?_unit {n : Nat} (h : n < 0xD800 ∨ 0xE000 ≤ n) (parts : List Part) :
    joinUnits? (.unit n :: parts) = (joinUnits? parts).map (Char.ofNat n :: ·) := by
  rw [joinUnits?.eq_def]
  simp only
  rw [if_neg (by omega), if_neg (by omega)]

/-- A character beyond the first plane is joined from its two surrogates. -/
theorem joinUnits?_pair {c : Char} (h : 0x10000 ≤ c.toNat) (parts : List Part) :
    joinUnits? (.unit (0xD800 + (c.toNat - 0x10000) / 0x400) ::
        .unit (0xDC00 + (c.toNat - 0x10000) % 0x400) :: parts) =
      (joinUnits? parts).map (c :: ·) := by
  have hc := toNat_cases c
  have hnumber : 0x10000 + (0xD800 + (c.toNat - 0x10000) / 0x400 - 0xD800) * 0x400 +
      (0xDC00 + (c.toNat - 0x10000) % 0x400 - 0xDC00) = c.toNat := by
    omega
  rw [joinUnits?.eq_def]
  simp only
  rw [if_pos (by omega), if_pos (by omega), hnumber, Char.ofNat_toNat]

/-- A character is read back from each of its spellings, whatever parts and characters follow. -/
theorem SpellsChar.parts? {w : Text} {c : Char} (h : SpellsChar w c) : ∃ parts,
    (∀ t, parts? (w ++ t) = (parts? t).map fun r => (parts ++ r.1, r.2)) ∧
      ∀ more, joinUnits? (parts ++ more) = (joinUnits? more).map (c :: ·) := by
  cases h with
  | itself hq hb hc => exact ⟨[.char c], parts?_itself hq hb hc, fun _ => rfl⟩
  | @short e _ he =>
    have key : ∀ p ∈ shortEscapes, p.1 ≠ 'u' ∧ escaped? p.1 = some p.2 :=
      List.all_iff_forall_prop.1 (by decide)
    exact ⟨[.char c], parts?_short (key _ he).1 (key _ he).2, fun _ => rfl⟩
  | unit hd =>
    refine ⟨[.unit c.toNat], parts?_unit hd, fun more => ?_⟩
    have hj := joinUnits?_unit (n := c.toNat) (by have := toNat_cases c; omega) more
    rwa [Char.ofNat_toNat] at hj
  | pair hc hh hl =>
    refine ⟨[.unit _, .unit _], fun t => ?_, joinUnits?_pair hc⟩
    rw [List.append_assoc, parts?_unit hh, List.cons_append, List.cons_append, ← List.cons_append,
      ← List.cons_append, parts?_unit hl, Option.map_map]
    rfl

/-- The parts of a spelled text join to that text again. -/
theorem Spells.parts? {u s : Text} (h : Spells u s) : ∃ parts,
    (∀ t, parts? (u ++ t) = (parts? t).map fun r => (parts ++ r.1, r.2)) ∧
      ∀ more, joinUnits? (parts ++ more) = (joinUnits? more).map (s ++ ·) := by
  induction h with
  | nil => exact ⟨[], fun t => by simp, fun more => by simp⟩
  | cons hw _ ih =>
    obtain ⟨first, hf, hjf⟩ := hw.parts?
    obtain ⟨parts, hs, hjs⟩ := ih
    refine ⟨first ++ parts, fun t => ?_, fun more => ?_⟩
    · rw [List.append_assoc, hf, hs, Option.map_map]
      simp [Function.comp_def]
    · rw [List.append_assoc, hjf, hjs, Option.map_map]
      rfl

theorem dropWhile_isSpace {blanks : Text} (h : ∀ c ∈ blanks, isSpace c = true) (u : Text) :
    (blanks ++ '"' :: u).dropWhile isSpace = '"' :: u := by
  rw [List.dropWhile_append_of_pos h, List.dropWhile_cons_of_neg (by decide)]

/-- Every spelling between quotes is read, with blanks around it. -/
theorem Spells.read? {u s before after : Text} (h : Spells u s)
    (hb : ∀ c ∈ before, isSpace c = true) (ha : ∀ c ∈ after, isSpace c = true) :
    read? (before ++ '"' :: (u ++ '"' :: after)) = some s := by
  obtain ⟨parts, hs, hj⟩ := h.parts?
  have hp : Literal.parts? (u ++ '"' :: after) = some (parts, after) := by
    rw [hs, show Literal.parts? ('"' :: after) = some ([], after) by rw [Literal.parts?],
      Option.map_some, List.append_nil]
  have hr : joinUnits? parts = some s := by simpa [joinUnits?] using hj []
  have hall : after.all isSpace = true := List.all_eq_true.2 ha
  rw [Literal.read?, dropWhile_isSpace hb]
  simp only [hp, Option.bind_eq_bind, Option.bind_some, hall, if_true, hr]

/-- A literal has to be closed. -/
theorem Spells.read?_unclosed {u s before : Text} (h : Spells u s)
    (hb : ∀ c ∈ before, isSpace c = true) : Literal.read? (before ++ '"' :: u) = none := by
  obtain ⟨parts, hs, -⟩ := h.parts?
  have hp : Literal.parts? u = none := by
    rw [← List.append_nil u, hs, show Literal.parts? [] = none from rfl, Option.map_none]
  rw [Literal.read?, dropWhile_isSpace hb]
  simp only [hp, Option.bind_eq_bind, Option.bind_none]

theorem CodeUnit.printable {digits : Text} {n : Nat} (h : CodeUnit digits n) :
    ∀ d ∈ digits, 0x20 ≤ d.toNat := by
  obtain ⟨ha, hb, hc, hd⟩ := h
  simp [(hexDigit_ne_mark ha).1, (hexDigit_ne_mark hb).1, (hexDigit_ne_mark hc).1,
    (hexDigit_ne_mark hd).1]

/-- No spelling holds a control character, and so no line end. -/
theorem SpellsChar.printable {w : Text} {c : Char} (h : SpellsChar w c) :
    ∀ d ∈ w, 0x20 ≤ d.toNat := by
  have hb : 0x20 ≤ '\\'.toNat := by decide
  have hu : 0x20 ≤ 'u'.toNat := by decide
  cases h with
  | itself _ _ hc => simpa using hc
  | short he =>
    have key : ∀ p ∈ shortEscapes, 0x20 ≤ p.1.toNat := List.all_iff_forall_prop.1 (by decide)
    exact List.forall_mem_cons.2 ⟨hb, List.forall_mem_singleton.2 (key _ he)⟩
  | unit hd => exact List.forall_mem_cons.2 ⟨hb, List.forall_mem_cons.2 ⟨hu, hd.printable⟩⟩
  | pair _ hh hl =>
    refine List.forall_mem_append.2 ⟨?_, ?_⟩
    · exact List.forall_mem_cons.2 ⟨hb, List.forall_mem_cons.2 ⟨hu, hh.printable⟩⟩
    · exact List.forall_mem_cons.2 ⟨hb, List.forall_mem_cons.2 ⟨hu, hl.printable⟩⟩

theorem Spells.printable {u s : Text} (h : Spells u s) : ∀ d ∈ u, 0x20 ≤ d.toNat := by
  induction h with
  | nil => exact nofun
  | cons hw _ ih => exact List.forall_mem_append.2 ⟨hw.printable, ih⟩

/-- The scan of an array stays inside a literal over characters that are no quotes and no backslashes. -/
theorem passes_inside {w : Text} (h : ∀ c ∈ w, c ≠ '"' ∧ c ≠ '\\') :
    outside.Passes .inside w .inside :=
  Scanner.passes_of_step (fun c hc => by simp [outside, Place.step, h c hc]) fun _ => rfl

theorem passes_escape (e : Char) : outside.Passes .inside ['\\', e] .inside :=
  ⟨rfl, by simp [outside, Scanner.piecesFrom, Place.step]⟩

theorem CodeUnit.passes {digits : Text} {n : Nat} (h : CodeUnit digits n) :
    outside.Passes .inside digits .inside := by
  apply passes_inside
  obtain ⟨ha, hb, hc, hd⟩ := h
  simp [hexDigit_ne_mark ha, hexDigit_ne_mark hb, hexDigit_ne_mark hc, hexDigit_ne_mark hd]

/-- The scan stays inside the literal over every spelling of a character. -/
theorem SpellsChar.passes {w : Text} {c : Char} (h : SpellsChar w c) :
    outside.Passes .inside w .inside := by
  cases h with
  | itself hq hb _ => exact passes_inside (List.forall_mem_singleton.2 ⟨hq, hb⟩)
  | short _ => exact passes_escape _
  | unit hd => exact (passes_escape 'u').append hd.passes
  | pair _ hh hl =>
    exact ((passes_escape 'u').append hh.passes).append ((passes_escape 'u').append hl.passes)

theorem Spells.passes {u s : Text} (h : Spells u s) : outside.Passes .inside u .inside := by
  induction h with
  | nil => exact .nil _
  | cons hw _ ih => exact hw.passes.append ih

/-- Spaces and tabs. -/
def IsGap (s : Text) : Prop := ∀ c ∈ s, c = ' ' ∨ c = '\t'

instance (s : Text) : Decidable (IsGap s) := List.decidableBAll _ s

theorem isGap_nil : IsGap [] := nofun

theorem IsGap.isSpace {s : Text} (h : IsGap s) : ∀ c ∈ s, isSpace c = true := by
  intro c hc
  obtain rfl | rfl := h c hc <;> rfl

theorem IsGap.isBlank {s : Text} (h : IsGap s) : ∀ c ∈ s, isBlank c = true := by
  intro c hc
  obtain rfl | rfl := h c hc <;> rfl

theorem IsGap.not_mem {s : Text} (h : IsGap s) {c : Char} (hs : c ≠ ' ') (ht : c ≠ '\t') : c ∉ s :=
  fun hc => (h c hc).elim hs ht

theorem IsGap.passes {s : Text} (h : IsGap s) : outside.Passes .outside s .outside := by
  refine Scanner.passes_of_step (fun c hc => ?_) fun hm => absurd hm (h.not_mem (by decide) (by decide))
  obtain rfl | rfl := h c hc <;> rfl

/-- A literal for a text, with gaps around it. -/
inductive Spaced : Text → Text → Prop
  | mk {before u after s : Text} : IsGap before → Spells u s → IsGap after →
      Spaced (before ++ '"' :: (u ++ '"' :: after)) s

theorem Spaced.read? {w s : Text} (h : Spaced w s) : Literal.read? w = some s := by
  obtain ⟨hb, hu, ha⟩ := h
  exact hu.read? hb.isSpace ha.isSpace

theorem Spaced.newline_not_mem {w s : Text} (h : Spaced w s) : '\n' ∉ w := by
  obtain ⟨hb, hu, ha⟩ := h
  have hm : '\n' ∉ _ := fun hn => absurd (hu.printable _ hn) (by decide)
  simp [hb.not_mem, ha.not_mem, hm]

/-- A literal is one piece of an array, after which the scan is outside again. -/
theorem Spaced.passes {w s : Text} (h : Spaced w s) : outside.Passes .outside w .outside := by
  obtain ⟨hb, hu, ha⟩ := h
  have hopen : outside.Passes .outside ['"'] .inside := ⟨rfl, by decide⟩
  have hclose : outside.Passes .inside ['"'] .outside := ⟨rfl, by decide⟩
  exact hb.passes.append (hopen.append (hu.passes.append (hclose.append ha.passes)))

/-- One or more literals with gaps around them and commas between them. -/
inductive Items : Text → List Text → Prop
  | one {w item : Text} : Spaced w item → Items w [item]
  | cons {w item t : Text} {items : List Text} : Spaced w item → Items t items →
      Items (w ++ ',' :: t) (item :: items)

theorem Items.mapM_read? {t : Text} {items : List Text} (h : Items t items) :
    (outside.pieces t).mapM Literal.read? = some items := by
  induction h with
  | @one w item hw =>
    have hone : outside.pieces w = [w] := hw.passes.whole
    simp [hone, hw.read?]
  | cons hw _ ih =>
    have hfree : outside.free (outside.run outside.start _) = true := congrArg outside.free hw.passes.run
    rw [Scanner.pieces_append_comma hw.passes.whole hfree]
    simp [hw.read?, ih]

theorem Items.quote_mem {t : Text} {items : List Text} (h : Items t items) : '"' ∈ t := by
  have hs : ∀ {w s : Text}, Spaced w s → '"' ∈ w := by
    rintro _ _ ⟨-, -, -⟩
    simp
  cases h with
  | one hw => exact hs hw
  | cons hw _ => exact List.mem_append_left _ (hs hw)

theorem Items.newline_not_mem {t : Text} {items : List Text} (h : Items t items) : '\n' ∉ t := by
  induction h with
  | one hw => exact hw.newline_not_mem
  | cons hw _ ih => simp [hw.newline_not_mem, ih]

/-- Listed literals are read as the texts that they stand for. -/
theorem Items.readItems? {t : Text} {items : List Text} (h : Items t items) :
    Literal.readItems? t = some items := by
  have hs : ¬ t.all Literal.isSpace = true := fun hall =>
    absurd (List.all_eq_true.1 hall _ h.quote_mem) (by decide)
  rw [Literal.readItems?, if_neg hs, h.mapM_read?]

/-- Without the last gap the list ends with a quote. -/
theorem Items.trimEnd {t : Text} {items : List Text} (h : Items t items) :
    ∃ body, Text.trimEnd t = body ++ ['"'] ∧ Items (body ++ ['"']) items := by
  have hgap : ∃ body after, t = body ++ '"' :: after ∧ IsGap after ∧
      Items (body ++ ['"']) items := by
    induction h with
    | one hw =>
      obtain @⟨before, u, after, _, hb, hu, ha⟩ := hw
      refine ⟨before ++ '"' :: u, after, by simp, ha, ?_⟩
      simpa using Items.one (.mk hb hu isGap_nil)
    | @cons w _ t _ hw _ ih =>
      obtain ⟨body, after, rfl, ha, hi⟩ := ih
      refine ⟨w ++ ',' :: body, after, by simp, ha, ?_⟩
      simpa using Items.cons hw hi
  obtain ⟨body, after, rfl, ha, hi⟩ := hgap
  refine ⟨body, ?_, hi⟩
  rw [List.append_cons, trimEnd_append_blank ha.isBlank, trimEnd_concat (by decide)]

end Implementors.Text.Literal
