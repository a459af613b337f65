import Implementors.Fragment.Reader
import Implementors.Proofs.Text.Lines
import Mathlib

/-!
# The first faulty line

Reading a fragment fails just if the opening is missing or a line begins like an assignment and is
none. The first such line is reported, by its number in the source as given: one more than there are
line ends before it. What follows the line makes no difference.
-/
namespace Implementors.Fragment

open Text

/-- What is wrong with a line, if it begins like an assignment and is none. -/
def lineFault? (line : Text) : Option LineFault :=
  match (assignmentOf? line).map readAssignment with
  | some (.error fault) => some fault
  | _ => none

/-- The line begins like an assignment, blanks aside, and is refused as one. -/
def Refused (line : Text) (fault : LineFault) : Prop :=
  ∃ assigned, trim line = assignmentStart ++ assigned ∧ readAssignment assigned = .error fault

theorem lineFault?_eq_some_iff {line : Text} {fault : LineFault} :
    lineFault? line = some fault ↔ Refused line fault := by
  constructor
  · intro h
    unfold lineFault? at h
    split at h
    · next hr =>
      cases h
      obtain ⟨assigned, ha, hr⟩ := Option.map_eq_some_iff.1 hr
      exact ⟨assigned, (afterStart?_eq_some_iff.1 ha).symm, hr⟩
    · cases h
  · rintro ⟨assigned, ht, hr⟩
    have ha : assignmentOf? line = some assigned := afterStart?_eq_some_iff.2 ht.symm
    rw [lineFault?, ha, Option.map_some, hr]

instance (line : Text) (fault : LineFault) : Decidable (Refused line fault) :=
  decidable_of_iff _ lineFault?_eq_some_iff

theorem lineFault?_eq_none_iff {line : Text} :
    lineFault? line = none ↔ ∀ fault, ¬ Refused line fault := by
  rw [Option.eq_none_iff_forall_ne_some]
  exact forall_congr' fun fault => not_congr lineFault?_eq_some_iff

theorem readLines_refused {line : Text} {fault : LineFault} (h : lineFault? line = some fault)
    (number : Nat) (f : Fragment) (rest : List Text) :
    readLines number f (line :: rest) = .error (.badLine number fault) := by
  obtain ⟨assigned, ht, hr⟩ := lineFault?_eq_some_iff.1 h
  have ha : assignmentOf? line = some assigned := afterStart?_eq_some_iff.2 ht.symm
  rw [readLines, ha]
  simp only [hr]

theorem readLines_accepted {line : Text} (h : lineFault? line = none) (number : Nat) (f : Fragment) :
    ∃ g, ∀ rest, readLines number f (line :: rest) = readLines (number + 1) g rest := by
  cases ha : assignmentOf? line with
  | none => exact ⟨f, fun rest => by rw [readLines, ha]⟩
  | some assigned =>
    cases hr : readAssignment assigned with
    | error fault => simp [lineFault?, ha, hr] at h
    | ok e =>
      refine ⟨f.assign e.1 e.2, fun rest => ?_⟩
      rw [readLines, ha]
      simp only [hr]

/-- Reading lines fails just if one of them is refused, and then with the first of these. -/
theorem readLines_eq_error_iff {number : Nat} {f : Fragment} {lines : List Text} {e : ReadError} :
    readLines number f lines = .error e ↔ ∃ earlier line later fault,
      lines = earlier ++ line :: later ∧ (∀ l ∈ earlier, lineFault? l = none) ∧
        lineFault? line = some fault ∧ e = .badLine (number + earlier.length) fault := by
  induction lines generalizing number f with
  | nil =>
    constructor
    · intro h
      cases h
    · rintro ⟨earlier, line, later, fault, h, -⟩
      cases earlier <;> cases h
  | cons l lines ih =>
    cases hl : lineFault? l with
    | some fault =>
      rw [readLines_refused hl]
      constructor
      · rintro ⟨⟩
        exact ⟨[], l, lines, fault, rfl, nofun, hl, rfl⟩
      · rintro ⟨earlier, line, later, fault', h, hnone, hline, rfl⟩
        cases earlier with
        | nil =>
          obtain ⟨rfl, -⟩ := List.cons.inj h
          rw [hl, Option.some.injEq] at hline
          rw [hline]
          rfl
        | cons k earlier =>
          obtain ⟨rfl, -⟩ := List.cons.inj h
          rw [hnone l List.mem_cons_self] at hl
          cases hl
    | none =>
      obtain ⟨g, hg⟩ := readLines_accepted hl number f
      rw [hg, ih]
      constructor
      · rintro ⟨earlier, line, later, fault, rfl, hnone, hline, rfl⟩
        refine ⟨l :: earlier, line, later, fault, rfl, List.forall_mem_cons.2 ⟨hl, hnone⟩, hline, ?_⟩
        rw [List.length_cons, Nat.add_assoc, Nat.add_comm 1]
      · rintro ⟨earlier, line, later, fault, h, hnone, hline, rfl⟩
        cases earlier with
        | nil =>
          obtain ⟨rfl, -⟩ := List.cons.inj h
          rw [hl] at hline
          cases hline
        | cons k earlier =>
          obtain ⟨rfl, rfl⟩ := List.cons.inj h
          refine ⟨earlier, line, later, fault, rfl, (List.forall_mem_cons.1 hnone).2, hline, ?_⟩
          rw [List.length_cons, Nat.add_assoc, Nat.add_comm 1]

theorem readLines_eq_ok_iff {number : Nat} {f : Fragment} {lines : List Text} :
    (∃ g, readLines number f lines = .ok g) ↔ ∀ l ∈ lines, lineFault? l = none := by
  induction lines generalizing number f with
  | nil => exact ⟨fun _ => nofun, fun _ => ⟨f, rfl⟩⟩
  | cons l lines ih =>
    rw [List.forall_mem_cons]
    cases hl : lineFault? l with
    | some fault =>
      rw [readLines_refused hl]
      refine ⟨fun ⟨g, h⟩ => ?_, fun h => ?_⟩
      · cases h
      · cases h.1
    | none =>
      obtain ⟨g, hg⟩ := readLines_accepted hl number f
      rw [hg, ih]
      exact ⟨fun h => ⟨rfl, h⟩, fun h => h.2⟩

theorem trimStart_opening {skipped : Text} (h : ∀ c ∈ skipped, isBlank c = true) (body : Text) :
    trimStart (skipped ++ opening ++ body) = opening ++ body := by
  have hopen : opening = '(' :: opening.tail := by decide
  rw [trimStart, List.append_assoc, List.dropWhile_append_of_pos h, ← trimStart, hopen,
    List.cons_append, trimStart_cons (by decide)]

/-- Lines are numbered from the one on which the opening stands. -/
theorem parse_eq {skipped : Text} (h : ∀ c ∈ skipped, isBlank c = true) (body : Text) :
    parse (skipped ++ opening ++ body) =
      readLines (1 + skipped.count '\n') Catalog.empty (splitOn '\n' body) := by
  have hopen : opening = '(' :: opening.tail := by decide
  have hblank : (skipped ++ opening ++ body).takeWhile isBlank = skipped := by
    rw [List.append_assoc, List.takeWhile_append_of_pos h, hopen, List.cons_append,
      List.takeWhile_cons_of_neg (by decide), List.append_nil]
  rw [parse, trimStart_opening h, hblank, afterStart?_append, Nat.add_comm]

theorem parse_eq_noOpening_iff {s : Text} :
    parse s = .error .noOpening ↔ ¬ opening <+: trimStart s := by
  cases ha : afterStart? opening (trimStart s) with
  | none =>
    rw [parse, ha]
    refine ⟨fun _ hp => ?_, fun _ => rfl⟩
    obtain ⟨body, hb⟩ := hp
    rw [afterStart?_eq_some_iff.2 hb] at ha
    cases ha
  | some body =>
    rw [parse, ha]
    refine ⟨fun h => ?_, fun h => absurd ⟨body, afterStart?_eq_some_iff.1 ha⟩ h⟩
    obtain ⟨_, _, _, _, -, -, -, he⟩ := readLines_eq_error_iff.1 h
    cases he

/-- A line of the body that is refused, behind lines that are not. -/
structure FirstRefused (body before line behind : Text) (fault : LineFault) : Prop where
  isLine : IsLine before line behind body
  refused : Refused line fault
  first : ∀ b l a, IsLine b l a before → ∀ fault, ¬ Refused l fault

theorem FirstRefused.exists_splitOn {body before line behind : Text} {fault : LineFault}
    (h : FirstRefused body before line behind fault) :
    ∃ earlier later, splitOn '\n' body = earlier ++ line :: later ∧
      (∀ l ∈ earlier, lineFault? l = none) ∧ before.count '\n' = earlier.length := by
  obtain ⟨earlier, later, hs, hlines, rfl⟩ := h.isLine.exists_splitOn
  refine ⟨earlier, later, hs, fun l hl => ?_, count_flatMap_lines hlines⟩
  obtain ⟨e₁, e₂, rfl⟩ := List.append_of_mem hl
  have hb : splitOn '\n' ((e₁ ++ l :: e₂).flatMap (· ++ ['\n'])) = e₁ ++ l :: (e₂ ++ [[]]) := by
    have hsplit := splitOn_flatMap hlines []
    rw [List.append_nil] at hsplit
    rw [hsplit]
    simp
  exact lineFault?_eq_none_iff.2 (h.first _ l _ (isLine_of_splitOn hb))

theorem firstRefused_of_splitOn {body line : Text} {earlier later : List Text} {fault : LineFault}
    (hs : splitOn '\n' body = earlier ++ line :: later) (hnone : ∀ l ∈ earlier, lineFault? l = none)
    (hline : lineFault? line = some fault) :
    FirstRefused body (earlier.flatMap (· ++ ['\n'])) line (later.flatMap (['\n'] ++ ·)) fault where
  isLine := isLine_of_splitOn hs
  refused := lineFault?_eq_some_iff.1 hline
  first b l a hl := by
    have hlines : ∀ l ∈ earlier, '\n' ∉ l := fun l hm =>
      not_mem_of_mem_splitOn (hs ▸ List.mem_append_left _ hm)
    have hsplit := splitOn_flatMap hlines []
    obtain ⟨e₁, e₂, he, -⟩ := hl.exists_splitOn
    rw [List.append_nil, he] at hsplit
    have hm : l ∈ earlier ++ [[]] := by
      rw [← show e₁ ++ l :: e₂ = earlier ++ [[]] from hsplit]
      exact List.mem_append_right e₁ List.mem_cons_self
    rw [← lineFault?_eq_none_iff]
    rcases List.mem_append.1 hm with hm | hm
    · exact hnone l hm
    · rw [List.mem_singleton.1 hm]
      rfl

theorem parse_eq_error_iff {skipped body : Text} (hb : ∀ c ∈ skipped, isBlank c = true)
    {e : ReadError} : parse (skipped ++ opening ++ body) = .error e ↔
      ∃ before line behind fault, FirstRefused body before line behind fault ∧
        e = .badLine (1 + (skipped ++ opening ++ before).count '\n') fault := by
  have hopen : opening.count '\n' = 0 := by decide
  rw [parse_eq hb, readLines_eq_error_iff]
  constructor
  · rintro ⟨earlier, line, later, fault, hs, hnone, hline, rfl⟩
    have hf := firstRefused_of_splitOn hs hnone hline
    have hlines : ∀ l ∈ earlier, '\n' ∉ l := fun l hm =>
      not_mem_of_mem_splitOn (hs ▸ List.mem_append_left _ hm)
    refine ⟨_, line, _, fault, hf, ?_⟩
    rw [List.count_append, List.count_append, hopen, count_flatMap_lines hlines, Nat.add_zero,
      Nat.add_assoc]
  · rintro ⟨before, line, behind, fault, hf, rfl⟩
    obtain ⟨earlier, later, hs, hnone, hcount⟩ := hf.exists_splitOn
    refine ⟨earlier, line, later, fault, hs, hnone, lineFault?_eq_some_iff.2 hf.refused, ?_⟩
    rw [List.count_append, List.count_append, hopen, hcount, Nat.add_zero, Nat.add_assoc]

theorem parse_eq_ok_iff {skipped body : Text} (hb : ∀ c ∈ skipped, isBlank c = true) :
    (∃ f, parse (skipped ++ opening ++ body) = .ok f) ↔
      ∀ before line behind, IsLine before line behind body → ∀ fault, ¬ Refused line fault := by
  rw [parse_eq hb, readLines_eq_ok_iff]
  constructor
  · intro h before line behind hl
    obtain ⟨earlier, later, hs, -⟩ := hl.exists_splitOn
    exact lineFault?_eq_none_iff.1 (h line (hs ▸ List.mem_append_right _ List.mem_cons_self))
  · intro h line hm
    obtain ⟨earlier, later, hs⟩ := List.append_of_mem hm
    exact lineFault?_eq_none_iff.2 (h _ line _ (isLine_of_splitOn hs))

/-- The line that is refused first stays the first one when other text follows its end. -/
theorem FirstRefused.exchange {body before line rest : Text} {fault : LineFault}
    (h : FirstRefused body before line ('\n' :: rest) fault) (other : Text) :
    FirstRefused (before ++ line ++ '\n' :: other) before line ('\n' :: other) fault :=
  ⟨⟨rfl, h.isLine.one, h.isLine.starts, .inr rfl⟩, h.refused, h.first⟩

/-- The opening is reported missing just if the source does not begin with it, blanks aside. Otherwise
reading succeeds just if no line behind the opening begins like an assignment and is refused as one.
It fails with what is wrong with the first such line, and with its number: one more than there are
line ends in the source before it. The text behind the end of that line makes no difference. -/
theorem parse_reports_first_refused (s : Text) :
    (parse s = .error .noOpening ↔ ¬ opening <+: trimStart s) ∧
    ∀ skipped body, s = skipped ++ opening ++ body → (∀ c ∈ skipped, isBlank c = true) →
      ((∃ f, parse s = .ok f) ↔
        ∀ before line behind, IsLine before line behind body → ∀ fault, ¬ Refused line fault) ∧
      (∀ e, parse s = .error e ↔ ∃ before line behind fault,
        FirstRefused body before line behind fault ∧
          e = .badLine (1 + (skipped ++ opening ++ before).count '\n') fault) ∧
      ∀ before line rest fault, FirstRefused body before line ('\n' :: rest) fault →
        ∀ other, parse (skipped ++ opening ++ (before ++ line ++ '\n' :: other)) = parse s := by
  refine ⟨parse_eq_noOpening_iff, ?_⟩
  rintro skipped body rfl hb
  refine ⟨parse_eq_ok_iff hb, fun e => parse_eq_error_iff hb, ?_⟩
  intro before line rest fault hf other
  have hold := (parse_eq_error_iff hb).2 ⟨before, line, _, fault, hf, rfl⟩
  have hnew := (parse_eq_error_iff hb).2 ⟨before, line, _, fault, hf.exchange other, rfl⟩
  rw [hold, hnew]

/-- With two line ends skipped and an assignment on the opening's own line, the bad line is the fifth;
a worse line behind it is never looked at. -/
theorem parse_reports_first_refused_fifth :
    let skipped := " \n\r\n".toList
    let before := "implementors[\"a\"] = [];\r\nvar implementors[;\n".toList
    let line := "\timplementors[\"b\" = [];\r".toList
    let rest := "implementors[\n".toList
    (∀ c ∈ skipped, isBlank c = true) ∧
      FirstRefused (before ++ line ++ '\n' :: rest) before line ('\n' :: rest) .noMiddle ∧
      ∀ other, parse (skipped ++ opening ++ (before ++ line ++ '\n' :: other)) =
        .error (.badLine 5 .noMiddle) := by
  intro skipped before line rest
  have hb : ∀ c ∈ skipped, isBlank c = true := List.all_eq_true.1 (by decide)
  have hsplit : splitOn '\n' (before ++ line ++ '\n' :: rest) =
      ["implementors[\"a\"] = [];\r".toList, "var implementors[;".toList] ++
        line :: ["implementors[".toList, []] := by
    decide
  have hf : FirstRefused (before ++ line ++ '\n' :: rest) before line ('\n' :: rest) .noMiddle :=
    firstRefused_of_splitOn hsplit (by decide) (by decide)
  have hreport := (parse_reports_first_refused
    (skipped ++ opening ++ (before ++ line ++ '\n' :: rest))).2 skipped _ rfl hb
  have hparse := (hreport.2.1 (.badLine 5 .noMiddle)).2 ⟨before, line, _, _, hf, by decide⟩
  exact ⟨hb, hf, fun other => (hreport.2.2 before line rest _ hf other).trans hparse⟩

end Implementors.Fragment
