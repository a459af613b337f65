import Implementors.Proofs.Catalog.Gathered
import Implementors.Proofs.Fragment.Faults
import Implementors.Proofs.Text.Spelled
import Mathlib

/-!
# Layouts of fragments

A fragment may be laid out in many ways: with gaps around its marks and literals, with any spelling
of these, with or without a comma behind the last item, with other lines between the assignments and
with line ends of both kinds. All are read as the same assignments.
-/
namespace Implementors.Fragment

open Text Text.Literal

/-- The layouts of what stands between the brackets of a list. -/
inductive ListLayout : Text → List Text → Prop
  | empty {gap : Text} : IsGap gap → ListLayout gap []
  | items {t : Text} {items : List Text} : Items t items → ListLayout t items
  | comma {t gap : Text} {items : List Text} : Items t items → IsGap gap →
      ListLayout (t ++ ',' :: gap) items

/-- The last comma is dropped if there is one, and no character of a literal with it. -/
theorem ListLayout.readItems? {t : Text} {items : List Text} (h : ListLayout t items) :
    Literal.readItems? ((beforeEnd? [','] (trimEnd t)).getD (trimEnd t)) = some items := by
  cases h with
  | empty hg =>
    have ht : trimEnd t = [] := trimEnd_append_blank hg.isBlank []
    rw [ht]
    rfl
  | items hi =>
    obtain ⟨body, ht, hb⟩ := hi.trimEnd
    rw [ht, beforeEnd?_concat_of_ne (by decide)]
    exact hb.readItems?
  | comma hi hg =>
    rw [List.append_cons, trimEnd_append_blank hg.isBlank, trimEnd_concat (by decide),
      beforeEnd?_append]
    exact hi.readItems?

theorem ListLayout.readList {t gap : Text} {items : List Text} (h : ListLayout t items)
    (hg : IsGap gap) : readList ('[' :: t ++ ']' :: gap ++ [';']) = .ok items := by
  have hlist : trimEnd ('[' :: t ++ ']' :: gap) = ['['] ++ (t ++ [']']) := by
    rw [List.append_cons, trimEnd_append_blank hg.isBlank, trimEnd_concat (by decide)]
    rfl
  rw [Fragment.readList, trimEnd_concat (by decide), beforeEnd?_append]
  simp only
  rw [hlist, afterStart?_append, Option.bind_eq_bind, Option.bind_some, beforeEnd?_append]
  simp only [h.readItems?]

theorem ListLayout.newline_not_mem {t : Text} {items : List Text} (h : ListLayout t items) :
    '\n' ∉ t := by
  cases h with
  | empty hg => exact hg.not_mem (by decide) (by decide)
  | items hi => exact hi.newline_not_mem
  | comma hi hg =>
    have hn := hi.newline_not_mem
    simp [hn, hg.not_mem]

/-- The layouts of an assignment behind its beginning, up to its semicolon. The mark that ends the
name must not stand in what the name is spelled with. -/
inductive Assigned : Text → Text → List Text → Prop
  | mk {before name after list gap crate : Text} {items : List Text} : IsGap before →
      Spells name crate → ¬ assignmentMiddle <:+: name → IsGap after → ListLayout list items →
      IsGap gap → Assigned (before ++ '"' :: (name ++ '"' :: after) ++ assignmentMiddle ++
        ('[' :: list ++ ']' :: gap ++ [';'])) crate items

/-- The layouts of an assignment on a line. -/
inductive AssignmentLayout : Text → Text → List Text → Prop
  | mk {before assigned after crate : Text} {items : List Text} : IsGap before →
      Assigned assigned crate items → IsGap after →
      AssignmentLayout (before ++ (assignmentStart ++ assigned) ++ after) crate items

/-- The name ends at the mark behind it: the mark begins nowhere before. -/
theorem cut?_spaced {before name after : Text} (hb : IsGap before)
    (hn : ¬ assignmentMiddle <:+: name) (ha : IsGap after) (rest : Text) :
    cut? assignmentMiddle (before ++ '"' :: (name ++ '"' :: after) ++ assignmentMiddle ++ rest) =
      some (before ++ '"' :: (name ++ '"' :: after), rest) := by
  have hm : assignmentMiddle ≠ [] := by decide
  have hmark : assignmentMiddle = ']' :: assignmentMiddle.tail := by decide
  have hgap : ∀ {gap : Text}, IsGap gap → ¬ assignmentMiddle <:+: gap := fun hg hi =>
    hg.not_mem (c := ']') (by decide) (by decide) (hi.subset (by decide))
  have hnone : ¬ assignmentMiddle <:+: before ++ '"' :: (name ++ '"' :: after) := by
    intro hi
    rcases infix_of_infix_append_cons (by decide) hi with hi | hi
    · exact hgap hb hi
    · exact (infix_of_infix_append_cons (by decide) hi).elim hn (hgap ha)
  have hcut : cut? assignmentMiddle
      (before ++ '"' :: (name ++ '"' :: after) ++ assignmentMiddle) =
        some (before ++ '"' :: (name ++ '"' :: after), []) := by
    have hnone := (cut?_eq_none_iff hm).2 hnone
    rw [hmark] at hnone ⊢
    exact Scanner.cutFrom?_append_mark (by decide) hnone rfl
  exact Scanner.cut?_append hm hcut rest

theorem Assigned.readAssignment {assigned crate : Text} {items : List Text}
    (h : Assigned assigned crate items) : readAssignment assigned = .ok (crate, items) := by
  obtain ⟨hb, hu, hn, ha, hl, hg⟩ := h
  have hname := Spaced.read? (.mk hb hu ha)
  rw [Fragment.readAssignment, cut?_spaced hb hn ha]
  simp only [hname, hl.readList hg]
  rfl

theorem Assigned.exists_concat {assigned crate : Text} {items : List Text}
    (h : Assigned assigned crate items) : ∃ t, assigned = t ++ [';'] := by
  obtain ⟨-, -, -, -, -, -⟩ := h
  exact ⟨_, (List.append_assoc _ _ _).symm⟩

theorem Assigned.newline_not_mem {assigned crate : Text} {items : List Text}
    (h : Assigned assigned crate items) : '\n' ∉ assigned := by
  obtain ⟨hb, hu, -, ha, hl, hg⟩ := h
  have hname := Spaced.newline_not_mem (.mk hb hu ha)
  have hmiddle : '\n' ∉ assignmentMiddle := by decide
  have hlist : '\n' ∉ '[' :: _ :=
    List.not_mem_cons_of_ne_of_not_mem (by decide) hl.newline_not_mem
  have hgap : '\n' ∉ ']' :: _ :=
    List.not_mem_cons_of_ne_of_not_mem (by decide) (hg.not_mem (by decide) (by decide))
  exact List.not_mem_append (List.not_mem_append hname hmiddle)
    (List.not_mem_append (List.not_mem_append hlist hgap) (by decide))

/-- Reading a line goes by what stands between the blanks at its ends. -/
theorem assignmentOf?_between {before after : Text} (hb : ∀ c ∈ before, isBlank c = true)
    (ha : ∀ c ∈ after, isBlank c = true) (line : Text) :
    assignmentOf? (before ++ line ++ after) = assignmentOf? line := by
  rw [assignmentOf?, trim_between hb ha, assignmentOf?]

/-- The beginning of an assignment comes off, and its semicolon stays. -/
theorem assignmentOf?_concat (t : Text) :
    assignmentOf? (assignmentStart ++ (t ++ [';'])) = some (t ++ [';']) := by
  have hstart : assignmentStart = 'i' :: assignmentStart.tail := by decide
  have htrim : trim (assignmentStart ++ (t ++ [';'])) = assignmentStart ++ (t ++ [';']) := by
    rw [hstart, List.cons_append, ← List.append_assoc, ← List.cons_append]
    exact trim_eq_self (by decide) (by decide)
  rw [assignmentOf?, htrim, afterStart?_append]

theorem AssignmentLayout.assignmentOf? {line crate : Text} {items : List Text}
    (h : AssignmentLayout line crate items) :
    ∃ assigned, assignmentOf? line = some assigned ∧
      Fragment.readAssignment assigned = .ok (crate, items) := by
  obtain ⟨hb, hassigned, ha⟩ := h
  refine ⟨_, ?_, hassigned.readAssignment⟩
  obtain ⟨t, rfl⟩ := hassigned.exists_concat
  rw [assignmentOf?_between hb.isBlank ha.isBlank, assignmentOf?_concat]

theorem AssignmentLayout.newline_not_mem {line crate : Text} {items : List Text}
    (h : AssignmentLayout line crate items) : '\n' ∉ line := by
  obtain ⟨hb, hassigned, ha⟩ := h
  have hstart : '\n' ∉ assignmentStart := by decide
  simp [hb.not_mem, hstart, hassigned.newline_not_mem, ha.not_mem]

/-- The ends of a line. -/
def IsLineEnd (s : Text) : Prop := s = ['\n'] ∨ s = ['\r', '\n']

/-- A text of ended lines, and the assignments among these in order. -/
inductive Body : Text → List (Text × List Text) → Prop
  | nil : Body [] []
  | assignment {line crate ending rest : Text} {items : List Text}
      {assignments : List (Text × List Text)} : AssignmentLayout line crate items →
      IsLineEnd ending → Body rest assignments →
      Body (line ++ ending ++ rest) ((crate, items) :: assignments)
  | other {line ending rest : Text} {assignments : List (Text × List Text)} : '\n' ∉ line →
      ¬ assignmentStart <+: trim line → IsLineEnd ending → Body rest assignments →
      Body (line ++ ending ++ rest) assignments

/-- A line comes off with the carriage return at its end, if there is one, which makes no difference. -/
theorem exists_splitOn_line {line ending : Text} (hl : '\n' ∉ line) (he : IsLineEnd ending)
    (rest : Text) : ∃ first, splitOn '\n' (line ++ ending ++ rest) = first :: splitOn '\n' rest ∧
      assignmentOf? first = assignmentOf? line := by
  rcases he with rfl | rfl
  · refine ⟨line, ?_, rfl⟩
    rw [← splitOn_append hl, List.append_assoc, List.singleton_append]
  · have hr : '\n' ∉ line ++ ['\r'] := by simp [hl]
    refine ⟨line ++ ['\r'], ?_,
      assignmentOf?_between isGap_nil.isBlank (List.forall_mem_singleton.2 rfl) line⟩
    rw [← splitOn_append hr]
    simp

/-- Carries out some assignments, one after another. -/
def assignAll (f : Fragment) (assignments : List (Text × List Text)) : Fragment :=
  assignments.foldl (fun f e => f.assign e.1 e.2) f

/-- The assignments of a text are carried out in their order and all else is passed over. -/
theorem Body.readLines {body : Text} {assignments : List (Text × List Text)}
    (h : Body body assignments) (number : Nat) (f : Fragment) :
    readLines number f (splitOn '\n' body) = .ok (f.assignAll assignments) := by
  induction h generalizing number f with
  | nil => rfl
  | assignment hl he _ ih =>
    obtain ⟨first, hs, hfirst⟩ := exists_splitOn_line hl.newline_not_mem he _
    obtain ⟨assigned, ha, hr⟩ := hl.assignmentOf?
    rw [hs, Fragment.readLines, hfirst, ha]
    simp only [hr, ih]
    rfl
  | other hl hn he _ ih =>
    obtain ⟨first, hs, hfirst⟩ := exists_splitOn_line hl he _
    have hnone : assignmentOf? _ = none := Option.eq_none_iff_forall_ne_some.2 fun rest ha =>
      hn ⟨rest, afterStart?_eq_some_iff.1 ha⟩
    rw [hs, Fragment.readLines, hfirst, hnone]
    exact ih (number + 1) f

/-- Whatever the layout, reading gives the fragment that the assignments make in their order: each
crate stands where it is assigned first and has the list that it is assigned last. -/
theorem parse_body {blanks body : Text} {assignments : List (Text × List Text)}
    (hb : ∀ c ∈ blanks, isBlank c = true) (h : Body body assignments) :
    ∃ f, parse (blanks ++ opening ++ body) = .ok f ∧
      f = assignAll Catalog.empty assignments ∧
      f.keys = mentioned assignments ∧
      ∀ before crate items after, assignments = before ++ (crate, items) :: after →
        crate ∉ after.map Prod.fst → f.get? crate = some items := by
  refine ⟨_, (parse_eq hb body).trans (h.readLines _ _), rfl, ?_, ?_⟩
  · exact Catalog.keys_foldl_alter (fun e _ => e.2) assignments
  · rintro before crate items after rfl hlast
    exact Catalog.get?_foldl_insert_of_last _ before (crate, items) hlast

/-- One crate twice: spelled with code units on the opening's own line, which ends with a carriage
return, and then plainly with a comma behind the last item. A line between them is passed over. -/
theorem parse_body_twice :
    let first := "\timplementors[ \"\\u0061\\ud83D\\uDE00\" ] = [ ] ;".toList
    let other := "var implementors;".toList
    let last := "implementors[\"a😀\"] = [\"];\" , \"\\/\",\t];".toList
    let body := first ++ "\r\n".toList ++ (other ++ "\n".toList ++ (last ++ "\n".toList ++ []))
    let crate := "a😀".toList
    let items := ["];".toList, "/".toList]
    (∀ c ∈ " \n".toList, isBlank c = true) ∧ Body body [(crate, []), (crate, items)] ∧
      ∃ f, parse (" \n".toList ++ opening ++ body) = .ok f ∧ f.keys = [crate] ∧
        f.get? crate = some items := by
  intro first other last body crate items
  have hblank : ∀ c ∈ " \n".toList, isBlank c = true := List.all_eq_true.1 (by decide)
  have hspace : IsGap [' '] := by decide
  have htab : IsGap ['\t'] := by decide
  have ha : CodeUnit ['0', '0', '6', '1'] 'a'.toNat :=
    .mk (i := 0) (j := 0) (k := 6) (l := 1) (by decide) (by decide) (by decide) (by decide)
  have hhigh : CodeUnit ['d', '8', '3', 'D'] 0xD83D :=
    .mk (i := 13) (j := 8) (k := 3) (l := 13) (by decide) (by decide) (by decide) (by decide)
  have hlow : CodeUnit ['D', 'E', '0', '0'] 0xDE00 :=
    .mk (i := 13) (j := 14) (k := 0) (l := 0) (by decide) (by decide) (by decide) (by decide)
  have hescaped := Spells.cons (.unit ha) (.cons (.pair (c := '😀') (by decide) hhigh hlow) .nil)
  have hfirst : AssignmentLayout first crate [] :=
    .mk htab (.mk hspace hescaped (by decide) hspace (.empty hspace) hspace) isGap_nil
  have hcrate : Spells crate crate := spells_self (List.all_iff_forall_prop.1 (by decide))
  have hend : Spells "];".toList "];".toList := spells_self (List.all_iff_forall_prop.1 (by decide))
  have hslash : Spells ['\\', '/'] ['/'] := .cons (.short (by decide)) .nil
  have hitems : Items "\"];\" , \"\\/\"".toList items :=
    .cons (.mk isGap_nil hend hspace) (.one (.mk hspace hslash isGap_nil))
  have hlast : AssignmentLayout last crate items :=
    .mk isGap_nil (.mk isGap_nil hcrate (by decide) isGap_nil (.comma hitems htab) isGap_nil)
      isGap_nil
  have hbody : Body body [(crate, []), (crate, items)] :=
    .assignment hfirst (.inr rfl) (.other (by decide) (by decide) (.inl rfl)
      (.assignment hlast (.inl rfl) .nil))
  obtain ⟨f, hf, -, hkeys, hlists⟩ := parse_body hblank hbody
  exact ⟨hblank, hbody, f, hf, hkeys, hlists [(crate, [])] crate items [] rfl nofun⟩

end Implementors.Fragment
