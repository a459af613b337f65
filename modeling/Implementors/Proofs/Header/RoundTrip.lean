import Implementors.Proofs.Header.PlainText
import Implementors.Proofs.Nesting
import Implementors.Proofs.Text.Words
import Mathlib

/-!
# Headers survive display and markup

A header is readable if its display text can be cut only between its parts. Reading its display text,
or its markup under whatever links, gives it back: each part is cut off where it was written to end.
Markup sets the where clause on lines of its own and ends it with a comma; squashed, it is the display
text with at most that comma behind it, and the comma changes nothing for the bounds.
-/
namespace Implementors.Header

/-- All parts are squashed, and there are a trait and a type. -/
structure Neat (h : Header) : Prop where
  generics : Text.Tidy h.generics
  traitName : Text.Tidy h.traitName
  typeName : Text.Tidy h.typeName
  bounds : Text.Tidy h.bounds
  traitName_ne_nil : h.traitName ≠ []
  typeName_ne_nil : h.typeName ≠ []

/-- What the display text has behind its `for`. -/
def behindFor (h : Header) : Text :=
  h.typeName ++ (if h.bounds.isEmpty then [] else " where ".toList ++ h.bounds)

theorem behindFor_of_bounds_nil {h : Header} (hb : h.bounds = []) : h.behindFor = h.typeName := by
  rw [behindFor, hb, List.isEmpty_nil, if_pos rfl, List.append_nil]

theorem behindFor_of_bounds {h : Header} (hb : h.bounds ≠ []) :
    h.behindFor = h.typeName ++ ' ' :: ("where".toList ++ ' ' :: h.bounds) := by
  rw [behindFor, if_neg fun he => hb (List.isEmpty_iff.1 he)]
  rfl

theorem display_eq_behindFor {h : Header} (ht : h.traitName ≠ []) :
    h.display =
      "impl".toList ++ (h.parameters ++ ' ' :: (h.traitName ++ " for ".toList ++ h.behindFor)) := by
  rw [display, if_neg (not_isVerbatim ht), behindFor, parameters]
  simp only [List.append_assoc, List.cons_append]

theorem display_of_bounds_nil {h : Header} (ht : h.traitName ≠ []) (hb : h.bounds = []) :
    h.display = h.beginning := by
  rw [display, if_neg (not_isVerbatim ht), hb, List.isEmpty_nil, if_pos rfl, List.append_nil]
  rfl

theorem display_of_bounds {h : Header} (ht : h.traitName ≠ []) (hb : h.bounds ≠ []) :
    h.display = h.beginning ++ ' ' :: ("where".toList ++ ' ' :: h.bounds) := by
  have hn : ¬ h.bounds.isEmpty = true := fun he => hb (List.isEmpty_iff.1 he)
  rw [display, if_neg (not_isVerbatim ht), if_neg hn]
  rfl

namespace Neat

variable {h : Header} (hn : Neat h)

include hn

theorem tidy_parameters : Text.Tidy h.parameters := by
  rw [parameters]
  split
  · exact .nil
  · have ho : Text.Tidy ['<'] := .of_no_blank (by simp; rfl)
    have hc : Text.Tidy ['>'] := .of_no_blank (by simp; rfl)
    exact (ho.append hn.generics).append hc

theorem tidy_beginning : Text.Tidy h.beginning := by
  have hi : Text.Tidy "impl".toList := Text.isSquashed_iff_tidy.1 (by decide)
  have hf : Text.Tidy "for".toList := Text.isSquashed_iff_tidy.1 (by decide)
  have he : h.beginning = (("impl".toList ++ h.parameters) ++ ' ' :: h.traitName ++
      ' ' :: "for".toList) ++ ' ' :: h.typeName := by
    have hs : " for ".toList = ' ' :: "for".toList ++ [' '] := rfl
    unfold beginning
    simp only [hs, List.append_assoc, List.cons_append, List.nil_append]
  rw [he]
  refine (((hi.append hn.tidy_parameters).append_space hn.traitName ?_
    hn.traitName_ne_nil).append_space hf ?_ (by decide)).append_space hn.typeName ?_
      hn.typeName_ne_nil
  · exact List.append_ne_nil_of_left_ne_nil (by decide) _
  · exact List.append_ne_nil_of_right_ne_nil _ (by simp)
  · exact List.append_ne_nil_of_right_ne_nil _ (by simp)

theorem tidy_display : Text.Tidy h.display := by
  by_cases hb : h.bounds = []
  · rw [display_of_bounds_nil hn.traitName_ne_nil hb]
    exact hn.tidy_beginning
  · have hw : Text.Tidy "where".toList := Text.isSquashed_iff_tidy.1 (by decide)
    have he : h.beginning ++ ' ' :: ("where".toList ++ ' ' :: h.bounds) =
        (h.beginning ++ ' ' :: "where".toList) ++ ' ' :: h.bounds := by
      rw [List.append_assoc, List.cons_append]
    rw [display_of_bounds hn.traitName_ne_nil hb, he]
    refine (hn.tidy_beginning.append_space hw ?_ (by decide)).append_space hn.bounds ?_ hb
    · exact List.append_ne_nil_of_right_ne_nil _ hn.typeName_ne_nil
    · exact List.append_ne_nil_of_right_ne_nil _ (by simp)

end Neat

/-- A parameter list that ends where it is closed is split off, and a space at most is left before
the trait. -/
theorem splitGenerics?_parameters {h : Header}
    (hg : h.generics = [] ∨
      splitGenerics? ('<' :: h.generics ++ ['>']) = some (h.generics, []))
    {s : Text} (hs : ∀ c ∈ s.head?, Text.isBlank c = false) :
    ∃ rest, splitGenerics? (h.parameters ++ ' ' :: s) = some (h.generics, rest) ∧
      Text.trimStart rest = s := by
  have ht : Text.trimStart s = s := Text.trimStart_eq_self hs
  rw [parameters]
  by_cases hn : h.generics = []
  · rw [hn]
    exact ⟨s, rfl, ht⟩
  · have hc : Nesting.closeAngle? (h.generics ++ ['>']) = some (h.generics, []) :=
      hg.resolve_left hn
    have ha : Nesting.closeAngle? (h.generics ++ ['>'] ++ ' ' :: s) =
        some (h.generics, ' ' :: s) := by
      rw [Nesting.closeAngle?_eq_cut?] at hc ⊢
      exact Text.Scanner.cut?_append (List.cons_ne_nil _ _) hc (' ' :: s)
    rw [if_neg fun he => hn (List.isEmpty_iff.1 he)]
    exact ⟨' ' :: s, ha, ht⟩

/-- A header is read from what is written like its display text, if the parameter list and the trait
end where they were written to, and what stands behind the `for` is read as its type and bounds. -/
theorem Neat.split?_written {h : Header} (hn : Neat h)
    (hg : h.generics = [] ∨
      splitGenerics? ('<' :: h.generics ++ ['>']) = some (h.generics, []))
    (ht : Nesting.topLevel.cut? " for ".toList (h.traitName ++ " for ".toList) =
      some (h.traitName, []))
    {after : Text} (hw : (splitWhere after).1 = h.typeName)
    (hb : ", ".toList.intercalate (Nesting.commaList (splitWhere after).2) = h.bounds) :
    split? ("impl".toList ++
      (h.parameters ++ ' ' :: (h.traitName ++ " for ".toList ++ after))) = some h := by
  have hh : ∀ c ∈ (h.traitName ++ " for ".toList ++ after).head?, Text.isBlank c = false := by
    intro c hc
    rw [List.append_assoc, List.head?_append_of_ne_nil _ hn.traitName_ne_nil] at hc
    exact hn.traitName.head c hc
  obtain ⟨rest, hrest, hs⟩ := splitGenerics?_parameters hg hh
  have hc := Text.Scanner.cut?_append (by decide) ht after
  rw [split?_eq_some_iff]
  refine ⟨_, h.generics, rest, h.traitName, after, Text.afterStart?_append _ _, hrest, ?_, ?_, ?_, ?_⟩
  · rw [hs]
    exact hc
  · rw [hn.traitName.trim]
    exact hn.traitName_ne_nil
  · rw [hw, hn.typeName.trim]
    exact hn.typeName_ne_nil
  · rw [hw, hb, hn.generics.trim, hn.typeName.trim, hn.traitName.trim]

/-- The parts can be told apart in display text, and the bounds are written as they are read. -/
structure Readable (h : Header) : Prop where
  generics_squashed : Text.IsSquashed h.generics
  traitName_squashed : Text.IsSquashed h.traitName
  typeName_squashed : Text.IsSquashed h.typeName
  bounds_squashed : Text.IsSquashed h.bounds
  traitName_ne_nil : h.traitName ≠ []
  typeName_ne_nil : h.typeName ≠ []
  /-- The parameter list ends where it is closed. -/
  generics_closed : h.generics = [] ∨
    splitGenerics? ('<' :: h.generics ++ ['>']) = some (h.generics, [])
  /-- The first `for` of the top level is the one behind the trait. -/
  traitName_cut : Nesting.topLevel.cut? " for ".toList (h.traitName ++ " for ".toList) =
    some (h.traitName, [])
  /-- The first `where` of the top level is the one behind the type. -/
  typeName_cut : Nesting.topLevel.cut? " where".toList (h.typeName ++ " where".toList) =
    some (h.typeName, [])
  bounds_eq : h.bounds = ", ".toList.intercalate h.predicates
  bounds_level : ∀ p ∈ h.predicates.getLast?, Nesting.depthOf p = 0

namespace Readable

variable {h : Header}

theorem neat (hr : Readable h) : Neat h where
  generics := Text.isSquashed_iff_tidy.1 hr.generics_squashed
  traitName := Text.isSquashed_iff_tidy.1 hr.traitName_squashed
  typeName := Text.isSquashed_iff_tidy.1 hr.typeName_squashed
  bounds := Text.isSquashed_iff_tidy.1 hr.bounds_squashed
  traitName_ne_nil := hr.traitName_ne_nil
  typeName_ne_nil := hr.typeName_ne_nil

theorem bounds_eq_nil_iff (hr : Readable h) : h.bounds = [] ↔ h.predicates = [] := by
  constructor
  · intro hb
    rw [predicates, hb]
    rfl
  · intro hp
    rw [hr.bounds_eq, hp]
    rfl

/-- Only the `where` that was written splits the type from the bounds. -/
theorem splitWhere_typeName (hr : Readable h) : splitWhere h.typeName = (h.typeName, []) := by
  have hn := Text.Scanner.cutFrom?_before (by decide) hr.typeName_cut
  rw [splitWhere, Text.Scanner.cut?, hn]

theorem splitWhere_bounds (hr : Readable h) (s : Text) :
    splitWhere (h.typeName ++ ' ' :: ("where".toList ++ ' ' :: s)) = (h.typeName, s) := by
  have hc := Text.Scanner.cut?_append (by decide) hr.typeName_cut (' ' :: s)
  have he : h.typeName ++ " where".toList ++ ' ' :: s =
      h.typeName ++ ' ' :: ("where".toList ++ ' ' :: s) := List.append_assoc _ _ _
  rw [he] at hc
  simp only [splitWhere, hc]
  rfl

/-- Behind the bounds a comma makes no difference. -/
theorem splitWhere_behindFor (hr : Readable h) {tail : Text}
    (ht : tail = [] ∨ h.bounds ≠ [] ∧ tail = [',']) :
    (splitWhere (h.behindFor ++ tail)).1 = h.typeName ∧
      Nesting.commaList (splitWhere (h.behindFor ++ tail)).2 = h.predicates := by
  by_cases hb : h.bounds = []
  · have hn : tail = [] := ht.resolve_right fun he => he.1 hb
    rw [behindFor_of_bounds_nil hb, hn, List.append_nil, hr.splitWhere_typeName,
      hr.bounds_eq_nil_iff.1 hb]
    exact ⟨rfl, rfl⟩
  · have he : h.behindFor ++ tail =
        h.typeName ++ ' ' :: ("where".toList ++ ' ' :: (h.bounds ++ tail)) := by
      rw [behindFor_of_bounds hb]
      simp only [List.append_assoc, List.cons_append]
    rw [he, hr.splitWhere_bounds]
    refine ⟨rfl, ?_⟩
    rcases ht with rfl | ⟨-, rfl⟩
    · rw [List.append_nil, predicates]
    · exact Nesting.commaList_concat_comma hr.bounds_level

/-- Display text splits into its header, with at most a comma behind the bounds. -/
theorem split?_display_append (hr : Readable h) {tail : Text}
    (ht : tail = [] ∨ h.bounds ≠ [] ∧ tail = [',']) : split? (h.display ++ tail) = some h := by
  obtain ⟨hw, hp⟩ := hr.splitWhere_behindFor ht
  have hb : ", ".toList.intercalate (Nesting.commaList (splitWhere (h.behindFor ++ tail)).2) =
      h.bounds := by rw [hp, ← hr.bounds_eq]
  have hs := hr.neat.split?_written hr.generics_closed hr.traitName_cut hw hb
  rw [display_eq_behindFor hr.traitName_ne_nil]
  simpa only [List.append_assoc, List.cons_append] using hs

theorem ofText_display (hr : Readable h) : ofText h.display = h := by
  have hs := hr.split?_display_append (.inl rfl)
  rw [List.append_nil] at hs
  have hq : Text.squash h.display = h.display := Text.isSquashed_iff_tidy.2 hr.neat.tidy_display
  rw [ofText, hq, hs, Option.getD_some]

end Readable

/-- Each line of the where clause has the words of its predicate, the comma with the last. -/
theorem words_predicateText (predicates : List Text) :
    Text.words (predicateText predicates) = predicates.flatMap fun p => Text.words (p ++ [',']) := by
  rw [predicateText, Text.words_intercalate Text.isBlank_newline, List.flatMap_map]
  refine List.flatMap_congr fun p _ => ?_
  rw [List.append_assoc, Text.words_append_of_blank rfl]

theorem intercalate_concat_comma {predicates : List Text} (h : predicates ≠ []) :
    ", ".toList.intercalate predicates ++ [','] =
      [' '].intercalate (predicates.map (· ++ [','])) := by
  induction predicates with
  | nil => exact absurd rfl h
  | cons p predicates ih =>
    cases predicates with
    | nil => simp
    | cons q predicates =>
      have hs : ", ".toList = [','] ++ [' '] := rfl
      have hm : [' '].intercalate ((p :: q :: predicates).map (· ++ [','])) =
          p ++ [','] ++ [' '] ++ [' '].intercalate ((q :: predicates).map (· ++ [','])) :=
        List.intercalate_cons_cons
      rw [List.intercalate_cons_cons, List.append_assoc, ih (List.cons_ne_nil q predicates), hm, hs]
      simp only [List.append_assoc]

namespace Readable

variable {h : Header}

/-- The text of markup has the words of the display text, with a comma behind the bounds. -/
theorem squash_plain_layout (hr : Readable h) (links : LinkTable) :
    ∃ tail, (tail = [] ∨ h.bounds ≠ [] ∧ tail = [',']) ∧
      Text.squash (Markup.plain (h.layout links)) = h.display ++ tail := by
  rw [plain_layout links hr.traitName_ne_nil]
  by_cases hb : h.bounds = []
  · refine ⟨[], .inl rfl, ?_⟩
    have hd : h.display = h.beginning := display_of_bounds_nil hr.traitName_ne_nil hb
    have hw : Markup.plain (whereClause links h.predicates) = [] := by
      rw [hr.bounds_eq_nil_iff.1 hb]
      rfl
    rw [hw, List.append_nil, List.append_nil, hd]
    exact Text.isSquashed_iff_tidy.2 hr.neat.tidy_beginning
  · refine ⟨[','], .inr ⟨hb, rfl⟩, ?_⟩
    have hn : h.predicates ≠ [] := fun hp => hb (hr.bounds_eq_nil_iff.2 hp)
    have hc : Text.Tidy [','] := Text.isSquashed_iff_tidy.1 (by decide)
    have ht : Text.squash (h.display ++ [',']) = h.display ++ [','] :=
      Text.isSquashed_iff_tidy.2 (hr.neat.tidy_display.append hc)
    have hd : h.display ++ [','] =
        h.beginning ++ ' ' :: ("where".toList ++ ' ' :: (h.bounds ++ [','])) := by
      rw [display_of_bounds hr.traitName_ne_nil hb]
      simp only [List.append_assoc, List.cons_append]
    have hl : Text.words (predicateText h.predicates) = Text.words (h.bounds ++ [',']) := by
      have hi := congrArg Text.words (intercalate_concat_comma hn)
      rw [← hr.bounds_eq, Text.words_intercalate Text.isBlank_space, List.flatMap_map] at hi
      rw [words_predicateText, hi]
    have hw : Text.words (h.beginning ++ ' ' :: ("where".toList ++
        '\n' :: (predicateText h.predicates ++ [' ']))) =
          Text.words (h.beginning ++ ' ' :: ("where".toList ++ ' ' :: (h.bounds ++ [',']))) := by
      rw [Text.words_append_blank Text.isBlank_space, Text.words_append_blank Text.isBlank_newline,
        Text.words_append_blank Text.isBlank_space, Text.words_nil, List.append_nil, hl,
        Text.words_append_blank Text.isBlank_space, Text.words_append_blank Text.isBlank_space]
    rw [← ht, hd, plain_whereClause links hn, Text.squash, hw, ← Text.squash]

theorem ofText_toText_render (hr : Readable h) (links : LinkTable) :
    ofText (Markup.toText (h.render links)) = h := by
  obtain ⟨tail, ht, hs⟩ := hr.squash_plain_layout links
  rw [render, Markup.toText_write, ofText, hs, hr.split?_display_append ht, Option.getD_some]

end Readable

/-- The markup of free text shows that text. -/
theorem toText_render_verbatim (links : LinkTable) (s : Text) :
    Markup.toText ((verbatim s).render links) = s := by
  rw [render, Markup.toText_write, layout, if_pos (isVerbatim_verbatim s)]
  exact Markup.plain_linked links s

/-- A readable header is read back from its display text, and from its markup under any links. So is
free text from its markup, if no header can be read from it. -/
theorem readable_reads_back :
    (∀ h : Header, Readable h → ofText h.display = h ∧
      ∀ links, (Markup.read (h.render links)).header = h) ∧
    (∀ s, (ofText s).isVerbatim = true →
      ∀ links, (Markup.read ((verbatim s).render links)).header = verbatim s) := by
  refine ⟨fun h hr => ⟨hr.ofText_display, hr.ofText_toText_render⟩, fun s hs links => ?_⟩
  have ht : (Markup.read ((verbatim s).render links)).header =
      ofText (Markup.toText ((verbatim s).render links)) := rfl
  rw [ht, toText_render_verbatim]
  exact isVerbatim_ofText_iff.1 hs

/-- A header with an arrow in its trait and nested brackets in its bounds, and a sentence. -/
theorem readable_reads_back_arrow :
    let h : Header := {
      generics := "S: Visitor".toList
      typeName := "Stream<S>".toList
      traitName := "From<Fn(u8) -> u8>".toList
      bounds := "S: Into<(u8, u8)>, u8: Copy".toList }
    let links : LinkTable := Catalog.empty.insert "Visitor".toList ⟨.trait, "visit.html".toList, none⟩
    (ofText h.display = h ∧ (Markup.read (h.render links)).header = h) ∧
      (Markup.read ((verbatim "a  sentence".toList).render links)).header =
        verbatim "a  sentence".toList := by
  intro h links
  have hr : Readable h := {
    generics_squashed := by decide
    traitName_squashed := by decide
    typeName_squashed := by decide
    bounds_squashed := by decide
    traitName_ne_nil := by decide
    typeName_ne_nil := by decide
    generics_closed := by decide
    traitName_cut := by decide
    typeName_cut := by decide
    bounds_eq := by decide
    bounds_level := by
      have hp : h.predicates.getLast? = some "u8: Copy".toList := by decide
      rw [hp]
      rintro p ⟨⟩
      decide }
  have hs : (ofText "a  sentence".toList).isVerbatim = true := by decide
  obtain ⟨hd, hm⟩ := readable_reads_back.1 h hr
  exact ⟨⟨hd, hm links⟩, readable_reads_back.2 _ hs links⟩

end Implementors.Header
