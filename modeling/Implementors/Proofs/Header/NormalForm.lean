import Implementors.Proofs.Header.RoundTrip
import Implementors.Proofs.Header.Where
import Mathlib

/-!
# Reading gives a normal form

Whatever the text, the header that is read from it has neat parts, and its display text is read as the
same header. Squashing, trimming and writing the predicates anew move no cut: the first mark stays
the first one when the text behind it changes, an entry ends at the depth where its trimmed form ends,
and the bracket that closes the parameter list is the same unless a `-` comes to stand before it.
-/
namespace Implementors.Header

theorem splitGenerics?_cases {s generics rest : Text}
    (h : splitGenerics? s = some (generics, rest)) :
    (s = ' ' :: rest ∧ generics = []) ∨
      (s = '<' :: (generics ++ ['>'] ++ rest) ∧
        Nesting.closeAngle? (generics ++ ['>'] ++ rest) = some (generics, rest)) := by
  unfold splitGenerics? at h
  split at h
  · next inner =>
    have hc := h
    rw [Nesting.closeAngle?_eq_cut?] at hc
    have ht := (Text.Scanner.occurs_of_cutFrom? hc).text
    exact .inr ⟨by rw [ht], by rw [ht, h]⟩
  · cases h
    exact .inl ⟨rfl, rfl⟩
  · cases h

/-- The bounds are found at the end of the text. -/
theorem splitWhere_suffix (s : Text) : (splitWhere s).2 <:+ s := by
  obtain hs | ⟨before, rest, hc, hs⟩ := splitWhere_cases s
  · rw [hs]
    exact List.nil_suffix
  · rw [hs]
    have ht := (Text.Scanner.occurs_of_cutFrom? hc).text
    exact (List.drop_suffix 1 rest).trans ⟨before ++ " where".toList, ht⟩

/-- How a header was read from tidy text with `after` behind the `for`. -/
structure ReadFrom (h : Header) (after : Text) : Prop where
  generics : Text.Tidy h.generics
  /-- The parameter list is closed by its last bracket, unless that would be the end of an arrow. -/
  generics_closed : '-' ∉ h.generics.getLast? → h.generics = [] ∨
    splitGenerics? ('<' :: h.generics ++ ['>']) = some (h.generics, [])
  traitName : Text.Tidy h.traitName
  traitName_ne_nil : h.traitName ≠ []
  traitName_cut : Nesting.topLevel.cut? " for ".toList (h.traitName ++ " for ".toList) =
    some (h.traitName, [])
  tidy_after : Text.Tidy after
  typeName_ne_nil : h.typeName ≠ []
  typeName_eq : h.typeName = Text.trim (splitWhere after).1
  bounds_eq : h.bounds = ", ".toList.intercalate (Nesting.commaList (splitWhere after).2)

theorem readFrom_of_split? {s : Text} {h : Header} (hs : Text.Tidy s) (hsplit : split? s = some h) :
    ∃ after, ReadFrom h after := by
  obtain ⟨rest, generics, rest', traitName, after, hi, hg, hc, ht, hn, rfl⟩ :=
    split?_eq_some_iff.1 hsplit
  have himpl : rest <:+ s := ⟨"impl".toList, Text.afterStart?_eq_some_iff.1 hi⟩
  have hparts : generics <:+: rest ∧ rest' <:+ rest := by
    obtain ⟨rfl, rfl⟩ | ⟨rfl, -⟩ := splitGenerics?_cases hg
    · exact ⟨List.nil_infix, List.suffix_cons ' ' rest'⟩
    · exact ⟨⟨['<'], ['>'] ++ rest', by simp⟩, ⟨'<' :: (generics ++ ['>']), by simp⟩⟩
  -- The trait and what follows it are set apart by the spaces of the `for`.
  have hfor : traitName ++ ' ' :: ("for".toList ++ ' ' :: after) = Text.trimStart rest' := by
    rw [← (Text.Scanner.occurs_of_cutFrom? hc).text, List.append_assoc]
    rfl
  have htidy : Text.Tidy (traitName ++ ' ' :: ("for".toList ++ ' ' :: after)) :=
    hfor ▸ hs.trimStart_suffix (hparts.2.trans himpl)
  have htrait : Text.trim traitName = traitName := htidy.before_space.trim
  have hcut := Text.Scanner.cutFrom?_exchange (by decide) hc []
  rw [List.append_nil] at hcut
  refine ⟨after, ?_⟩
  exact {
    generics := hs.trim_infix (hparts.1.trans himpl.isInfix)
    generics_closed := fun hd => by
      obtain ⟨-, rfl⟩ | ⟨-, hclose⟩ := splitGenerics?_cases hg
      · exact .inl rfl
      · exact .inr (Nesting.closeAngle?_trim hclose hd [])
    traitName := htrait.symm ▸ htidy.before_space
    traitName_ne_nil := ht
    traitName_cut := by rwa [htrait]
    tidy_after := htidy.after_space.after_space
    typeName_ne_nil := hn
    typeName_eq := rfl
    bounds_eq := rfl }

namespace ReadFrom

variable {h : Header} {after : Text} (hr : ReadFrom h after)

include hr

/-- The bounds have the predicates that were found behind the `where`. -/
theorem predicates_eq : h.predicates = Nesting.commaList (splitWhere after).2 := by
  rw [predicates, hr.bounds_eq]
  exact Nesting.commaList_intercalate (Nesting.isList_commaList _)

theorem tidy_bounds : Text.Tidy h.bounds := by
  rw [hr.bounds_eq]
  refine .intercalate_comma fun p hp => ?_
  obtain ⟨hne, q, hq, rfl⟩ := Nesting.eq_trim_of_mem_commaList hp
  exact ⟨hne, hr.tidy_after.trim_infix (hq.trans (splitWhere_suffix after).isInfix)⟩

/-- The type is everything behind the `for`, or what stands there before the ` where`. -/
theorem tidy_splitWhere : Text.Tidy (splitWhere after).1 := by
  obtain hs | ⟨before, rest, hc, hs⟩ := splitWhere_cases after
  · rw [hs]
    exact hr.tidy_after
  · rw [hs]
    have ht : before ++ ' ' :: ("where".toList ++ rest) = after := by
      rw [← (Text.Scanner.occurs_of_cutFrom? hc).text, List.append_assoc]
      rfl
    exact (ht ▸ hr.tidy_after).before_space

theorem typeName_eq_splitWhere : h.typeName = (splitWhere after).1 := by
  rw [hr.typeName_eq, hr.tidy_splitWhere.trim]

theorem neat : Neat h where
  generics := hr.generics
  traitName := hr.traitName
  typeName := hr.typeName_eq_splitWhere ▸ hr.tidy_splitWhere
  bounds := hr.tidy_bounds
  traitName_ne_nil := hr.traitName_ne_nil
  typeName_ne_nil := hr.typeName_ne_nil

/-- What the display text has behind the `for` is split as the text that was read. -/
theorem splitWhere_behindFor : splitWhere h.behindFor = (h.typeName, h.bounds) := by
  obtain hs | ⟨before, rest, hc, hs⟩ := splitWhere_cases after
  · have htype : h.typeName = after := by rw [hr.typeName_eq_splitWhere, hs]
    have hb : h.bounds = [] := by
      rw [hr.bounds_eq, hs]
      rfl
    rw [behindFor_of_bounds_nil hb, hb, htype, hs]
  · obtain rfl : h.typeName = before := by rw [hr.typeName_eq_splitWhere, hs]
    by_cases hb : h.bounds = []
    · have hnone : Nesting.topLevel.cut? " where".toList h.typeName = none :=
        Text.Scanner.cutFrom?_before (by decide) hc
      rw [behindFor_of_bounds_nil hb, hb, splitWhere, hnone]
    · have hcut := Text.Scanner.cutFrom?_exchange (by decide) hc (' ' :: h.bounds)
      rw [List.append_assoc] at hcut
      have hsplit : Nesting.topLevel.cut? " where".toList h.behindFor =
          some (h.typeName, ' ' :: h.bounds) := by
        rw [behindFor_of_bounds hb]
        exact hcut
      rw [splitWhere, hsplit]
      rfl

theorem split?_display (hd : '-' ∉ h.generics.getLast?) : split? h.display = some h := by
  have hw := hr.splitWhere_behindFor
  have hb : ", ".toList.intercalate (Nesting.commaList (splitWhere h.behindFor).2) = h.bounds := by
    rw [hw]
    exact (congrArg _ hr.predicates_eq).trans hr.bounds_eq.symm
  rw [display_eq_behindFor hr.traitName_ne_nil]
  exact hr.neat.split?_written (hr.generics_closed hd) hr.traitName_cut (by rw [hw]) hb

end ReadFrom

/-- What is read from a text is free text or has neat parts. -/
theorem neat_ofText {s : Text} (h : ¬ (ofText s).isVerbatim = true) : Neat (ofText s) := by
  cases hs : split? (Text.squash s) with
  | none =>
    have hv : ofText s = verbatim s := by rw [ofText, hs, Option.getD_none]
    exact absurd (isVerbatim_verbatim s) (hv ▸ h)
  | some g =>
    have hg : ofText s = g := by rw [ofText, hs, Option.getD_some]
    obtain ⟨_, hr⟩ := readFrom_of_split? (Text.tidy_squash s) hs
    exact hg ▸ hr.neat

/-- The header that is read from a text is read again from its display text, unless its parameter list
ends in a `-`. A header that is no free text has a trait and a type, no blank in its parts but single
inner spaces, and its bounds are its predicates, none of them empty, a comma and a space apart. -/
theorem ofText_display_ofText (s : Text) :
    let h := ofText s
    ('-' ∉ h.generics.getLast? → ofText h.display = h) ∧
      (h.isVerbatim = false → h.traitName ≠ [] ∧ h.typeName ≠ [] ∧
        (∀ part ∈ [h.generics, h.traitName, h.typeName, h.bounds], Text.Tidy part) ∧
        h.bounds = ", ".toList.intercalate h.predicates ∧ [] ∉ h.predicates) := by
  intro h
  cases hs : split? (Text.squash s) with
  | none =>
    have hv : h = verbatim s := by rw [show h = ofText s from rfl, ofText, hs, Option.getD_none]
    rw [hv, display_verbatim]
    exact ⟨fun _ => hv, fun hn => absurd (isVerbatim_verbatim s) (by rw [hn]; decide)⟩
  | some g =>
    have hg : h = g := by rw [show h = ofText s from rfl, ofText, hs, Option.getD_some]
    obtain ⟨after, hr⟩ := readFrom_of_split? (Text.tidy_squash s) hs
    have hn := hr.neat
    rw [hg]
    refine ⟨fun hd => ?_, fun _ => ⟨hn.traitName_ne_nil, hn.typeName_ne_nil, ?_, ?_, ?_⟩⟩
    · have hq : Text.squash g.display = g.display := Text.isSquashed_iff_tidy.2 hn.tidy_display
      rw [ofText, hq, hr.split?_display hd, Option.getD_some]
    · simp only [List.forall_mem_cons]
      exact ⟨hn.generics, hn.traitName, hn.typeName, hn.bounds, List.forall_mem_nil _⟩
    · rw [hr.predicates_eq]
      exact hr.bounds_eq
    · intro hm
      exact (Nesting.eq_trim_of_mem_commaList hm).1 rfl

/-- Brackets that do not match, a mark inside them, and commas with nothing between them. -/
theorem ofText_display_ofText_unbalanced :
    let s := "impl< T,\n->>X<( for Y) > for )Z where\tA , where ,, B<c,".toList
    let h := ofText s
    ('-' ∉ h.generics.getLast? ∧ ofText h.display = h) ∧
      h.isVerbatim = false ∧ h.traitName ≠ [] ∧ h.typeName ≠ [] ∧
        (∀ part ∈ [h.generics, h.traitName, h.typeName, h.bounds], Text.Tidy part) ∧
        h.bounds = ", ".toList.intercalate h.predicates ∧ [] ∉ h.predicates := by
  intro s h
  have hd : '-' ∉ h.generics.getLast? := by decide
  have hv : h.isVerbatim = false := by decide
  exact ⟨⟨hd, (ofText_display_ofText s).1 hd⟩, hv, (ofText_display_ofText s).2 hv⟩

/-- Trimmed, the parameter list makes an arrow of the bracket that closes it. -/
example :
    let h := ofText "impl<T - > X for Y".toList
    h.generics = "T -".toList ∧ ofText h.display = verbatim "impl<T -> X for Y".toList := by
  decide

end Implementors.Header
