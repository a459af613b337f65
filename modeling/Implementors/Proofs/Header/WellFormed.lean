import Implementors.Proofs.Header.RoundTrip
import Implementors.Proofs.TraitPath
import Mathlib

/-!
# Headers of traits that have a path

A trait is named by name characters alone. They are neither blank nor brackets, so the name is
squashed, and the first ` for ` behind it is the one that was written. The header is readable if its
other parts are well-formed.
-/
namespace Implementors

namespace IsSegment

variable {s : Text}

theorem isSquashed (h : IsSegment s) : Text.IsSquashed s :=
  Text.isSquashed_iff_tidy.2 (.of_no_blank h.isBlank_eq_false)

/-- The first ` for ` behind a name is the one that follows it. -/
theorem cut?_for (h : IsSegment s) :
    Nesting.topLevel.cut? " for ".toList (s ++ " for ".toList) = some (s, []) := by
  have hspace : ' ' ∉ s := h.not_mem (by decide)
  have hname : Nesting.brackets.all (!Text.isNameChar ·) = true := rfl
  have hplain : ∀ c ∈ s, c ∉ Nesting.brackets := fun c hc hb =>
    h.not_mem (by simpa using List.all_eq_true.1 hname c hb) hc
  have hfree : Nesting.topLevel.free (Nesting.topLevel.run Nesting.topLevel.start s) = true :=
    beq_iff_eq.2 (Nesting.depth_run hplain _)
  have hmark : Nesting.topLevel.cutFrom? " for ".toList
      (Nesting.topLevel.run Nesting.topLevel.start s) " for ".toList = some ([], []) :=
    Text.Scanner.cutFrom?_mark (by decide) hfree []
  rw [Text.Scanner.cut?, Text.Scanner.cutFrom?_append_of_not_mem (m := ' ') rfl hspace, hmark]
  exact congrArg (fun t => some (t, [])) (List.append_nil s)

end IsSegment

namespace Header

variable {h : Header}

/-- All parts but the trait are written as they are read, and can be told apart. -/
@[mk_iff]
structure WellFormed (h : Header) : Prop where
  generics_squashed : Text.IsSquashed h.generics
  typeName_squashed : Text.IsSquashed h.typeName
  bounds_squashed : Text.IsSquashed h.bounds
  typeName_ne_nil : h.typeName ≠ []
  /-- The parameter list is closed by its last bracket only. -/
  generics_closed : h.generics = [] ∨
    splitGenerics? ('<' :: h.generics ++ ['>']) = some (h.generics, [])
  typeName_level : Nesting.depthOf h.typeName = 0
  /-- There is no `where` at the top level of the type. -/
  typeName_whole : Nesting.topLevel.cut? " where".toList h.typeName = none
  bounds_eq : h.bounds = ", ".toList.intercalate h.predicates
  bounds_level : ∀ p ∈ h.predicates.getLast?, Nesting.depthOf p = 0

instance : Decidable (WellFormed h) := decidable_of_iff' _ (wellFormed_iff h)

theorem WellFormed.typeName_cut (hw : WellFormed h) :
    Nesting.topLevel.cut? " where".toList (h.typeName ++ " where".toList) =
      some (h.typeName, []) :=
  Text.Scanner.cutFrom?_append_mark (m := ' ') (by decide) hw.typeName_whole
    (beq_iff_eq.2 hw.typeName_level)

/-- A well-formed header of a trait with a path is readable. -/
theorem WellFormed.readable (hw : WellFormed h) (ht : IsSegment h.traitName) : Readable h where
  generics_squashed := hw.generics_squashed
  traitName_squashed := ht.isSquashed
  typeName_squashed := hw.typeName_squashed
  bounds_squashed := hw.bounds_squashed
  traitName_ne_nil := ht.1
  typeName_ne_nil := hw.typeName_ne_nil
  generics_closed := hw.generics_closed
  traitName_cut := ht.cut?_for
  typeName_cut := hw.typeName_cut
  bounds_eq := hw.bounds_eq
  bounds_level := hw.bounds_level

end Header
end Implementors
