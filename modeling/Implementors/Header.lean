import Implementors.Nesting

/-!
# Impl headers

A header says that a type implements a trait: `impl<G> Trait for Type where P, Q`. All four parts
are display text; nothing here asks whether they name real items. A header without a trait name is
free text, held in the place of the type and displayed as it is.

Reading is total: text that does not split into a header becomes free text, unchanged.
-/
namespace Implementors

structure Header where
  /-- The parameter list of the impl, without its angle brackets. -/
  generics : Text
  typeName : Text
  traitName : Text
  /-- The predicates of the where clause, separated by commas. -/
  bounds : Text
  deriving DecidableEq, Repr

namespace Header

/-- The header `impl traitName for typeName`. -/
def ofNames (typeName traitName : Text) : Header := ⟨[], typeName, traitName, []⟩

/-- Free text. -/
def verbatim (s : Text) : Header := ofNames s []

def isVerbatim (h : Header) : Bool := h.traitName.isEmpty

@[simp] theorem isVerbatim_verbatim (s : Text) : (verbatim s).isVerbatim = true := rfl

def predicates (h : Header) : List Text := Nesting.commaList h.bounds

def display (h : Header) : Text :=
  if h.isVerbatim then h.typeName
  else
    "impl".toList ++ (if h.generics.isEmpty then [] else '<' :: h.generics ++ ['>']) ++
      ' ' :: h.traitName ++ " for ".toList ++ h.typeName ++
      (if h.bounds.isEmpty then [] else " where ".toList ++ h.bounds)

@[simp] theorem display_verbatim (s : Text) : (verbatim s).display = s := rfl

/-- Splits the parameter list from what follows `impl`; the list has to follow at once, and
anything else after a space. -/
def splitGenerics? : Text → Option (Text × Text)
  | '<' :: rest => Nesting.closeAngle? rest
  | ' ' :: rest => some ([], rest)
  | _ => none

/-- Splits the type from the bounds: at the first ` where` of the top level, if a space or the end
of the text follows it. -/
def splitWhere (s : Text) : Text × Text :=
  match Nesting.topLevel.cut? " where".toList s with
  | some (before, []) => (before, [])
  | some (before, ' ' :: after) => (before, after)
  | _ => (s, [])

/-- Splits a squashed text into the parts of a header. -/
def split? (s : Text) : Option Header := do
  let rest ← Text.afterStart? "impl".toList s
  let (generics, rest) ← splitGenerics? rest
  let (traitName, rest) ← Nesting.topLevel.cut? " for ".toList (Text.trimStart rest)
  let (typeName, bounds) := splitWhere rest
  let traitName := Text.trim traitName
  let typeName := Text.trim typeName
  if traitName.isEmpty || typeName.isEmpty then none
  else
    pure {
      generics := Text.trim generics
      typeName
      traitName
      bounds := ", ".toList.intercalate (Nesting.commaList bounds) }

/-- Reads display text: blanks are squashed, and the predicates are written a comma and a space
apart. -/
def ofText (s : Text) : Header := (split? (Text.squash s)).getD (verbatim s)

end Header
end Implementors
