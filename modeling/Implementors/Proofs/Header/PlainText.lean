import Implementors.Proofs.Header
import Implementors.Proofs.Markup
import Mathlib

/-!
# What markup says of a header

Read as text, the markup of a header is the layout of its parts: the display text up to the type, and
the where clause on lines of its own. Whatever the parts hold comes back as it is, and of the links
nothing is left.
-/
namespace Implementors.Header

/-- The parameter list with its brackets. -/
def parameters (h : Header) : Text :=
  if h.generics.isEmpty then [] else '<' :: h.generics ++ ['>']

/-- The display text up to the type. -/
def beginning (h : Header) : Text :=
  "impl".toList ++ h.parameters ++ ' ' :: h.traitName ++ " for ".toList ++ h.typeName

/-- The lines of the where clause in the text of markup. -/
def predicateText (predicates : List Text) : Text :=
  ['\n'].intercalate (predicates.map fun p => "    ".toList ++ p ++ [','])

theorem plain_predicateLines (links : LinkTable) (predicates : List Text) :
    Markup.plain (predicateLines links predicates) = predicateText predicates := by
  have hl : ∀ p, Markup.plain ([Markup.Piece.hardSpace, .hardSpace, .hardSpace, .hardSpace] ++
      links.linked p ++ [Markup.Piece.text [',']]) = "    ".toList ++ p ++ [','] := by
    intro p
    rw [Markup.plain_append, Markup.plain_append, Markup.plain_linked]
    rfl
  rw [predicateLines, Markup.plain_intercalate, List.map_map, predicateText]
  exact congrArg _ (List.map_congr_left fun p _ => hl p)

theorem plain_whereClause (links : LinkTable) {predicates : List Text} (h : predicates ≠ []) :
    Markup.plain (whereClause links predicates) =
      ' ' :: ("where".toList ++ '\n' :: (predicateText predicates ++ [' '])) := by
  rw [whereClause, if_neg fun he => h (List.isEmpty_iff.1 he), Markup.plain_append,
    Markup.plain_append, plain_predicateLines, List.append_assoc]
  rfl

theorem plain_layout (links : LinkTable) {h : Header} (ht : h.traitName ≠ []) :
    Markup.plain (h.layout links) =
      h.beginning ++ Markup.plain (whereClause links h.predicates) := by
  have hp : Markup.plain (if h.generics.isEmpty then []
      else [Markup.Piece.text ['<']] ++ links.linked h.generics ++ [Markup.Piece.text ['>']]) =
        h.parameters := by
    rw [parameters]
    split
    · rfl
    · rw [Markup.plain_append, Markup.plain_append, Markup.plain_linked]
      rfl
  have hs : ∀ s, Markup.plain [.text s] = s := fun s => List.append_nil s
  rw [layout, if_neg (not_isVerbatim ht)]
  unfold beginning
  simp only [Markup.plain_append, Markup.plain_linked, hp, hs]
  simp only [List.append_assoc, List.cons_append, List.nil_append]

/-- What is seen of the markup of a header: its display text up to the type, and the predicates on a
line each, with a space behind the last. Free text is seen as it is. -/
def plainText (h : Header) : Text :=
  if h.isVerbatim then h.typeName
  else
    h.beginning ++
      if h.predicates.isEmpty then []
      else " where\n".toList ++ predicateText h.predicates ++ [' ']

/-- Links never change what markup says: under every link table, the markup of a header is read as its
plain text, whatever its parts and the entries of the table hold. -/
theorem toText_render (links : LinkTable) (h : Header) :
    Markup.toText (h.render links) = h.plainText := by
  rw [render, Markup.toText_write, plainText]
  by_cases ht : h.traitName = []
  · have hv : h.isVerbatim = true := List.isEmpty_iff.2 ht
    rw [layout, if_pos hv, if_pos hv]
    exact Markup.plain_linked links h.typeName
  · have hv := not_isVerbatim ht
    rw [plain_layout links ht, if_neg hv]
    by_cases hp : h.predicates = []
    · rw [hp]
      rfl
    · rw [plain_whereClause links hp, if_neg fun he => hp (List.isEmpty_iff.1 he)]
      rfl

/-- What looks like a tag or a reference in a part is no more than its characters. -/
example :
    Markup.toText ((ofNames "<b>&lt;X".toList "T".toList).render Catalog.empty) =
      "impl T for <b>&lt;X".toList := by
  decide

end Implementors.Header
