import Implementors.Implementor
import Implementors.Markup

/-!
# Layout of headers in markup

A header is laid out as its text with a link around every token that the link table knows. The where
clause follows on lines of its own: a line break after `where`, four hard spaces and a comma around
each predicate, and a hard space at the end. Free text is laid out with its links and nothing else.
-/
namespace Implementors

open Markup

/-- One token, inside a link if the table has it. -/
def LinkTable.token (links : LinkTable) (name : Text) : List Piece :=
  match links.get? name with
  | some target => [.tag (.link target), .text name, .tag .linkEnd]
  | none => [.text name]

/-- A text with its known names linked. -/
def LinkTable.linked (links : LinkTable) (s : Text) : List Piece := s.tokens.flatMap links.token

namespace Header

/-- The lines of a where clause. -/
def predicateLines (links : LinkTable) (predicates : List Text) : List Piece :=
  [Piece.tag .lineBreak].intercalate <| predicates.map fun p =>
    [.hardSpace, .hardSpace, .hardSpace, .hardSpace] ++ links.linked p ++ [.text [',']]

def whereClause (links : LinkTable) (predicates : List Text) : List Piece :=
  if predicates.isEmpty then []
  else
    [.text [' '], .tag .whereClause, .text "where".toList, .tag .lineBreak] ++
      predicateLines links predicates ++ [.hardSpace, .tag .whereClauseEnd]

def layout (links : LinkTable) (h : Header) : List Piece :=
  if h.isVerbatim then links.linked h.typeName
  else
    [.text "impl".toList] ++
      (if h.generics.isEmpty then []
        else [.text ['<']] ++ links.linked h.generics ++ [.text ['>']]) ++
      [.text [' ']] ++ links.linked h.traitName ++ [.text " for ".toList] ++
      links.linked h.typeName ++ whereClause links h.predicates

/-- The markup of a header. -/
def render (links : LinkTable) (h : Header) : Text := Markup.write (h.layout links)

end Header

/-- The markup an implementor is shown with: its own if it has any, else that of its header. -/
def Implementor.shown (links : LinkTable) (i : Implementor) : Text :=
  i.markup.getD (i.header.render links)

end Implementors
