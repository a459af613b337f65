import Implementors.Link

/-!
# Markup

Markup is a sequence of pieces: escaped text, hard spaces, and the few tags that headers are shown
with. Writing it is the only place where tags and entities come about, so text that enters a piece
cannot become a tag. `plain` is what a reader sees of a piece.
-/
namespace Implementors.Markup

/-- One character in text or in an attribute value. -/
def escapeChar (c : Char) : Text :=
  match c with
  | '<' => "&lt;".toList
  | '>' => "&gt;".toList
  | '&' => "&amp;".toList
  | '"' => "&quot;".toList
  | c => [c]

def escape (s : Text) : Text := s.flatMap escapeChar

@[simp] theorem escape_nil : escape [] = [] := rfl

@[simp] theorem escape_append (s t : Text) : escape (s ++ t) = escape s ++ escape t :=
  List.flatMap_append

inductive Tag where
  /-- Opens a link. -/
  | link (target : LinkTarget)
  | linkEnd
  /-- Opens the where clause, which is set on lines of its own. -/
  | whereClause
  | whereClauseEnd
  | lineBreak
  deriving DecidableEq, Repr

namespace Tag

/-- What stands between the angle brackets of a tag. -/
def content : Tag → Text
  | .link target =>
    "a class=\"".toList ++ target.kind.word ++ "\" href=\"".toList ++ escape target.href ++
      '"' :: match target.path with
        | none => []
        | some path => " title=\"".toList ++ target.kind.word ++ ' ' :: escape path ++ ['"']
  | .linkEnd => "/a".toList
  | .whereClause => "span class=\"where fmt-newline\"".toList
  | .whereClauseEnd => "/span".toList
  | .lineBreak => "br".toList

def write (t : Tag) : Text := '<' :: t.content ++ ['>']

end Tag

inductive Piece where
  | text (s : Text)
  | hardSpace
  | tag (t : Tag)
  deriving DecidableEq, Repr

namespace Piece

def write : Piece → Text
  | .text s => escape s
  | .hardSpace => "&nbsp;".toList
  | .tag t => t.write

/-- What is seen of a piece: its text, a space, a line feed for a line break. -/
def plain : Piece → Text
  | .text s => s
  | .hardSpace => [' ']
  | .tag .lineBreak => ['\n']
  | .tag _ => []

end Piece

def write (pieces : List Piece) : Text := pieces.flatMap Piece.write

def plain (pieces : List Piece) : Text := pieces.flatMap Piece.plain

end Implementors.Markup
