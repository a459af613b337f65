import Implementors.Catalog
import Implementors.Text
import Implementors.Text.Alphanumeric

/-!
# Links

A link table says for which names a page is known. A name is one token of a text: a longest run of
name characters, or any other single character, so that a table may also link `[` or `&`.
-/
namespace Implementors

/-- The kinds of items that have pages. -/
inductive ItemKind where
  | trait
  | struct
  | enum
  | union
  | type
  | primitive
  | fn
  deriving DecidableEq, Repr

namespace ItemKind

/-- The word for a kind, in tables and in the class of a link. -/
def word : ItemKind → Text
  | .trait => "trait".toList
  | .struct => "struct".toList
  | .enum => "enum".toList
  | .union => "union".toList
  | .type => "type".toList
  | .primitive => "primitive".toList
  | .fn => "fn".toList

def all : List ItemKind := [.trait, .struct, .enum, .union, .type, .primitive, .fn]

def ofWord? (s : Text) : Option ItemKind := all.find? (·.word = s)

theorem ofWord?_word (k : ItemKind) : ofWord? k.word = some k := by
  cases k <;> decide

end ItemKind

/-- Where a name links to, and the full path of the item if it has one. -/
structure LinkTarget where
  kind : ItemKind
  href : Text
  path : Option Text
  deriving DecidableEq, Repr

abbrev LinkTable := Catalog Text LinkTarget

namespace LinkTable

/-- Takes over every entry of a second table. -/
def extend (table more : LinkTable) : LinkTable :=
  more.entries.foldl (fun t e => t.insert e.1 e.2) table

end LinkTable

/-- The tokens of a text, in order; joined they are the text. -/
def Text.tokens : Text → List Text
  | [] => []
  | [c] => [[c]]
  | c :: d :: rest =>
    if isNameChar c && isNameChar d then (tokens (d :: rest)).modifyHead (c :: ·)
    else [c] :: tokens (d :: rest)

end Implementors
