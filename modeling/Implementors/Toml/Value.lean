import Implementors.Catalog
import Implementors.Text

/-!
# TOML values

A document is a table of values. Each table remembers how it came about, since that decides what may
still be added to it: a table that only headers passed through may be opened by a header of its own,
one that a dotted key passed through may be extended by dotted keys alone, and an inline table is
complete.

Numbers, booleans and dates are told apart from strings and nothing more: no setting of a manifest
is written with them. A number that is out of range may be written, but not be looked at.
-/
namespace Implementors.Toml

/-- How a table came about. -/
inductive Origin where
  /-- It has a header of its own. -/
  | header
  /-- Only headers of tables inside it passed through it. -/
  | implied
  /-- A dotted key passed through it, and it has no header of its own. -/
  | dotted
  /-- It is written between braces. -/
  | inline
  deriving DecidableEq, Repr

inductive Value where
  | string (s : Text)
  /-- A number, a boolean, or a date or time; a number may be out of range. -/
  | scalar (inRange : Bool)
  /-- An array, made by headers with double brackets or written between brackets. -/
  | array (byHeaders : Bool) (items : List Value)
  | table (origin : Origin) (entries : List (Text × Value))

abbrev Entries := List (Text × Value)

mutual

/-- Whether every number in a value is in range. -/
def Value.inRange : Value → Bool
  | .string _ => true
  | .scalar inRange => inRange
  | .array _ items => Value.allInRange items
  | .table _ entries => Entries.inRange entries

def Value.allInRange : List Value → Bool
  | [] => true
  | item :: items => item.inRange && Value.allInRange items

def Entries.inRange : List (Text × Value) → Bool
  | [] => true
  | (_, value) :: entries => value.inRange && Entries.inRange entries

end

namespace Entries

/-- Changes the table at the end of a path, where tables are passed through as a header (`implied`)
or a dotted key (`dotted`) passes. An array made by headers is passed through its last table. A
dotted key takes over the tables that only headers passed through before. -/
def alterAt? (way : Origin) (change : Origin → Entries → Option Entries) :
    List Text → Origin → Entries → Option Entries
  | [], origin, entries => change origin entries
  | key :: path, _, entries =>
    match entries.lookup key with
    | none => do
      let inner ← alterAt? way change path way []
      pure (entries ++ [(key, .table way inner)])
    | some (.table origin inner) =>
      if origin = .inline ∨ (way = .dotted ∧ origin = .header) then none
      else do
        let origin := if way = .dotted then .dotted else origin
        let inner ← alterAt? way change path origin inner
        pure (Catalog.alterEntries key (fun _ => .table origin inner) entries)
    | some (.array true items) =>
      match items.getLast? with
      | some (.table origin inner) => do
        let inner ← alterAt? way change path origin inner
        pure (Catalog.alterEntries key
          (fun _ => .array true (items.dropLast ++ [.table origin inner])) entries)
      | _ => none
    | some _ => none

/-- Puts a value under a new key. -/
def add? (key : Text) (value : Value) (entries : Entries) : Option Entries :=
  match entries.lookup key with
  | some _ => none
  | none => some (entries ++ [(key, value)])

end Entries

/-- A dotted key: the keys before the last dot, and the last key. -/
structure Key where
  path : List Text
  last : Text

structure Assignment where
  key : Key
  value : Value

namespace Entries

/-- Carries out an assignment. Below the table itself, only tables without a header of their own may
be extended. -/
def assign? (entries : Entries) (a : Assignment) : Option Entries :=
  alterAt? .dotted
    (fun origin inner =>
      if a.key.path ≠ [] ∧ origin ≠ .dotted then none else add? a.key.last a.value inner)
    a.key.path .header entries

def assignAll? (entries : Entries) (assignments : List Assignment) : Option Entries :=
  assignments.foldlM assign? entries

end Entries

structure TableHeader where
  /-- It has double brackets and adds a table to an array. -/
  toArray : Bool
  key : Key

/-- A header with the assignments below it. -/
structure Section where
  header : TableHeader
  assignments : List Assignment

namespace Section

/-- The value that a section makes of the one that its key had, if any. -/
def value? (s : Section) (old : Option Value) : Option Value :=
  match s.header.toArray, old with
  | true, none => do pure (.array true [.table .header (← Entries.assignAll? [] s.assignments)])
  | true, some (.array true items) => do
    pure (.array true (items ++ [.table .header (← Entries.assignAll? [] s.assignments)]))
  | false, none => do pure (.table .header (← Entries.assignAll? [] s.assignments))
  | false, some (.table .implied inner) => do
    pure (.table .header (← Entries.assignAll? inner s.assignments))
  | _, _ => none

/-- Adds a section to a document. -/
def addTo? (document : Entries) (s : Section) : Option Entries :=
  document.alterAt? .implied
    (fun _ parent => do
      let value ← s.value? (parent.lookup s.header.key.last)
      pure (Catalog.alterEntries s.header.key.last (fun _ => value) parent))
    s.header.key.path .header

end Section

/-- The document made of the assignments before the first header and the sections. -/
def document? (first : List Assignment) (sections : List Section) : Option Entries := do
  sections.foldlM Section.addTo? (← Entries.assignAll? [] first)

end Implementors.Toml
