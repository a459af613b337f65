import Implementors.Catalog
import Implementors.Files

/-!
# File trees

A file system held as a value: what stands at each place, a place being the names that lead to it
from the root. The root itself is always a directory. A path is followed name by name from the
working directory, or from the root if it begins with a slash; every place it passes has to be a
directory.
-/
namespace Implementors

inductive FileNode where
  | text (contents : Text)
  /-- A file whose bytes are no text. -/
  | binary
  | directory
  deriving DecidableEq, Repr

structure FileTree where
  nodes : Catalog (List Text) FileNode
  workingDirectory : List Text

namespace FileTree

/-- The longest name and the longest path, in bytes. -/
def maxName : Nat := 255
def maxPath : Nat := 4095

def byteLength (s : Text) : Nat := s.foldl (fun n c => n + c.utf8Size) 0

def node? (t : FileTree) (place : List Text) : Option FileNode :=
  if place.isEmpty then some .directory else t.nodes.get? place

def put (t : FileTree) (place : List Text) (node : FileNode) : FileTree :=
  { t with nodes := t.nodes.insert place node }

/-- The place that a path starts from. -/
def origin (t : FileTree) (path : Text) : List Text :=
  if path.head? = some '/' then [] else t.workingDirectory

/-- Follows names from a place; all but the last have to lead to directories. -/
def follow (t : FileTree) (here : List Text) : List Text → Except ReadFailure (List Text)
  | [] => .ok here
  | name :: rest =>
    match t.node? here with
    | none => .error .notFound
    | some .directory =>
      if name = [] ∨ name = ['.'] then t.follow here rest
      else if name = ['.', '.'] then t.follow here.dropLast rest
      else if maxName < byteLength name then .error .unreadable
      else t.follow (here ++ [name]) rest
    | some _ => .error .unreadable

/-- The place that a path leads to. -/
def locate (t : FileTree) (path : Text) : Except ReadFailure (List Text) :=
  if path.isEmpty then .error .notFound
  else if maxPath < byteLength path then .error .unreadable
  else t.follow (t.origin path) (pathNames path)

def read (t : FileTree) (path : Text) : Except ReadFailure Text := do
  match t.node? (← t.locate path) with
  | none => .error .notFound
  | some (.text contents) => .ok contents
  | some _ => .error .unreadable

/-- Follows names from a directory, making the directories that are missing. -/
def createFrom (t : FileTree) (here : List Text) : List Text → FileTree × Bool
  | [] => (t, true)
  | name :: rest =>
    if name = [] ∨ name = ['.'] then t.createFrom here rest
    else if name = ['.', '.'] then t.createFrom here.dropLast rest
    else if maxName < byteLength name then (t, false)
    else
      match t.node? (here ++ [name]) with
      | none => (t.put (here ++ [name]) .directory).createFrom (here ++ [name]) rest
      | some .directory => t.createFrom (here ++ [name]) rest
      | some _ => (t, false)

def createDirectories (t : FileTree) (path : Text) : FileTree × Bool :=
  if maxPath < byteLength path then (t, false)
  else t.createFrom (t.origin path) (pathNames path)

def write (t : FileTree) (path contents : Text) : FileTree × Bool :=
  match t.locate path with
  | .error _ => (t, false)
  | .ok place =>
    match t.node? place with
    | some .directory => (t, false)
    | _ => (t.put place (.text contents), true)

end FileTree

instance : FileSystem (StateM FileTree) where
  read path := fun t => (t.read path, t)
  createDirectories path := fun t => Prod.swap (t.createDirectories path)
  write path contents := fun t => Prod.swap (t.write path contents)

end Implementors
