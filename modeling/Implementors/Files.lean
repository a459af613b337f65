import Implementors.Text

/-!
# Files

What the commands need of a file system: reading a file as text, creating a directory with all that
lead to it, and writing a file. A path is a text with `/` between its names.
-/
namespace Implementors

/-- Why a file could not be read as text. -/
inductive ReadFailure where
  | notFound
  /-- There is something, but no text that may be read: a directory, say, or bytes that are no
  UTF-8. -/
  | unreadable
  deriving DecidableEq, Repr

class FileSystem (m : Type → Type) where
  read : Text → m (Except ReadFailure Text)
  /-- Creates the directories of a path that are missing; answers whether all are there now. -/
  createDirectories : Text → m Bool
  /-- Writes a whole file; answers whether that worked. -/
  write : Text → Text → m Bool

/-- The path that leads on from a directory. An empty directory is the one that paths start from. -/
def joinPath (directory path : Text) : Text :=
  if directory.isEmpty || directory.getLast? == some '/' then directory ++ path
  else directory ++ '/' :: path

/-- The names of a path, with empty ones where slashes begin, end or follow one another. -/
def pathNames (path : Text) : List Text := Text.splitOn '/' path

end Implementors
