import Implementors.Files
import Implementors.Fragment.Reader
import Implementors.Manifest.Reader
import Implementors.Registrar

/-!
# Commands

A command reads and writes files and may fail on the way. Its error says what it was about, and what
the cause was if that is not the file system itself. What was written before stays written.
-/
namespace Implementors

inductive CommandError where
  /-- A file could not be read. -/
  | notRead (path : Text)
  /-- A file that was to be shown holds no fragment. -/
  | notParsed (path : Text) (cause : Fragment.ReadError)
  /-- A file that was to be extended holds no fragment. -/
  | notExtended (path : Text) (cause : Fragment.ReadError)
  | directoryNotCreated (path : Text)
  | notWritten (path : Text)
  | manifest (cause : Manifest.ReadError)
  | attach (cause : AttachError)
  deriving DecidableEq, Repr

def CommandError.message : CommandError → Text
  | .notRead path => "failed to read ".toList ++ path
  | .notParsed path _ => "failed to parse ".toList ++ path
  | .notExtended path _ => "existing fragment ".toList ++ path ++ " is unreadable".toList
  | .directoryNotCreated path => "failed to create ".toList ++ path
  | .notWritten path => "failed to write ".toList ++ path
  | .manifest cause => cause.message
  | .attach cause => cause.message

/-- A command on the files of `m`. -/
abbrev Command (m : Type → Type) := ExceptT CommandError m

variable {m : Type → Type} [Monad m] [FileSystem m]

/-- Does something that has to work. -/
def Command.require (action : m Bool) (otherwise : CommandError) : Command m Unit := do
  if ← (ExceptT.lift action : Command m Bool) then pure () else throw otherwise

/-- Reads the manifest in a file. -/
def Manifest.load (path : Text) : Command m Manifest := do
  match ← (ExceptT.lift (FileSystem.read path) : Command m _) with
  | .error _ => throw (.notRead path)
  | .ok source =>
    match Manifest.parse source with
    | .error e => throw (.manifest e)
    | .ok manifest => pure manifest

end Implementors
