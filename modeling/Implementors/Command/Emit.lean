import Implementors.Command
import Implementors.Markup.Layout

/-!
# Emitting fragments

Emitting writes one fragment per trait of a manifest. Entries that name the same trait are put
together in their order. A fragment that is there already keeps the lists of the other crates; only
the list of the manifest's crate is replaced. The first file that makes trouble ends the command.
-/
namespace Implementors

namespace Manifest

/-- The markup of the impls of one entry. -/
def renderings (m : Manifest) (traitName : Text) (impls : List ImplEntry) : List Text :=
  impls.map fun e => (e.header traitName).render m.links

/-- The markup per trait, in the order in which the entries first name them. -/
def scriptsFrom (m : Manifest) (scripts : Catalog TraitPath (List Text)) :
    List TraitEntry → Except InvalidTraitPath (Catalog TraitPath (List Text))
  | [] => .ok scripts
  | entry :: rest =>
    match TraitPath.parse entry.path with
    | .error e => .error e
    | .ok path => m.scriptsFrom (scripts.append path (m.renderings path.name entry.impls)) rest

def scripts (m : Manifest) : Except InvalidTraitPath (Catalog TraitPath (List Text)) :=
  m.scriptsFrom Catalog.empty m.traits

end Manifest

variable {m : Type → Type} [Monad m] [FileSystem m]

/-- The fragment in a file, or the empty one if there is no file. -/
def readExisting (file : Text) : Command m Fragment := do
  match ← (ExceptT.lift (FileSystem.read file) : Command m _) with
  | .error .notFound => pure Catalog.empty
  | .error .unreadable => throw (.notRead file)
  | .ok source =>
    match Fragment.parse source with
    | .error e => throw (.notExtended file e)
    | .ok f => pure f

/-- Assigns a crate its list in the script of a trait, and answers the path of the script. -/
def emitScript (root crate : Text) (path : TraitPath) (items : List Text) : Command m Text := do
  let file := joinPath root path.scriptPath
  let fragment ← readExisting file
  let directory := joinPath root path.scriptDirectory
  Command.require (FileSystem.createDirectories directory) (.directoryNotCreated directory)
  Command.require (FileSystem.write file (fragment.assign crate items).emit) (.notWritten file)
  pure file

def emitScripts (root crate : Text) : List (TraitPath × List Text) → Command m (List Text)
  | [] => pure []
  | (path, items) :: rest => do
    let file ← emitScript root crate path items
    let files ← emitScripts root crate rest
    pure (file :: files)

/-- Writes the fragments of a manifest below a root, and answers their paths. -/
def emit (manifest : Manifest) (root : Text) : Command m (List Text) :=
  match manifest.scripts with
  | .error e => throw (.manifest (.invalidTraitPath e))
  | .ok scripts => emitScripts root manifest.crate scripts.entries

end Implementors
