import Implementors.Command
import Implementors.Panel

/-!
# Showing a page

A page load registers some fragments before the panel is attached and some after. What the page
shows in the end is the contents of the panel.
-/
namespace Implementors

structure PageRequest where
  /-- The fragments that load before the panel. -/
  early : List Text
  /-- The fragments that load after the panel. -/
  late : List Text
  currentCrate : Option Text
  format : Format
  deriving DecidableEq, Repr

variable {m : Type → Type} [Monad m] [FileSystem m]

/-- The implementors in a file. -/
def loadMapping (path : Text) : Command m Mapping := do
  match ← (ExceptT.lift (FileSystem.read path) : Command m _) with
  | .error _ => throw (.notRead path)
  | .ok source =>
    match Fragment.parse source with
    | .error e => throw (.notParsed path e)
    | .ok f => pure (Mapping.ofFragment f)

/-- Registers the fragments in some files, up to the first that is not read. -/
def registerFiles (r : Registrar Panel) : List Text → Command m (Registrar Panel)
  | [] => pure r
  | path :: rest => do
    let mapping ← loadMapping path
    registerFiles (r.register mapping).1 rest

/-- The section of implementors after a page load. -/
def page (request : PageRequest) : Command m Text := do
  let registrar ← registerFiles (Registrar.waiting Panel .skipIdentical) request.early
  let panel : Panel :=
    { options := { format := request.format, currentCrate := request.currentCrate } }
  match registrar.attach panel with
  | .error e => throw (.attach e)
  | .ok (registrar, _) =>
    let registrar ← registerFiles registrar request.late
    pure (registrar.viewer?.elim [] Panel.contents)

end Implementors
