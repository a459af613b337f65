import Implementors.Header
import Implementors.Link
import Implementors.TraitPath

/-!
# Manifests

A manifest names a crate, the impls of each trait that it implements, and the pages that names are
linked to. It is sound if the crate has a name that is not blank, there is a trait, and every trait
is named by a trait path.
-/
namespace Implementors

/-- One impl of a trait. -/
structure ImplEntry where
  generics : Text
  typeName : Text
  /-- The entries of the where clause. -/
  bounds : List Text
  deriving DecidableEq, Repr

/-- The header of an impl of the named trait. -/
def ImplEntry.header (e : ImplEntry) (traitName : Text) : Header where
  generics := e.generics
  typeName := e.typeName
  traitName := traitName
  bounds := ", ".toList.intercalate e.bounds

/-- A trait with impls; a manifest may name a trait more than once. -/
structure TraitEntry where
  path : Text
  impls : List ImplEntry
  deriving DecidableEq, Repr

structure Manifest where
  crate : Text
  traits : List TraitEntry
  links : LinkTable

namespace Manifest

inductive ReadError where
  /-- The text is not a manifest at all. -/
  | notManifest
  | missingCrate
  | noTraits (crate : Text)
  | invalidTraitPath (error : InvalidTraitPath)
  deriving DecidableEq, Repr

def ReadError.message : ReadError → Text
  | .notManifest => "invalid manifest".toList
  | .missingCrate => "manifest does not name a crate".toList
  | .noTraits crate => "manifest for ".toList ++ crate ++ " lists no traits".toList
  | .invalidTraitPath error => error.message

/-- The first trait that is not named by a trait path. -/
def invalidPath? (m : Manifest) : Option InvalidTraitPath :=
  m.traits.findSome? fun entry =>
    match TraitPath.parse entry.path with
    | .ok _ => none
    | .error e => some e

/-- Refuses a manifest that is not sound, for the first reason that applies. -/
def check (m : Manifest) : Except ReadError Manifest :=
  if (Text.trim m.crate).isEmpty then .error .missingCrate
  else if m.traits.isEmpty then .error (.noTraits m.crate)
  else
    match m.invalidPath? with
    | some e => .error (.invalidTraitPath e)
    | none => .ok m

end Manifest
end Implementors
