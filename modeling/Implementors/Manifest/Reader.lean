import Implementors.Manifest
import Implementors.Toml.Reader

/-!
# Reading manifests

A manifest is a TOML document with the settings `crate`, `trait` and `links`. A record may also be
written as an array of its settings in order, where later ones may be left out if they have a
default, and items after the last setting are not looked at. Settings that the manifest does not
know are refused, except in links, where they are passed over if all numbers in them are in range.
-/
namespace Implementors.Manifest

open Toml

def string? : Value → Option Text
  | .string s => some s
  | _ => none

/-- The items of an array, each read by `item?`. -/
def listOf? {α : Type} (item? : Value → Option α) : Value → Option (List α)
  | .array _ items => items.mapM item?
  | _ => none

/-- The settings of a record by position: from a table by their names, from an array in order. A name
that is not known is allowed if the record is `lenient` and its value is in range. -/
def settings? (names : List Text) (lenient : Bool) : Value → Option (List (Option Value))
  | .array _ items => some ((List.range names.length).map (items[·]?))
  | .table _ entries =>
    if entries.all fun (name, v) => names.contains name || (lenient && v.inRange) then
      some (names.map fun name => entries.lookup name)
    else none
  | _ => none

/-- Reads a setting that has a default. -/
def orDefault {α : Type} (read? : Value → Option α) (default : α) : Option Value → Option α
  | none => some default
  | some v => read? v

/-- Reads a kind: its word, or a table from the word to nothing. -/
def itemKind? : Value → Option ItemKind
  | .string s => ItemKind.ofWord? s
  | .table _ [(word, .table _ [])] => ItemKind.ofWord? word
  | .table _ [(word, .array _ [])] => ItemKind.ofWord? word
  | _ => none

def linkTarget? (v : Value) : Option LinkTarget := do
  match ← settings? ["kind".toList, "href".toList, "path".toList] true v with
  | [some kind, some href, path] =>
    pure ⟨← itemKind? kind, ← string? href, ← orDefault (some <$> string? ·) none path⟩
  | _ => none

def links? : Value → Option LinkTable
  | .table _ entries =>
    entries.foldlM (fun links (name, v) => do pure (links.insert name (← linkTarget? v)))
      Catalog.empty
  | _ => none

def implEntry? (v : Value) : Option ImplEntry := do
  match ← settings? ["generics".toList, "type".toList, "where".toList] false v with
  | [generics, some typeName, bounds] =>
    pure ⟨← orDefault string? [] generics, ← string? typeName,
      ← orDefault (listOf? string?) [] bounds⟩
  | _ => none

def traitEntry? (v : Value) : Option TraitEntry := do
  match ← settings? ["path".toList, "impl".toList] false v with
  | [some path, impls] => pure ⟨← string? path, ← orDefault (listOf? implEntry?) [] impls⟩
  | _ => none

def ofValue? (v : Value) : Option Manifest := do
  match ← settings? ["crate".toList, "trait".toList, "links".toList] false v with
  | [some crate, traits, links] =>
    pure ⟨← string? crate, ← orDefault (listOf? traitEntry?) [] traits,
      ← orDefault links? Catalog.empty links⟩
  | _ => none

/-- Reads a manifest and checks that it is sound. -/
def parse (source : Text) : Except ReadError Manifest :=
  match read? source >>= fun entries => ofValue? (.table .header entries) with
  | some m => m.check
  | none => .error .notManifest

end Implementors.Manifest
