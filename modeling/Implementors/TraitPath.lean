import Implementors.Text.Alphanumeric
import Implementors.Text.Blank
import Implementors.Text.Quoted

/-!
# Trait paths

A trait path names a trait by the crate and modules it is in: `crate::module::Trait`, at least two
segments of name characters. The script that lists the implementors of the trait lies at a place
determined by the path, below the root of the documentation.
-/
namespace Implementors

/-- A segment of a path: one or more name characters. -/
def IsSegment (s : Text) : Prop := s ≠ [] ∧ s.all Text.isNameChar = true

instance (s : Text) : Decidable (IsSegment s) := inferInstanceAs (Decidable (_ ∧ _))

structure TraitPath where
  /-- The crate and the modules, outermost first. -/
  modules : List Text
  name : Text
  nested : modules ≠ []
  segments : ∀ s ∈ modules ++ [name], IsSegment s
  deriving DecidableEq

/-- The text is not a trait path. -/
structure InvalidTraitPath where
  path : Text
  deriving DecidableEq, Repr

def InvalidTraitPath.message (e : InvalidTraitPath) : Text :=
  "invalid trait path: ".toList ++ Text.quote e.path

namespace TraitPath

/-- The pieces between double colons; each pair of colons is taken as soon as it is met. -/
def splitColons : Text → List Text
  | [] => [[]]
  | ':' :: ':' :: rest => [] :: splitColons rest
  | c :: rest => (splitColons rest).modifyHead (c :: ·)

/-- The path with the given segments, if they make one. -/
def ofSegments? (pieces : List Text) : Option TraitPath :=
  if h : pieces.dropLast ≠ [] ∧ ∀ s ∈ pieces, IsSegment s then
    have hne : pieces ≠ [] := fun he => h.1 (by simp [he])
    some ⟨pieces.dropLast, pieces.getLast hne, h.1, by
      rw [List.dropLast_concat_getLast]; exact h.2⟩
  else none

/-- Reads a path, with or without blanks around it. -/
def parse (s : Text) : Except InvalidTraitPath TraitPath :=
  match ofSegments? (splitColons (Text.trim s)) with
  | some path => .ok path
  | none => .error ⟨s⟩

def display (p : TraitPath) : Text := "::".toList.intercalate (p.modules ++ [p.name])

/-- The directories that lead to the script of a trait, below the documentation root. -/
def directories (p : TraitPath) : List Text := "implementors".toList :: p.modules

/-- The name of the script of a trait. -/
def scriptName (p : TraitPath) : Text := "trait.".toList ++ p.name ++ ".js".toList

def scriptDirectory (p : TraitPath) : Text := ['/'].intercalate p.directories

def scriptPath (p : TraitPath) : Text := ['/'].intercalate (p.directories ++ [p.scriptName])

end TraitPath
end Implementors
