import Implementors.Text.Blank
import Implementors.Text.Scanner

/-!
# Nesting of brackets in a header

Angle, round and square brackets are counted by one depth: an opening bracket of any kind adds one
and a closing bracket of any kind takes one away, as long as there is one to take. The `>` of an
arrow, right after a `-`, closes nothing. A place in a text is at the top level if its depth is
zero.

The parameter list of a header is delimited by angle brackets alone, which are counted on their own.
-/
namespace Implementors

structure Nesting where
  depth : Nat
  /-- The character just read is a `-`. -/
  afterDash : Bool
  deriving DecidableEq, Repr

namespace Nesting

def step (state : Nesting) (c : Char) : Nesting where
  depth :=
    if c = '<' ∨ c = '(' ∨ c = '[' then state.depth + 1
    else if c = '>' ∧ state.afterDash then state.depth
    else if c = '>' ∨ c = ')' ∨ c = ']' then state.depth - 1
    else state.depth
  afterDash := c == '-'

/-- The characters that are counted. -/
def brackets : List Char := ['<', '(', '[', '>', ')', ']']

/-- An opening bracket of any kind adds one to the depth. -/
theorem step_opening {c : Char} (h : c = '<' ∨ c = '(' ∨ c = '[') (state : Nesting) :
    step state c = ⟨state.depth + 1, false⟩ := by
  rcases h with rfl | rfl | rfl <;> rfl

/-- A closing bracket of any kind takes one away, unless the depth is zero. -/
theorem step_closing {c : Char} {state : Nesting}
    (h : c = ')' ∨ c = ']' ∨ c = '>' ∧ state.afterDash = false) :
    step state c = ⟨state.depth - 1, false⟩ := by
  rcases h with rfl | rfl | ⟨rfl, h⟩
  · rfl
  · rfl
  · simp [step, h]

/-- The `>` of an arrow changes no depth. -/
theorem step_arrow {state : Nesting} (h : state.afterDash = true) :
    step state '>' = ⟨state.depth, false⟩ := by
  simp [step, h]

/-- No other character changes the depth. -/
theorem step_other {c : Char} (h : c ∉ brackets) (state : Nesting) :
    step state c = ⟨state.depth, c == '-'⟩ := by
  simp only [brackets, List.mem_cons, List.not_mem_nil, or_false, not_or] at h
  simp [step, h]

/-- The scan that may be cut at the top level. -/
def topLevel : Text.Scanner Nesting := ⟨⟨0, false⟩, step, (·.depth == 0)⟩

/-- The depth at the end of a text. -/
def depthOf (s : Text) : Nat := (topLevel.run topLevel.start s).depth

/-- The pieces between top-level commas, trimmed; empty pieces are left out. -/
def commaList (s : Text) : List Text :=
  ((topLevel.pieces s).map Text.trim).filter (!·.isEmpty)

/-- Cuts a text at the `>` that closes the bracket opened `depth + 1` angle brackets before. -/
def closeAngleFrom? : Nat → Bool → Text → Option (Text × Text)
  | _, _, [] => none
  | depth, afterDash, c :: rest =>
    if c = '>' ∧ !afterDash then
      match depth with
      | 0 => some ([], rest)
      | depth + 1 =>
        (closeAngleFrom? depth false rest).map fun (inside, after) => (c :: inside, after)
    else
      (closeAngleFrom? (if c = '<' then depth + 1 else depth) (c == '-') rest).map
        fun (inside, after) => (c :: inside, after)

/-- What stands inside an angle bracket that was just opened, and after it. -/
def closeAngle? (s : Text) : Option (Text × Text) := closeAngleFrom? 0 false s

end Nesting
end Implementors
