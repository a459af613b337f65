import Implementors.Text

/-!
# Scanning a text from left to right

A scanner reads a text character by character and says at each point whether the text may be cut
there. Two cuts are made with it: at the first place where a given text occurs, and at every comma.
After a comma the scan begins anew; a scanner may be cut at a comma only where that makes no
difference, so the pieces are those that one scan of the whole text marks.
-/
namespace Implementors.Text

/-- The states of a left-to-right scan, and those in which a cut is allowed. -/
structure Scanner (σ : Type) where
  start : σ
  step : σ → Char → σ
  free : σ → Bool

namespace Scanner

variable {σ : Type} (scanner : Scanner σ)

/-- The state after reading a text from a given state. -/
def run (state : σ) (s : Text) : σ := s.foldl scanner.step state

@[simp] theorem run_nil (state : σ) : scanner.run state [] = state := rfl

@[simp] theorem run_cons (state : σ) (c : Char) (s : Text) :
    scanner.run state (c :: s) = scanner.run (scanner.step state c) s := rfl

theorem run_append (state : σ) (s t : Text) :
    scanner.run state (s ++ t) = scanner.run (scanner.run state s) t := by
  simp [run]

/-- What stands before and after the first free occurrence of `mark`, scanning from `state`. -/
def cutFrom? (mark : Text) : σ → Text → Option (Text × Text)
  | _, [] => none
  | state, c :: rest =>
    match if scanner.free state then afterStart? mark (c :: rest) else none with
    | some after => some ([], after)
    | none =>
      (cutFrom? mark (scanner.step state c) rest).map fun (before, after) => (c :: before, after)

def cut? (mark s : Text) : Option (Text × Text) := scanner.cutFrom? mark scanner.start s

/-- The pieces between free commas, scanning from `state`. -/
def piecesFrom : σ → Text → List Text
  | _, [] => [[]]
  | state, c :: rest =>
    if c = ',' && scanner.free state then [] :: piecesFrom scanner.start rest
    else (piecesFrom (scanner.step state c) rest).modifyHead (c :: ·)

def pieces (s : Text) : List Text := scanner.piecesFrom scanner.start s

end Scanner

/-- The scanner that allows a cut everywhere. -/
def everywhere : Scanner Unit := ⟨(), fun _ _ => (), fun _ => true⟩

/-- What stands before and after the first occurrence of `mark`. -/
def cut? (mark s : Text) : Option (Text × Text) := everywhere.cut? mark s

end Implementors.Text
