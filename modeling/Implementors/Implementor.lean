import Implementors.Header

/-!
# Implementors

An implementor is a header together with the markup a generator may have rendered it as. Markup is
presentation: `SameHeader` compares what is said, while equality also compares how it is shown.
Display text alone is ambiguous, since two headers that read alike may link to different items.
-/
namespace Implementors

structure Implementor where
  header : Header
  markup : Option Text
  deriving DecidableEq, Repr

namespace Implementor

/-- An implementor that no generator has rendered. -/
def plain (header : Header) : Implementor := ⟨header, none⟩

/-- The two say the same, however they are marked up. -/
def SameHeader (a b : Implementor) : Prop := a.header = b.header

instance (a b : Implementor) : Decidable (a.SameHeader b) := inferInstanceAs (Decidable (_ = _))

theorem eq_iff (a b : Implementor) : a = b ↔ a.SameHeader b ∧ a.markup = b.markup := by
  cases a; cases b; simp [SameHeader]

end Implementor
end Implementors
