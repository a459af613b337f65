import Implementors.Mapping

/-!
# The store of implementors

A store gathers the implementors of all fragments by crate. It only ever grows at its ends: a crate
keeps the place of its first registration and every implementor the order in which it arrived. The
policy says what happens to an implementor that is already listed under its crate.
-/
namespace Implementors

inductive Policy where
  /-- Leave out an implementor that is listed already, markup and all. -/
  | skipIdentical
  | keepAll
  deriving DecidableEq, Repr

/-- Adds implementors one by one to a list. -/
def Policy.addTo (policy : Policy) (listed : List Implementor) : List Implementor → List Implementor
  | [] => listed
  | i :: rest =>
    match policy with
    | .keepAll => policy.addTo (listed ++ [i]) rest
    | .skipIdentical =>
      if i ∈ listed then policy.addTo listed rest else policy.addTo (listed ++ [i]) rest

structure Store where
  policy : Policy
  byCrate : Catalog Text (List Implementor)
  deriving DecidableEq

namespace Store

protected def empty (policy : Policy) : Store := ⟨policy, Catalog.empty⟩

def get? (s : Store) (crate : Text) : Option (List Implementor) := s.byCrate.get? crate

/-- The number of implementors over all crates. -/
def count (s : Store) : Nat := s.byCrate.count

/-- Adds implementors to a crate, which is listed from then on even if there are none. -/
def register (s : Store) (crate : Text) (implementors : List Implementor) : Store :=
  { s with byCrate := s.byCrate.alter crate fun old => s.policy.addTo (old.getD []) implementors }

/-- The number of implementors that registering them would add. -/
def added (s : Store) (crate : Text) (implementors : List Implementor) : Nat :=
  ((s.register crate implementors).get? crate).elim 0 List.length -
    (s.get? crate).elim 0 List.length

/-- Registers crate after crate, and counts what is added. -/
def mergeEntries (s : Store) : List (Text × List Implementor) → Store × Nat
  | [] => (s, 0)
  | (crate, implementors) :: rest =>
    let (t, n) := (s.register crate implementors).mergeEntries rest
    (t, s.added crate implementors + n)

/-- Registers every crate of a mapping in its order. -/
def merge (s : Store) (m : Mapping) : Store × Nat := s.mergeEntries m.entries

/-- Merges mappings one by one. -/
def mergeAll (s : Store) : List Mapping → Store × Nat
  | [] => (s, 0)
  | m :: rest =>
    let (t, n) := (s.merge m).1.mergeAll rest
    (t, (s.merge m).2 + n)

/-- The two have the same policy and say the same, however crates are ordered and implementors
marked up. -/
def SameHeaders (a b : Store) : Prop :=
  a.policy = b.policy ∧ Mapping.SameHeaders a.byCrate b.byCrate

instance (a b : Store) : Decidable (a.SameHeaders b) := inferInstanceAs (Decidable (_ ∧ _))

end Store
end Implementors
