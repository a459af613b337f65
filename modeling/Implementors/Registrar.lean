import Implementors.Store

/-!
# The registrar

Fragments and the viewer of a page load in any order. Until a viewer is attached, the registrar
queues the mappings that are registered; attaching merges the queue into the store, oldest first,
and shows the viewer the result; from then on every mapping is merged and shown at once. A viewer
stays attached for good, and a second one is refused.
-/
namespace Implementors

/-- Why a viewer is shown the store. -/
inductive Cause where
  /-- It has just been attached, and so many queued mappings were merged. -/
  | drained (mappings : Nat)
  /-- A mapping of these crates was registered. -/
  | registered (crates : List Text)
  deriving DecidableEq, Repr

/-- What is shown the store whenever it changes. -/
class Viewer (ν : Type) where
  render : ν → Store → Cause → ν

instance {ν μ : Type} [Viewer ν] [Viewer μ] : Viewer (ν ⊕ μ) where
  render
    | .inl v, store, cause => .inl (Viewer.render v store cause)
    | .inr v, store, cause => .inr (Viewer.render v store cause)

/-- The viewer that writes down what it is shown, latest last. -/
structure Recorder where
  seen : List (Store × Cause)
  deriving DecidableEq

instance : Viewer Recorder where
  render r store cause := ⟨r.seen ++ [(store, cause)]⟩

inductive Phase (ν : Type) where
  /-- No viewer yet; the mappings wait, oldest first. -/
  | queueing (pending : List Mapping)
  | forwarding (viewer : ν)

structure Registrar (ν : Type) where
  phase : Phase ν
  store : Store

/-- What became of a registered mapping. -/
inductive Registration where
  /-- It waits in a queue of the given length. -/
  | queued (depth : Nat)
  /-- It was merged, which added so many implementors. -/
  | forwarded (added : Nat)
  deriving DecidableEq, Repr

/-- The queue that was merged when the viewer was attached. -/
structure Drained where
  mappings : Nat
  added : Nat
  deriving DecidableEq, Repr

inductive AttachError where
  | alreadyAttached
  deriving DecidableEq, Repr

def AttachError.message : AttachError → Text
  | .alreadyAttached => "a viewer is already attached to this registrar".toList

namespace Registrar

variable {ν : Type} [Viewer ν]

/-- A registrar with an empty store, waiting for a viewer. -/
def waiting (ν : Type) (policy : Policy) : Registrar ν := ⟨.queueing [], Store.empty policy⟩

def isReady (r : Registrar ν) : Bool :=
  match r.phase with
  | .queueing _ => false
  | .forwarding _ => true

/-- The number of mappings that wait for a viewer. -/
def pending (r : Registrar ν) : Nat :=
  match r.phase with
  | .queueing queue => queue.length
  | .forwarding _ => 0

def viewer? (r : Registrar ν) : Option ν :=
  match r.phase with
  | .queueing _ => none
  | .forwarding viewer => some viewer

def register (r : Registrar ν) (m : Mapping) : Registrar ν × Registration :=
  match r.phase with
  | .queueing queue =>
    (⟨.queueing (queue ++ [m]), r.store⟩, .queued (queue.length + 1))
  | .forwarding viewer =>
    let (store, added) := r.store.merge m
    (⟨.forwarding (Viewer.render viewer store (.registered m.keys)), store⟩, .forwarded added)

def attach (r : Registrar ν) (viewer : ν) : Except AttachError (Registrar ν × Drained) :=
  match r.phase with
  | .forwarding _ => .error .alreadyAttached
  | .queueing queue =>
    let (store, added) := r.store.mergeAll queue
    .ok (⟨.forwarding (Viewer.render viewer store (.drained queue.length)), store⟩,
      ⟨queue.length, added⟩)

end Registrar
end Implementors
