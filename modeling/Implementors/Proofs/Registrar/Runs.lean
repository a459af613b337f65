import Implementors.Proofs.Store.History
import Implementors.Registrar
import Mathlib

/-!
# Runs of a registrar

A run is any sequence of registrations and attachments. Whatever the sequence, the store is empty
until the first attachment, with all mappings so far in the queue; from then on the queue is gone and
the store is what merging all registered mappings one by one into an empty store gives.
-/
namespace Implementors

/-- What may be asked of a registrar. -/
inductive Call (ν : Type) where
  | register (m : Mapping)
  | attach (viewer : ν)

namespace Call

variable {ν : Type}

def mapping? : Call ν → Option Mapping
  | .register m => some m
  | .attach _ => none

def isAttach : Call ν → Bool
  | .register _ => false
  | .attach _ => true

/-- The mappings that are registered by some calls, in their order. -/
def registered (calls : List (Call ν)) : List Mapping := calls.filterMap mapping?

/-- Whether a viewer is attached by some calls. -/
def attached (calls : List (Call ν)) : Bool := calls.any isAttach

theorem registered_append (calls more : List (Call ν)) :
    registered (calls ++ more) = registered calls ++ registered more :=
  List.filterMap_append

theorem registered_map_register (ms : List Mapping) :
    registered (ms.map (Call.register : Mapping → Call ν)) = ms := by
  induction ms with
  | nil => rfl
  | cons m ms ih => exact congrArg (m :: ·) ih

theorem attached_map_register (ms : List Mapping) :
    attached (ms.map (Call.register : Mapping → Call ν)) = false := by
  induction ms with
  | nil => rfl
  | cons m ms ih => exact ih

@[simp] theorem registered_concat_register (calls : List (Call ν)) (m : Mapping) :
    registered (calls ++ [.register m]) = registered calls ++ [m] := by
  simp [registered, mapping?]

@[simp] theorem registered_concat_attach (calls : List (Call ν)) (viewer : ν) :
    registered (calls ++ [.attach viewer]) = registered calls := by
  simp [registered, mapping?]

@[simp] theorem attached_concat_register (calls : List (Call ν)) (m : Mapping) :
    attached (calls ++ [.register m]) = attached calls := by
  simp [attached, isAttach]

@[simp] theorem attached_concat_attach (calls : List (Call ν)) (viewer : ν) :
    attached (calls ++ [.attach viewer]) = true := by
  simp [attached, isAttach]

end Call

namespace Registrar

variable {ν : Type} [Viewer ν]

/-- Carries out one call; an attachment that is refused changes nothing. -/
def perform (r : Registrar ν) : Call ν → Registrar ν
  | .register m => (r.register m).1
  | .attach viewer =>
    match r.attach viewer with
    | .ok (s, _) => s
    | .error _ => r

theorem perform_register_queueing (queue : List Mapping) (s : Store) (m : Mapping) :
    perform (⟨.queueing queue, s⟩ : Registrar ν) (.register m) = ⟨.queueing (queue ++ [m]), s⟩ :=
  rfl

theorem perform_attach_queueing (queue : List Mapping) (s : Store) (viewer : ν) :
    perform ⟨.queueing queue, s⟩ (.attach viewer) =
      ⟨.forwarding (Viewer.render viewer (s.mergedOnto queue) (.drained queue.length)),
        s.mergedOnto queue⟩ := by
  simp only [perform, attach, Store.mergeAll_fst]

theorem perform_register_forwarding (viewer : ν) (s : Store) (m : Mapping) :
    perform ⟨.forwarding viewer, s⟩ (.register m) =
      ⟨.forwarding (Viewer.render viewer (s.merge m).1 (.registered m.keys)), (s.merge m).1⟩ :=
  rfl

theorem perform_attach_forwarding (viewer late : ν) (s : Store) :
    perform ⟨.forwarding viewer, s⟩ (.attach late) = ⟨.forwarding viewer, s⟩ :=
  rfl

def run (r : Registrar ν) (calls : List (Call ν)) : Registrar ν := calls.foldl perform r

theorem run_append (r : Registrar ν) (calls more : List (Call ν)) :
    r.run (calls ++ more) = (r.run calls).run more :=
  List.foldl_append

theorem run_concat (r : Registrar ν) (calls : List (Call ν)) (c : Call ν) :
    r.run (calls ++ [c]) = (r.run calls).perform c := by
  rw [run_append]
  rfl

/-- The registrar holds what the calls made so far have brought: in the queue, or merged. -/
def Holds (policy : Policy) (calls : List (Call ν)) (r : Registrar ν) : Prop :=
  match r.phase with
  | .queueing queue =>
    Call.attached calls = false ∧ queue = Call.registered calls ∧ r.store = Store.empty policy
  | .forwarding _ =>
    Call.attached calls = true ∧
      r.store = (Store.empty policy).mergedOnto (Call.registered calls)

/-- Each call is accounted for in either phase, a refused attachment included. -/
theorem Holds.perform {policy : Policy} {calls : List (Call ν)} {r : Registrar ν}
    (h : Holds policy calls r) (c : Call ν) : Holds policy (calls ++ [c]) (r.perform c) := by
  obtain ⟨phase, store⟩ := r
  cases phase with
  | queueing queue =>
    obtain ⟨ha, rfl, rfl⟩ := h
    cases c with
    | register m =>
      rw [perform_register_queueing]
      exact ⟨by simpa using ha, by simp, rfl⟩
    | attach viewer =>
      rw [perform_attach_queueing]
      exact ⟨by simp, by simp⟩
  | forwarding viewer =>
    obtain ⟨ha, rfl⟩ := h
    cases c with
    | register m =>
      rw [perform_register_forwarding]
      exact ⟨by simpa using ha, by rw [Call.registered_concat_register, Store.mergedOnto_concat]⟩
    | attach late =>
      rw [perform_attach_forwarding]
      exact ⟨by simp, by simp⟩

theorem holds_run (policy : Policy) (calls : List (Call ν)) :
    Holds policy calls ((waiting ν policy).run calls) := by
  induction calls using List.reverseRecOn with
  | nil => exact ⟨rfl, rfl, rfl⟩
  | append_singleton calls c ih =>
    rw [run_concat]
    exact ih.perform c

omit [Viewer ν] in
theorem Holds.store_eq {policy : Policy} {calls : List (Call ν)} {r : Registrar ν}
    (h : Holds policy calls r) :
    r.store = if Call.attached calls then (Store.empty policy).mergedOnto (Call.registered calls)
      else Store.empty policy := by
  obtain ⟨phase, store⟩ := r
  cases phase with
  | queueing queue =>
    obtain ⟨ha, -, hs⟩ := h
    rw [ha]
    exact hs
  | forwarding viewer =>
    obtain ⟨ha, hs⟩ := h
    rw [ha]
    exact hs

omit [Viewer ν] in
theorem Holds.pending_eq {policy : Policy} {calls : List (Call ν)} {r : Registrar ν}
    (h : Holds policy calls r) :
    r.pending = if Call.attached calls then 0 else (Call.registered calls).length := by
  obtain ⟨phase, store⟩ := r
  cases phase with
  | queueing queue =>
    obtain ⟨ha, rfl, -⟩ := h
    rw [ha]
    rfl
  | forwarding viewer =>
    rw [h.1]
    rfl

/-- Until the first attachment all mappings wait, and nothing has been merged. -/
theorem run_of_not_attached (policy : Policy) {calls : List (Call ν)}
    (h : Call.attached calls = false) :
    (waiting ν policy).run calls = ⟨.queueing (Call.registered calls), Store.empty policy⟩ := by
  have hr := holds_run (ν := ν) policy calls
  generalize (waiting ν policy).run calls = r at hr ⊢
  obtain ⟨phase, store⟩ := r
  cases phase with
  | queueing queue =>
    obtain ⟨-, rfl, rfl⟩ := hr
    rfl
  | forwarding viewer =>
    have ha : Call.attached calls = true := hr.1
    rw [h] at ha
    cases ha

/-- The first attachment is not refused. -/
theorem attach_run_of_not_attached (policy : Policy) {calls : List (Call ν)}
    (h : Call.attached calls = false) (viewer : ν) :
    ∃ drained, ((waiting ν policy).run calls).attach viewer =
      .ok ((waiting ν policy).run (calls ++ [.attach viewer]), drained) := by
  rw [run_concat, run_of_not_attached policy h]
  exact ⟨_, rfl⟩

/-- From the first attachment on, the store does not show when that was. -/
theorem store_run_of_attached (policy : Policy) {calls : List (Call ν)}
    (h : Call.attached calls = true) :
    ((waiting ν policy).run calls).store =
      (Store.empty policy).mergedOnto (Call.registered calls) := by
  rw [(holds_run policy calls).store_eq, if_pos h]

/-- Nothing that is registered is lost, repeated or reordered, wherever viewers are attached. Until
the first attachment the store is empty and every mapping waits; from then on the store is what
merging the mappings one by one gives, and none waits. So two runs that register the same mappings and
both attach a viewer end with the same store. -/
theorem run_registers_all_in_order (policy : Policy) (calls : List (Call ν)) :
    ((waiting ν policy).run calls).store =
        (if Call.attached calls then (Store.empty policy).mergedOnto (Call.registered calls)
          else Store.empty policy) ∧
      ((waiting ν policy).run calls).pending =
        (if Call.attached calls then 0 else (Call.registered calls).length) ∧
      ∀ others : List (Call ν), Call.registered others = Call.registered calls →
        Call.attached calls = true → Call.attached others = true →
          ((waiting ν policy).run others).store = ((waiting ν policy).run calls).store := by
  have hr := holds_run policy calls
  refine ⟨hr.store_eq, hr.pending_eq, ?_⟩
  intro others hm hc ho
  rw [store_run_of_attached policy hc, store_run_of_attached policy ho, hm]

/-- The second mapping arrives after the viewer, or before it. -/
theorem run_registers_all_in_order_late_attach :
    let a := Mapping.ofEntries [("a".toList, [.plain (.verbatim "x".toList)])]
    let b := Mapping.ofEntries [("b".toList, []), ("a".toList, [.plain (.verbatim "y".toList)])]
    ((waiting Recorder .skipIdentical).run [.register a, .attach ⟨[]⟩, .register b]).store =
      ((waiting Recorder .skipIdentical).run [.register a, .register b, .attach ⟨[]⟩]).store :=
  (run_registers_all_in_order .skipIdentical
    ([.register _, .register _, .attach ⟨[]⟩] : List (Call Recorder))).2.2
    [.register _, .attach ⟨[]⟩, .register _] rfl rfl rfl

end Registrar
end Implementors
