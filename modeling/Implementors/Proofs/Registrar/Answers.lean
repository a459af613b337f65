import Implementors.Proofs.Registrar.Runs
import Implementors.Proofs.Store.Runs
import Mathlib

/-!
# What a registrar answers

Every call is answered: a registration by the length of the queue or by how much was merged, an
attachment by what became of the queue. The answers keep account of the store: whatever the phase, a
call adds to the store just as many implementors as its answer says.
-/
namespace Implementors

namespace Call

variable {ν : Type}

/-- Until a viewer is attached there is nothing but registrations. -/
theorem eq_map_register_of_not_attached {calls : List (Call ν)} (h : attached calls = false) :
    calls = (registered calls).map .register := by
  induction calls with
  | nil => rfl
  | cons c calls ih =>
    cases c with
    | register m => exact congrArg (Call.register m :: ·) (ih h)
    | attach viewer => cases h

end Call

namespace Registrar

/-- The answer to a call. -/
inductive Answer where
  | registration (r : Registration)
  | attachment (r : Except AttachError Drained)
  deriving DecidableEq

namespace Answer

/-- The number of implementors that a call has added to the store, by its answer. -/
def added : Answer → Nat
  | .registration (.forwarded n) => n
  | .attachment (.ok drained) => drained.added
  | _ => 0

/-- The number of implementors added by a registration that was forwarded. -/
def forwarded? : Answer → Option Nat
  | .registration (.forwarded n) => some n
  | _ => none

/-- The answers to calls that are made while a viewer is attached. -/
inductive Late {ν : Type} : Call ν → Answer → Prop
  | forwarded (m : Mapping) (added : Nat) :
      Late (.register m) (.registration (.forwarded added))
  | refused (viewer : ν) : Late (.attach viewer) (.attachment (.error .alreadyAttached))

variable {ν : Type} {calls : List (Call ν)} {answers : List Answer}

/-- Each registration is forwarded. -/
theorem length_forwarded (h : List.Forall₂ Late calls answers) :
    (answers.filterMap forwarded?).length = (Call.registered calls).length := by
  induction h with
  | nil => rfl
  | cons hc _ ih =>
    cases hc with
    | forwarded m added => exact congrArg (· + 1) ih
    | refused viewer => exact ih

/-- Nothing is added but by registrations that are forwarded. -/
theorem sum_added (h : List.Forall₂ Late calls answers) :
    (answers.map added).sum = (answers.filterMap forwarded?).sum := by
  induction h with
  | nil => rfl
  | cons hc _ ih =>
    cases hc with
    | forwarded m added => exact congrArg (added + ·) ih
    | refused viewer => exact (Nat.zero_add _).trans ih

end Answer

variable {ν : Type} [Viewer ν]

def answer (r : Registrar ν) : Call ν → Answer
  | .register m => .registration (r.register m).2
  | .attach viewer => .attachment ((r.attach viewer).map Prod.snd)

/-- The answers to calls that are made one after another. -/
def answers (r : Registrar ν) : List (Call ν) → List Answer
  | [] => []
  | c :: calls => r.answer c :: (r.perform c).answers calls

theorem answers_append (r : Registrar ν) (calls more : List (Call ν)) :
    r.answers (calls ++ more) = r.answers calls ++ (r.run calls).answers more := by
  induction calls generalizing r with
  | nil => rfl
  | cons c calls ih => exact congrArg (r.answer c :: ·) (ih (r.perform c))

/-- The first answers are those to the first calls. -/
theorem take_answers (r : Registrar ν) (calls : List (Call ν)) (n : Nat) :
    (r.answers calls).take n = r.answers (calls.take n) := by
  induction calls generalizing r n with
  | nil => rw [List.take_nil, answers, List.take_nil]
  | cons c calls ih =>
    cases n with
    | zero => rfl
    | succ n => exact congrArg (r.answer c :: ·) (ih (r.perform c) n)

/-- The answer to a call says by how much the store grows. -/
theorem count_perform (r : Registrar ν) (c : Call ν) :
    (r.perform c).store.count = r.store.count + (r.answer c).added := by
  obtain ⟨phase, store⟩ := r
  cases phase with
  | queueing queue =>
    cases c with
    | register m => rfl
    | attach viewer => exact store.count_mergeAll queue
  | forwarding viewer =>
    cases c with
    | register m => exact store.count_mergeEntries m.entries
    | attach late => rfl

theorem count_run (r : Registrar ν) (calls : List (Call ν)) :
    (r.run calls).store.count = r.store.count + ((r.answers calls).map Answer.added).sum := by
  induction calls generalizing r with
  | nil => rfl
  | cons c calls ih =>
    have hrest := ih (r.perform c)
    rw [count_perform, Nat.add_assoc] at hrest
    exact hrest

/-- Each registration that waits is told its place in the queue. -/
theorem answers_register_queueing (queue ms : List Mapping) (s : Store) :
    (⟨.queueing queue, s⟩ : Registrar ν).answers (ms.map .register) =
      (List.range' (queue.length + 1) ms.length).map fun depth =>
        .registration (.queued depth) := by
  induction ms generalizing queue with
  | nil => rfl
  | cons m ms ih =>
    have hrest := ih (queue ++ [m])
    rw [List.length_append] at hrest
    exact congrArg (Answer.registration (.queued (queue.length + 1)) :: ·) hrest

/-- Once a viewer is attached, it stays, and every call is answered accordingly. -/
theorem answers_forwarding (viewer : ν) (s : Store) (calls : List (Call ν)) :
    List.Forall₂ Answer.Late calls ((⟨.forwarding viewer, s⟩ : Registrar ν).answers calls) := by
  induction calls generalizing viewer s with
  | nil => exact .nil
  | cons c calls ih =>
    cases c with
    | register m => exact .cons (.forwarded m _) (ih _ _)
    | attach late => exact .cons (.refused late) (ih viewer s)

/-- The answers to a run in which a viewer is attached account for every call. Until the first
attachment, registrations are told their places in the queue, one after another; the attachment says
how many there were; then all registrations are forwarded and viewers refused. The mappings that
waited and those that were forwarded are all that were registered, and at every moment from the
attachment on, what was added according to the answers is what the store holds. -/
theorem answers_account_for_calls (policy : Policy) {before : List (Call ν)}
    (h : Call.attached before = false) (viewer : ν) :
    ∃ drained, ∀ after : List (Call ν), ∃ later,
      let calls := before ++ .attach viewer :: after
      (waiting ν policy).answers calls =
          (List.range' 1 before.length).map (fun depth => .registration (.queued depth)) ++
            .attachment (.ok drained) :: later ∧
        List.Forall₂ Answer.Late after later ∧
        drained.mappings + (later.filterMap Answer.forwarded?).length =
          (Call.registered calls).length ∧
        ∀ moment, drained.added + ((later.take moment).filterMap Answer.forwarded?).sum =
          ((waiting ν policy).run
            (before ++ .attach viewer :: after.take moment)).store.count := by
  obtain ⟨ms, rfl⟩ : ∃ ms : List Mapping, before = ms.map .register :=
    ⟨_, Call.eq_map_register_of_not_attached h⟩
  let merged := (Store.empty policy).mergeAll ms
  let r : Registrar ν :=
    ⟨.forwarding (Viewer.render viewer merged.1 (.drained ms.length)), merged.1⟩
  have hqueue : (waiting ν policy).run (ms.map .register) = ⟨.queueing ms, Store.empty policy⟩ := by
    rw [run_of_not_attached policy h, Call.registered_map_register]
  have hlate : ∀ calls, List.Forall₂ Answer.Late calls (r.answers calls) := answers_forwarding _ _
  refine ⟨⟨ms.length, merged.2⟩, fun after => ⟨r.answers after, ?_, hlate after, ?_, fun moment => ?_⟩⟩
  · rw [answers_append, hqueue, waiting, answers_register_queueing, List.length_map]
    rfl
  · have hnone : Call.registered (.attach viewer :: after) = Call.registered after := rfl
    rw [Call.registered_append, List.length_append, Call.registered_map_register, hnone,
      Answer.length_forwarded (hlate after)]
  · have hcount : r.store.count = (Store.empty policy).count + merged.2 :=
      (Store.empty policy).count_mergeAll ms
    have hzero : (Store.empty policy).count = 0 := rfl
    have hrun : (waiting ν policy).run (ms.map .register ++ .attach viewer :: after.take moment) =
        r.run (after.take moment) := by
      rw [run_append, hqueue]
      rfl
    rw [take_answers, ← Answer.sum_added (hlate (after.take moment)), hrun, count_run, hcount, hzero,
      Nat.zero_add]

/-- Two mappings wait; after the attachment one adds nothing, a viewer is refused, and another mapping
adds an implementor with the same header as one that is there. -/
theorem answers_account_for_calls_refused_viewer :
    let x : Implementor := .plain (.ofNames "X".toList "T".toList)
    let linked : Implementor := ⟨x.header, some "<a>X</a>".toList⟩
    let a := Mapping.ofEntries [("a".toList, [x, x])]
    let b := Mapping.ofEntries [("b".toList, []), ("a".toList, [x])]
    let c := Mapping.ofEntries [("a".toList, [linked])]
    let before : List (Call Recorder) := [.register a, .register b]
    let after : List (Call Recorder) := [.register b, .attach ⟨[]⟩, .register c]
    let r := waiting Recorder .skipIdentical
    let calls := before ++ .attach ⟨[]⟩ :: after
    Call.attached before = false ∧ ∃ drained later,
      r.answers calls = [.registration (.queued 1), .registration (.queued 2)] ++
          .attachment (.ok drained) :: later ∧
        later = [.registration (.forwarded 0), .attachment (.error .alreadyAttached),
          .registration (.forwarded 1)] ∧
        drained.mappings + (later.filterMap Answer.forwarded?).length =
          (Call.registered calls).length ∧
        drained.added + ((later.take 2).filterMap Answer.forwarded?).sum =
          (r.run (before ++ .attach ⟨[]⟩ :: after.take 2)).store.count := by
  intro x linked a b c before after r calls
  have h : Call.attached before = false := rfl
  obtain ⟨drained, hall⟩ := answers_account_for_calls .skipIdentical h ⟨[]⟩
  obtain ⟨later, hanswers, -, hmappings, hadded⟩ := hall after
  refine ⟨h, drained, later, hanswers, ?_, hmappings, hadded 2⟩
  have hlater := congrArg (List.drop 3) hanswers
  exact hlater.symm.trans (by decide)

end Registrar
end Implementors
