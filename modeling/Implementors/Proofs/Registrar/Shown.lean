import Implementors.Panel
import Implementors.Proofs.Registrar.Runs
import Mathlib

/-!
# What viewers are shown

The viewer that is attached first is shown the store when it is attached, and again after every later
registration, each time as it is right then. A viewer that comes later is refused and leaves no trace.
So an attached panel always shows the store as it is, and has been rendered once for its attachment
and once for each registration since.
-/
namespace Implementors
namespace Registrar

variable {ν : Type} [Viewer ν]

/-- What a viewer is shown during some calls if it was attached before: the store as every
registration leaves it. The calls made `before` on the new registrar determine that store. -/
def shownDuring (policy : Policy) (before : List (Call ν)) :
    List (Call ν) → List (Store × Cause)
  | [] => []
  | .register m :: rest =>
    (((waiting ν policy).run (before ++ [.register m])).store, .registered m.keys) ::
      shownDuring policy (before ++ [.register m]) rest
  | .attach late :: rest => shownDuring policy (before ++ [.attach late]) rest

/-- All that the viewer attached between some calls is shown, its attachment first. -/
def shown (policy : Policy) (before : List (Call ν)) (viewer : ν) (after : List (Call ν)) :
    List (Store × Cause) :=
  (((waiting ν policy).run (before ++ [.attach viewer])).store,
      .drained (Call.registered before).length) ::
    shownDuring policy (before ++ [.attach viewer]) after

/-- Shows a viewer one store after another. -/
def showAll (viewer : ν) (log : List (Store × Cause)) : ν :=
  log.foldl (fun v e => Viewer.render v e.1 e.2) viewer

theorem showAll_concat (viewer : ν) (log : List (Store × Cause)) (store : Store) (cause : Cause) :
    showAll viewer (log ++ [(store, cause)]) = Viewer.render (showAll viewer log) store cause :=
  List.foldl_append

/-- A recorder writes down all that it is shown. -/
theorem showAll_recorder (seen log : List (Store × Cause)) :
    showAll (Recorder.mk seen) log = ⟨seen ++ log⟩ := by
  induction log using List.reverseRecOn with
  | nil => rw [List.append_nil]; rfl
  | append_singleton log e ih => rw [showAll_concat, ih, ← List.append_assoc]; rfl

theorem shownDuring_concat_register (policy : Policy) (before after : List (Call ν))
    (m : Mapping) : shownDuring policy before (after ++ [.register m]) =
      shownDuring policy before after ++
        [(((waiting ν policy).run (before ++ after ++ [.register m])).store,
          .registered m.keys)] := by
  induction after generalizing before with
  | nil => simp [shownDuring]
  | cons c after ih => cases c <;> simp [shownDuring, ih]

theorem shownDuring_concat_attach (policy : Policy) (before after : List (Call ν)) (late : ν) :
    shownDuring policy before (after ++ [.attach late]) = shownDuring policy before after := by
  induction after generalizing before with
  | nil => rfl
  | cons c after ih => cases c <;> simp [shownDuring, ih]

/-- Registrations are shown in their order, one time each. -/
theorem causes_shownDuring (policy : Policy) (before after : List (Call ν)) :
    (shownDuring policy before after).map Prod.snd =
      (Call.registered after).map fun m => .registered m.keys := by
  induction after generalizing before with
  | nil => rfl
  | cons c after ih =>
    cases c with
    | register m => exact congrArg (Cause.registered m.keys :: ·) (ih _)
    | attach late => exact ih _

theorem causes_shown (policy : Policy) (before : List (Call ν)) (viewer : ν)
    (after : List (Call ν)) :
    (shown policy before viewer after).map Prod.snd =
      .drained (Call.registered before).length ::
        (Call.registered after).map fun m => .registered m.keys :=
  congrArg (Cause.drained _ :: ·) (causes_shownDuring policy _ after)

/-- Nothing but registrations is shown after the attachment. -/
theorem length_shown (policy : Policy) (before : List (Call ν)) (viewer : ν)
    (after : List (Call ν)) :
    (shown policy before viewer after).length = 1 + (Call.registered after).length := by
  have h := congrArg List.length (causes_shown policy before viewer after)
  simp only [List.length_map, List.length_cons] at h
  omega

theorem phase_run_of_not_attached (policy : Policy) {calls : List (Call ν)}
    (h : Call.attached calls = false) :
    ((waiting ν policy).run calls).phase = .queueing (Call.registered calls) := by
  rw [run_of_not_attached policy h]

/-- A registrar in its forwarding phase refuses every viewer and stays as it is. -/
theorem attach_of_forwarding {r : Registrar ν} {viewer : ν} (h : r.phase = .forwarding viewer)
    (late : ν) : r.attach late = .error .alreadyAttached ∧ r.perform (.attach late) = r := by
  obtain ⟨phase, store⟩ := r
  cases h
  exact ⟨rfl, rfl⟩

/-- The viewer that is attached first has been shown just what it should be, and the last store that
it was shown is the present one. -/
theorem phase_run_of_attached (policy : Policy) {before : List (Call ν)}
    (h : Call.attached before = false) (viewer : ν) (after : List (Call ν)) :
    ((waiting ν policy).run (before ++ .attach viewer :: after)).phase =
        .forwarding (showAll viewer (shown policy before viewer after)) ∧
      ((shown policy before viewer after).getLast?.map Prod.fst =
        some ((waiting ν policy).run (before ++ .attach viewer :: after)).store) := by
  induction after using List.reverseRecOn with
  | nil =>
    refine ⟨?_, rfl⟩
    rw [run_concat, shown, run_concat, run_of_not_attached policy h, perform_attach_queueing]
    rfl
  | append_singleton after c ih =>
    obtain ⟨hp, hs⟩ := ih
    have hr : (waiting ν policy).run (before ++ .attach viewer :: (after ++ [c])) =
        ((waiting ν policy).run (before ++ .attach viewer :: after)).perform c := by
      rw [← List.cons_append, ← List.append_assoc, run_concat]
    cases c with
    | register m =>
      have hd : shown policy before viewer (after ++ [.register m]) =
          shown policy before viewer after ++
            [(((waiting ν policy).run (before ++ .attach viewer :: after)).perform
              (.register m) |>.store, .registered m.keys)] := by
        rw [shown, shownDuring_concat_register, ← hr, shown]
        simp
      rw [hr, hd, showAll_concat, List.getLast?_concat]
      refine ⟨?_, rfl⟩
      generalize (waiting ν policy).run (before ++ .attach viewer :: after) = r at hp ⊢
      obtain ⟨phase, store⟩ := r
      cases hp
      rw [perform_register_forwarding]
    | attach late =>
      have hd : shown policy before viewer (after ++ [.attach late]) =
          shown policy before viewer after := by
        rw [shown, shownDuring_concat_attach, ← shown]
      rw [hr, hd, (attach_of_forwarding hp late).2]
      exact ⟨hp, hs⟩

/-- Viewers that are refused make no difference to a run. -/
theorem run_eq_of_registered_eq (policy : Policy) {before : List (Call ν)}
    (h : Call.attached before = false) (viewer : ν) (after : List (Call ν)) :
    (waiting ν policy).run (before ++ .attach viewer :: after) =
      (waiting ν policy).run
        (before ++ .attach viewer :: (Call.registered after).map .register) := by
  induction after using List.reverseRecOn with
  | nil => rfl
  | append_singleton after c ih =>
    rw [← List.cons_append, ← List.append_assoc, run_concat]
    cases c with
    | register m =>
      rw [ih, Call.registered_concat_register, List.map_append, ← List.cons_append,
        ← List.append_assoc, List.map_singleton, run_concat]
    | attach late =>
      have hp := (phase_run_of_attached policy h viewer after).1
      rw [(attach_of_forwarding hp late).2, ih, Call.registered_concat_attach]

/-- A panel shows the last store that it was shown, with the options it was made with. -/
theorem showAll_panel (p : Panel) {log : List (Store × Cause)} {store : Store}
    (h : log.getLast?.map Prod.fst = some store) :
    let q := showAll p log
    q.options = p.options ∧ (q.contents, q.shown) = Panel.renderStore p.options store ∧
      q.renders = p.renders + log.length := by
  induction log using List.reverseRecOn generalizing store with
  | nil => cases h
  | append_singleton log e ih =>
    obtain ⟨s, cause⟩ := e
    obtain rfl : s = store := by simpa using h
    have hq : (showAll p log).options = p.options ∧
        (showAll p log).renders = p.renders + log.length := by
      cases hl : log.getLast? with
      | none =>
        rw [List.getLast?_eq_none_iff.1 hl]
        exact ⟨rfl, rfl⟩
      | some d =>
        have hd : log.getLast?.map Prod.fst = some d.1 := by
          rw [hl]
          rfl
        obtain ⟨ho, -, hn⟩ := ih hd
        exact ⟨ho, hn⟩
    intro q
    have he : q = Viewer.render (showAll p log) s cause := showAll_concat p log s cause
    rw [he, List.length_append]
    refine ⟨hq.1, ?_, ?_⟩
    · rw [← hq.1]
      rfl
    · have hr : (Viewer.render (showAll p log) s cause).renders = (showAll p log).renders + 1 := rfl
      rw [hr, hq.2, List.length_singleton, Nat.add_assoc]

/-- The first viewer is attached without ado and shown the store: at first with the number of mappings
that waited for it, then once for each later registration, with the crates of its mapping in their
order, and always as the store is right after the call. Every later viewer is refused, which changes
nothing; a run is the same without it. So a panel, from its attachment on, always shows the present
store, and it has been rendered once more than mappings were registered since. -/
theorem first_viewer_is_shown_every_store (policy : Policy) :
    (∀ {ν : Type} [Viewer ν] (before : List (Call ν)) (viewer : ν) (after : List (Call ν)),
      Call.attached before = false →
        let r := (waiting ν policy).run (before ++ .attach viewer :: after)
        ((waiting ν policy).run before).viewer? = none ∧
        r.viewer? = some (showAll viewer (shown policy before viewer after)) ∧
        (shown policy before viewer after).map Prod.snd =
          .drained (Call.registered before).length ::
            (Call.registered after).map (fun m => .registered m.keys) ∧
        (∀ late, r.attach late = .error .alreadyAttached ∧ r.perform (.attach late) = r) ∧
        r = (waiting ν policy).run
          (before ++ .attach viewer :: (Call.registered after).map .register)) ∧
    ∀ (before : List (Call Panel)) (options : PanelOptions) (after : List (Call Panel)),
      Call.attached before = false →
        let r := (waiting Panel policy).run (before ++ .attach { options } :: after)
        ∃ p, r.viewer? = some p ∧ p.options = options ∧
          (p.contents, p.shown) = Panel.renderStore options r.store ∧
          p.renders = 1 + (Call.registered after).length := by
  constructor
  · intro ν _ before viewer after h r
    obtain ⟨hp, -⟩ := phase_run_of_attached policy h viewer after
    refine ⟨?_, ?_, causes_shown policy before viewer after, attach_of_forwarding hp,
      run_eq_of_registered_eq policy h viewer after⟩
    · rw [viewer?, phase_run_of_not_attached policy h]
    · rw [viewer?, hp]
  · intro before options after h r
    obtain ⟨hp, hs⟩ := phase_run_of_attached policy h ({ options } : Panel) after
    obtain ⟨ho, hc, hn⟩ := showAll_panel ({ options } : Panel) hs
    refine ⟨_, by rw [viewer?, hp], ho, hc, ?_⟩
    rw [hn, length_shown]
    exact Nat.zero_add _

/-- One mapping waits, a second viewer is refused, and a mapping that adds nothing is shown as well. -/
theorem first_viewer_is_shown_every_store_refused_viewer :
    let a := Mapping.ofEntries [("a".toList, [.plain (.verbatim "x".toList)])]
    let b := Mapping.ofEntries [("b".toList, []), ("a".toList, [.plain (.verbatim "x".toList)])]
    (∃ log, ((waiting Recorder .skipIdentical).run
        [.register a, .attach ⟨[]⟩, .attach ⟨[]⟩, .register b]).viewer? = some ⟨log⟩ ∧
      log.map (fun e => (e.1.count, e.2)) =
        [(1, .drained 1), (1, .registered ["b".toList, "a".toList])]) ∧
      ∃ p, ((waiting Panel .skipIdentical).run
          [.register a, .attach { options := { format := .text } }, .register b]).viewer? = some p ∧
        p.contents = "Implementors\n  a\n    x\n".toList ∧ p.shown = 1 ∧ p.renders = 2 := by
  intro a b
  have hr := ((first_viewer_is_shown_every_store .skipIdentical).1 [.register a]
    (⟨[]⟩ : Recorder) [.attach ⟨[]⟩, .register b] rfl).2.1
  obtain ⟨p, hv, -, hc, hn⟩ := (first_viewer_is_shown_every_store .skipIdentical).2 [.register a]
    { format := .text } [.register b] rfl
  obtain ⟨hc, hs⟩ := Prod.mk.inj hc
  rw [showAll_recorder, List.nil_append] at hr
  exact ⟨⟨_, hr, by decide⟩, p, hv, hc.trans (by decide), hs.trans (by decide), hn⟩

end Registrar
end Implementors
