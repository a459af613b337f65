import Implementors.Panel
import Implementors.Proofs.Registrar.Runs
import Mathlib

/-!
# An attached panel shows the store

Once a panel is attached, it shows the section for the store as it is after every call, with the
options it was attached with.
-/
namespace Implementors.Registrar

/-- A panel with these options is attached and shows the store. -/
def ShowsStore (options : PanelOptions) (r : Registrar Panel) : Prop :=
  ∃ p, r.phase = .forwarding p ∧ p.options = options ∧
    p.contents = (Panel.renderStore options r.store).1

theorem ShowsStore.perform {options : PanelOptions} {r : Registrar Panel}
    (h : ShowsStore options r) (c : Call Panel) : ShowsStore options (r.perform c) := by
  obtain ⟨phase, store⟩ := r
  obtain ⟨p, rfl, rfl, hc⟩ := h
  cases c with
  | register m =>
    rw [perform_register_forwarding]
    exact ⟨_, rfl, rfl, rfl⟩
  | attach late =>
    rw [perform_attach_forwarding]
    exact ⟨p, rfl, rfl, hc⟩

theorem ShowsStore.run {options : PanelOptions} {r : Registrar Panel}
    (h : ShowsStore options r) (calls : List (Call Panel)) :
    ShowsStore options (r.run calls) := by
  induction calls generalizing r with
  | nil => exact h
  | cons c calls ih => exact ih (h.perform c)

/-- The panel that is attached first is shown the store that the queue makes. -/
theorem showsStore_run_attach (policy : Policy) {calls : List (Call Panel)}
    (h : Call.attached calls = false) (p : Panel) :
    ShowsStore p.options ((waiting Panel policy).run (calls ++ [.attach p])) := by
  rw [run_concat, run_of_not_attached policy h, perform_attach_queueing]
  exact ⟨_, rfl, rfl, rfl⟩

theorem ShowsStore.contents {options : PanelOptions} {r : Registrar Panel}
    (h : ShowsStore options r) :
    r.viewer?.elim [] Panel.contents = (Panel.renderStore options r.store).1 := by
  obtain ⟨phase, store⟩ := r
  obtain ⟨p, rfl, -, hc⟩ := h
  exact hc

end Implementors.Registrar
