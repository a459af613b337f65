import Implementors.Command
import Implementors.Files.Tree
import Mathlib

/-!
# Commands on file trees

Carried out on a file tree, a command gives its result, or its error, and the tree that it leaves.
-/
namespace Implementors.Command

variable {α β : Type}

/-- What a command gives on a file tree, and the tree afterwards. -/
def on (c : Command (StateM FileTree) α) (t : FileTree) : Except CommandError α × FileTree :=
  c.run t

@[simp] theorem on_pure (a : α) (t : FileTree) :
    on (pure a : Command (StateM FileTree) α) t = (.ok a, t) :=
  rfl

@[simp] theorem on_read (path : Text) (t : FileTree) :
    on (ExceptT.lift (FileSystem.read path) : Command (StateM FileTree) _) t =
      (.ok (t.read path), t) :=
  rfl

/-- A command goes on with the result of its first part, on the tree that this leaves. -/
theorem on_bind (c : Command (StateM FileTree) α) (next : α → Command (StateM FileTree) β)
    (t : FileTree) : on (c >>= next) t =
      match on c t with
      | (.ok a, u) => on (next a) u
      | (.error e, u) => (.error e, u) := by
  change (match on c t with | (r, u) => ExceptT.bindCont next r u) = _
  rcases on c t with ⟨_ | a, u⟩ <;> rfl

theorem on_bind_ok {c : Command (StateM FileTree) α} {t u : FileTree} {a : α}
    (h : on c t = (.ok a, u)) (next : α → Command (StateM FileTree) β) :
    on (c >>= next) t = on (next a) u := by
  rw [on_bind, h]

theorem on_bind_error {c : Command (StateM FileTree) α} {t u : FileTree} {e : CommandError}
    (h : on c t = (.error e, u)) (next : α → Command (StateM FileTree) β) :
    on (c >>= next) t = (.error e, u) := by
  rw [on_bind, h]

/-- A command gives a result only if its first part does, and the rest on the tree that this leaves. -/
theorem of_on_bind_ok {c : Command (StateM FileTree) α} {next : α → Command (StateM FileTree) β}
    {t w : FileTree} {b : β} (h : on (c >>= next) t = (.ok b, w)) :
    ∃ a u, on c t = (.ok a, u) ∧ on (next a) u = (.ok b, w) := by
  rw [on_bind] at h
  cases hc : on c t with
  | mk result u =>
    rw [hc] at h
    cases result with
    | error e => cases h
    | ok a => exact ⟨a, u, rfl, h⟩

section Required

variable {action : StateM FileTree Bool} {e : CommandError} {t u : FileTree}

theorem on_require_of_done (h : action.run t = (true, u)) : on (require action e) t = (.ok (), u) := by
  have ha : on (ExceptT.lift action : Command (StateM FileTree) Bool) t = (.ok true, u) :=
    congrArg (fun r : Bool × FileTree => (Except.ok r.1, r.2)) h
  rw [require, on_bind_ok ha]
  rfl

theorem on_require_of_not_done (h : action.run t = (false, u)) :
    on (require action e) t = (.error e, u) := by
  have ha : on (ExceptT.lift action : Command (StateM FileTree) Bool) t = (.ok false, u) :=
    congrArg (fun r : Bool × FileTree => (Except.ok r.1, r.2)) h
  rw [require, on_bind_ok ha]
  rfl

theorem of_on_require_ok {a : Unit} (h : on (require action e) t = (.ok a, u)) :
    action.run t = (true, u) := by
  cases hr : action.run t with
  | mk done w =>
    cases done with
    | true =>
      rw [on_require_of_done hr] at h
      cases h
      rfl
    | false =>
      rw [on_require_of_not_done hr] at h
      cases h

end Required

/-- Making directories is done if the tree has it done. -/
theorem run_createDirectories {t u : FileTree} {path : Text} {done : Bool} :
    (FileSystem.createDirectories path : StateM FileTree Bool).run t = (done, u) ↔
      t.createDirectories path = (u, done) :=
  ⟨fun h => congrArg Prod.swap h, fun h => congrArg Prod.swap h⟩

theorem run_write {t u : FileTree} {path contents : Text} {done : Bool} :
    (FileSystem.write path contents : StateM FileTree Bool).run t = (done, u) ↔
      t.write path contents = (u, done) :=
  ⟨fun h => congrArg Prod.swap h, fun h => congrArg Prod.swap h⟩

end Implementors.Command
