import MarkerBoard.Proofs.Disk.Temporary
import MarkerBoard.Proofs.Text.Utf8
import MarkerBoard.Scan

/-!
# Actions on files

What reading and replacing a file does to the world, and what of the world may change while the
program is not running.

Main results:

* `Action.readText_apply` — reading a file as a text changes nothing.
* `Action.replace_of_ok`, `Action.replace_of_error` — replacing a file changes the disk or nothing.
-/
namespace MarkerBoard

namespace Action

variable {w : World} {p : Path} {keepMode : Bool} {t : Text}

/-- Reading a file as a text changes nothing. -/
theorem readText_apply (p : Path) (w : World) :
    ∃ r, readText p w = (.ok r, w) ∧ ∀ text, r = .ok text ↔ w.disk.text? p = some text := by
  rw [readText, Steps.bind_of_ok Steps.get_apply, Disk.text?]
  cases hb : w.disk.bytes p with
  | error f => exact ⟨.error (.disk f), rfl, fun text => by simp⟩
  | ok bytes =>
    cases hd : Utf8.decode bytes with
    | error f =>
      refine ⟨.error (.encoding f), ?_, fun text => by simp [hd, Except.toOption]⟩
      simp only [hd]
      rfl
    | ok t =>
      refine ⟨.ok t, ?_, fun text => by simp [hd, Except.toOption]⟩
      simp only [hd]
      rfl

theorem readText_of_ok (h : w.disk.bytes p = .ok (Utf8.encode t)) :
    readText p w = (.ok (.ok t), w) := by
  rw [readText, Steps.bind_of_ok Steps.get_apply]
  simp only [h, Utf8.decode_encode]
  rfl

theorem readText_of_error {f : Disk.Fault} (h : w.disk.bytes p = .error f) :
    readText p w = (.ok (.error (.disk f)), w) := by
  rw [readText, Steps.bind_of_ok Steps.get_apply]
  simp only [h]
  rfl

theorem replace_of_ok {d : Disk} (h : replaced w p keepMode (Utf8.encode t) = .ok d) :
    replace p keepMode t w = (.ok (.ok ()), { w with disk := d }) := by
  rw [replace, Steps.bind_of_ok Steps.get_apply, replaceVia_apply, h]
  rfl

theorem replace_of_error {f : Disk.Fault} (h : replaced w p keepMode (Utf8.encode t) = .error f) :
    replace p keepMode t w = (.ok (.error f), w) := by
  rw [replace, Steps.bind_of_ok Steps.get_apply, replaceVia_apply, h]
  rfl

end Action

/-! ## Surroundings -/

/-- What is outside of the program, but for the disk. It may change between requests. -/
structure Surroundings where
  env : Keyed Text
  git : Git
  localNow : Moment
  utcNow : Moment
  refusals : Refusals
  freshName : Text

/-- The world with other surroundings. -/
def World.within (w : World) (o : Surroundings) : World :=
  { w with env := o.env, git := o.git, localNow := o.localNow, utcNow := o.utcNow,
           refusals := o.refusals, freshName := o.freshName }

/-- The user to whom changes are attributed. -/
def Surroundings.user (o : Surroundings) : Text := o.git.currentUser o.env

end MarkerBoard
