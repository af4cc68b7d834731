import MarkerBoard.Proofs.Session.Refine

/-!
# What a move does to the tree

A move writes a new file next to the old one, gives it the permission bits of the old one and then
its name. Whether the tree is as before, but for the contents of one file, depends on what has that
name. If it is the file itself, then nothing else has changed: the temporary file is gone, and the
new file has the old permission bits. If it is a link to the file, then the new file stands in the
place of the link, and the file that the link led to has its old contents.

Main results:

* `Action.replaced_eq_put_file` — a replaced file keeps its permission bits.
* `Activity.exists_sameButContents` — a move changes contents only if and only if the path of the
  item is not a link.
-/
namespace MarkerBoard

/-! ## Permission bits -/

namespace Disk

variable {d d' : Disk} {source temporary : Path} {tp r : Place} {bytes old : List UInt8} {m : Nat}

/-- A temporary file is given the permission bits of the file whose path is named. -/
theorem copyMode_eq_put (hnone : d.at? tp = none) (hr : d.at? r = some (.file old m))
    (hsource : Leads d true linkLimit [] (d.absolute source).parts r)
    (hway : Leads (d.put tp (.file bytes privateMode)) true linkLimit []
      (d.absolute temporary).parts tp)
    (h : (d.put tp (.file bytes privateMode)).copyMode source temporary = .ok d') :
    d' = d.put tp (.file bytes m) := by
  unfold copyMode at h
  rw [Steps.except_bind_ok_iff] at h
  obtain ⟨giver, hgiver, h⟩ := h
  rw [Steps.except_bind_ok_iff] at h
  obtain ⟨taker, htaker, h⟩ := h
  -- the path of the old file leads where it led before there was a temporary one
  have hne : tp ≠ r := by
    rintro rfl
    rw [hr] at hnone
    cases hnone
  have hstill := hsource.extend (extends_put_of_none (b := bytes) (m := privateMode) hnone)
    (by rw [hr]; simp)
  obtain rfl : giver = r := (locate_eq_ok_iff.1 hgiver).unique hstill
  obtain rfl : taker = tp := (locate_eq_ok_iff.1 htaker).unique hway
  rw [at?_put_of_ne hne, hr, at?_put_self (ne_nil_of_at?_eq_none hnone)] at h
  cases h
  exact put_put d

end Disk

namespace Action

open Disk

variable {w : World} {target : Path} {bytes old : List UInt8} {d' : Disk} {r : Place} {m : Nat}

/-- The steps of replacing a file with its permission bits. -/
theorem exists_of_replaced (h : replaced w target true bytes = .ok d') :
    ∃ d₁ d₂, w.disk.makeTemporary (w.disk.temporaryPath target.parent w.freshName) bytes = .ok d₁ ∧
      d₁.copyMode target (w.disk.temporaryPath target.parent w.freshName) = .ok d₂ ∧
      d₂.rename (w.disk.temporaryPath target.parent w.freshName) target = .ok d' := by
  unfold replaced at h
  rw [Steps.except_bind_ok_iff] at h
  obtain ⟨-, -, h⟩ := h
  rw [Steps.except_bind_ok_iff] at h
  obtain ⟨d₁, hmake, h⟩ := h
  rw [Steps.except_bind_ok_iff] at h
  obtain ⟨-, -, h⟩ := h
  dsimp only at h
  rw [if_pos rfl, Steps.except_bind_ok_iff] at h
  obtain ⟨-, -, h⟩ := h
  rw [Steps.except_bind_ok_iff] at h
  obtain ⟨d₂, hmode, h⟩ := h
  rw [Steps.except_bind_ok_iff] at h
  obtain ⟨-, -, h⟩ := h
  exact ⟨d₁, d₂, hmake, hmode, h⟩

/-- A file that is replaced is put where its path led, with the permission bits of the file that it
led to when links were followed. -/
theorem replaced_eq_put_file
    (hleads : Leads w.disk true linkLimit [] (w.disk.absolute target).parts r)
    (hr : w.disk.at? r = some (.file old m)) (h : replaced w target true bytes = .ok d') :
    ∃ q, Leads w.disk false linkLimit [] (w.disk.absolute target).parts q ∧
      w.disk.at? q ≠ some .dir ∧ d' = w.disk.put q (.file bytes m) := by
  obtain ⟨d₁, d₂, hmake, hmode, hrename⟩ := exists_of_replaced h
  obtain ⟨tp, hway, hnone, rfl⟩ := exists_of_makeTemporary hmake
  -- the path of the temporary file leads to it, whatever its permission bits are
  have hstill := leads_temporary hway hnone bytes
  obtain rfl := copyMode_eq_put hnone hr hleads (hstill privateMode true) hmode
  obtain ⟨q, hq, hdir, hput⟩ := exists_of_rename hnone (hstill m false) hrename
  obtain ⟨hne, hq⟩ := leads_of_put_new hleads hr hnone hq
  rw [at?_put_of_ne (Ne.symm hne)] at hdir
  exact ⟨q, hq, hdir, hput⟩

end Action

/-! ## Contents -/

namespace Disk

variable {d d' : Disk} {path : Path} {q r : Place} {old new : List UInt8} {m : Nat}

/-- The disks are the same but for the contents of the file that a path leads to: every other place
has the entry that it had, and that file is still a file with the same permission bits. -/
def SameButContents (d d' : Disk) (path : Path) : Prop :=
  ∃ r old new m, Leads d true linkLimit [] (d.absolute path).parts r ∧
    d.at? r = some (.file old m) ∧ d'.at? r = some (.file new m) ∧
    ∀ q, q ≠ r → d'.at? q = d.at? q

/-- A file that is put at the end of a path is in the stead of the old one, unless there was a link
to it. -/
theorem sameButContents_put_iff (hr : Leads d true linkLimit [] (d.absolute path).parts r)
    (hold : d.at? r = some (.file old m))
    (hq : Leads d false linkLimit [] (d.absolute path).parts q) (hdir : d.at? q ≠ some .dir) :
    SameButContents d (d.put q (.file new m)) path ↔ ∀ t, d.at? q ≠ some (.link t) := by
  have hnil : q ≠ [] := ne_nil_of_not_dir hdir
  constructor
  · rintro ⟨r', old', new', m', -, hold', -, hsame⟩ t hlink
    -- the link would have to be where the file is, or else have stayed
    by_cases hne : q = r'
    · rw [← hne, hlink] at hold'
      cases hold'
    · have hfile := hsame q hne
      rw [at?_put_self hnil, hlink] at hfile
      cases hfile
  · intro hlink
    obtain rfl : q = r := (hq.of_no_link hlink true).unique hr
    exact ⟨q, old, new, m, hr, hold, at?_put_self hnil,
      fun p hp => at?_put_of_ne (Ne.symm hp)⟩

end Disk

/-! ## Moves -/

theorem Item.moved_file (i : Item) (s : Settings) (c : Column) (time : Moment) (user : Text) :
    (i.moved s c time user).file = i.file := by
  unfold moved
  rw [markDoneIn_file]
  unfold setStatus
  split
  · rfl
  · rfl

theorem Session.afterMove_world (σ : Session) (scan : Nat) (moved : Moved) :
    (σ.afterMove scan moved).world = σ.world := by
  unfold afterMove
  split
  · rfl
  · rfl

namespace Activity

open Disk

variable {p : Project} {σ σ' : Session} {scan : Nat} {id : Int} {k : Handle} {i j : Item}
  {column : Text}

/-- A request that succeeds has moved the item on the disk. -/
theorem exists_of_moveItem (h : moveItem p scan i column σ = (.ok j, σ')) :
    ∃ s log moved, Action.move p.root s i column { σ.world with log } = (.ok moved, σ'.world) ∧
      j = moved.item := by
  unfold moveItem at h
  rw [Steps.bind_ok_iff] at h
  obtain ⟨s, σ₁, hs, h⟩ := h
  obtain ⟨log, hsettings⟩ := exists_act_settings p σ
  rw [hsettings] at hs
  obtain ⟨-, rfl⟩ := Prod.mk.inj hs
  rw [Steps.bind_ok_iff] at h
  obtain ⟨moved, σ₂, hact, h⟩ := h
  obtain ⟨w', hmove, rfl⟩ := exists_of_act hact
  cases h
  exact ⟨s, log, moved, by rw [Session.afterMove_world]; exact hmove, rfl⟩

theorem exists_moveItem_of_update (h : update p id column σ = (.ok j, σ')) :
    ∃ scan i, moveItem p scan i column σ = (.ok j, σ') := by
  unfold update at h
  rw [Steps.bind_ok_iff, item_apply] at h
  obtain ⟨i, σ₁, hi, h⟩ := h
  split at hi
  · cases hi
    rw [Steps.bind_of_ok Steps.get_apply] at h
    exact ⟨_, _, h⟩
  · cases hi

theorem exists_moveItem_of_updateAt (h : updateAt p k column σ = (.ok j, σ')) :
    ∃ scan i, moveItem p scan i column σ = (.ok j, σ') := by
  unfold updateAt at h
  rw [Steps.bind_of_ok Steps.get_apply] at h
  cases hitem : σ.item? k with
  | none =>
    rw [hitem] at h
    cases h
  | some i =>
    rw [hitem] at h
    exact ⟨_, i, h⟩

/-- A request that succeeds has replaced the file of the item, and nothing else. -/
theorem exists_put_of_moveItem (h : moveItem p scan i column σ = (.ok j, σ')) :
    ∃ q r old new m,
      Leads σ.world.disk false linkLimit []
        (σ.world.disk.absolute (p.root.join (Path.ofText j.file))).parts q ∧
      Leads σ.world.disk true linkLimit []
        (σ.world.disk.absolute (p.root.join (Path.ofText j.file))).parts r ∧
      σ.world.disk.at? r = some (.file old m) ∧ σ.world.disk.at? q ≠ some .dir ∧
      σ'.world.disk = σ.world.disk.put q (.file new m) := by
  obtain ⟨s, log, moved, hmove, rfl⟩ := exists_of_moveItem h
  obtain ⟨c, text, new, d', -, htext, -, hrep, rfl, hw⟩ := Action.exists_of_move hmove
  -- the file has been read, so its path leads to it
  obtain ⟨old, hold⟩ := Action.exists_bytes_of_text? htext
  obtain ⟨r, m, hr, hat⟩ := Action.exists_of_bytes hold
  obtain ⟨q, hq, hdir, rfl⟩ := Action.replaced_eq_put_file hr hat hrep
  rw [Item.moved_file, hw]
  exact ⟨q, r, old, _, m, hq, hr, hat, hdir, rfl⟩

/-- An item that is moved, by its number or by its handle, has had its file replaced. The file that
its path led to gives the permission bits, and the new file is put where the path leads when a link
at its end is not followed. So the move has changed contents only if and only if there was no such
link. -/
theorem exists_sameButContents (h : update p id column σ = (.ok j, σ') ∨
    updateAt p k column σ = (.ok j, σ')) :
    ∃ q r old new m,
      Leads σ.world.disk false linkLimit []
        (σ.world.disk.absolute (p.root.join (Path.ofText j.file))).parts q ∧
      Leads σ.world.disk true linkLimit []
        (σ.world.disk.absolute (p.root.join (Path.ofText j.file))).parts r ∧
      σ.world.disk.at? r = some (.file old m) ∧
      σ'.world.disk = σ.world.disk.put q (.file new m) ∧
      (SameButContents σ.world.disk σ'.world.disk (p.root.join (Path.ofText j.file)) ↔
        ∀ t, σ.world.disk.at? q ≠ some (.link t)) := by
  obtain ⟨scan, i, hmoved⟩ := h.elim exists_moveItem_of_update exists_moveItem_of_updateAt
  obtain ⟨q, r, old, new, m, hq, hr, hat, hdir, hput⟩ := exists_put_of_moveItem hmoved
  rw [hput]
  exact ⟨q, r, old, new, m, hq, hr, hat, rfl, sameButContents_put_iff hr hat hq hdir⟩

end Activity

/-! ## A link to a source file -/

namespace Activity

open Disk

/-- A disk with a project of one file, to which there is a link. -/
def sampleLinkedDisk : Disk where
  here := ⟨['/'], []⟩
  entries := [(["p".toList], .dir),
    (["p".toList, "a.py".toList], .file (Utf8.encode "#TODO: a".toList) 0o755),
    (["p".toList, "b.py".toList], .link "a.py".toList)]

/-- A session after a scan, which has found the item of the file twice. -/
def sampleLinked : Session :=
  (Activity.scan Session.sampleProject
    (.start { Action.sampleWorld with disk := sampleLinkedDisk })).2

/-- The item that is found in the file is moved in place. -/
theorem exists_sameButContents_sampleLinked :
    ∃ j σ', update Session.sampleProject 1 "done".toList sampleLinked = (.ok j, σ') ∧
      ∃ q r old new m,
        Leads sampleLinked.world.disk false linkLimit []
          (sampleLinked.world.disk.absolute
            (Session.sampleProject.root.join (Path.ofText j.file))).parts q ∧
        Leads sampleLinked.world.disk true linkLimit []
          (sampleLinked.world.disk.absolute
            (Session.sampleProject.root.join (Path.ofText j.file))).parts r ∧
        sampleLinked.world.disk.at? r = some (.file old m) ∧
        σ'.world.disk = sampleLinked.world.disk.put q (.file new m) ∧
        (SameButContents sampleLinked.world.disk σ'.world.disk
            (Session.sampleProject.root.join (Path.ofText j.file)) ↔
          ∀ t, sampleLinked.world.disk.at? q ≠ some (.link t)) := by
  have hok : (update Session.sampleProject 1 "done".toList sampleLinked).1.toBool = true := by cbv
  obtain ⟨j, hj⟩ := Steps.exists_of_toBool hok
  have hmoved := exists_sameButContents (k := ⟨1, 1⟩) (.inl hj)
  exact ⟨j, _, hj, hmoved⟩

/-- The item that is found through the link is moved by a file in the stead of the link. -/
theorem not_sameButContents_sampleLinked :
    ∃ j σ', update Session.sampleProject 2 "done".toList sampleLinked = (.ok j, σ') ∧
      ¬ SameButContents sampleLinked.world.disk σ'.world.disk
        (Session.sampleProject.root.join (Path.ofText j.file)) := by
  have hok : (update Session.sampleProject 2 "done".toList sampleLinked).1.toBool = true := by cbv
  obtain ⟨j, hj⟩ := Steps.exists_of_toBool hok
  refine ⟨j, _, hj, ?_⟩
  have hbefore : sampleLinked.world.disk.at? ["p".toList, "b.py".toList] =
      some (.link "a.py".toList) := by cbv
  have hafter : (update Session.sampleProject 2 "done".toList sampleLinked).2.world.disk.at?
      ["p".toList, "b.py".toList] ≠ some (.link "a.py".toList) := by cbv; simp
  rintro ⟨r, old, new, m, -, hold, -, hsame⟩
  refine hafter ((hsame _ ?_).trans hbefore)
  rintro rfl
  rw [hbefore] at hold
  cases hold

end Activity
end MarkerBoard
