import MarkerBoard.Proofs.Session.InPlace

/-!
# Items in step with their histories

An item carries its status, the history of its status and a done mark with a time and a user. They
say the same thing in three ways: the last entry of the history is how the item got its status, and
if the item is done, that entry also tells when and by whom.

Items are made by scans, and changed by moves and when the columns of the board get other
identifiers. Recording may fail after any of these, and files and settings may change in between.
None of it puts an item out of step with its history.

Main results:

* `ScanContext.inStep_item`, `Item.inStep_moved`, `Item.InStep.renamed` — the items that scans make,
  and what moves and renamings make of them.
* `Session.Reached.inStep` — the items of every session that can be reached.
-/
namespace MarkerBoard

/-! ## Items -/

namespace Item

variable {i : Item} {t : Transition} {s : Settings} {c : Column}

/-- The last entry of the history gave the item its status. -/
def GotStatusBy (i : Item) (t : Transition) : Prop :=
  i.history.getLast? = some t ∧ t.status = i.status

/-- The history tells the status of the item, and if the item is done, when and by whom. -/
structure InStep (i : Item) : Prop where
  latest : ∃ t, i.GotStatusBy t ∧
    (i.isDone = true → i.doneAt = some t.time ∧ i.doneBy = some t.user)
  undone : i.isDone = false → i.doneAt = none ∧ i.doneBy = none

/-- Deriving the done mark puts it in step, whatever it was before. -/
theorem GotStatusBy.inStep_markDone (h : i.GotStatusBy t) (doneStatus : Text) :
    (i.markDone doneStatus).InStep := by
  obtain ⟨hlast, hstatus⟩ := h
  rw [markDone]
  split
  · next hdone =>
    -- the last entry is the first one that is looked at, and it has the done status
    have hfind : i.history.reverse.find? (·.status = doneStatus) = some t := by
      rw [List.getLast?_eq_head?_reverse] at hlast
      cases hrev : i.history.reverse with
      | nil =>
        rw [hrev] at hlast
        cases hlast
      | cons t' ts =>
        rw [hrev] at hlast
        cases hlast
        exact List.find?_cons_of_pos (by simp [hstatus, hdone])
    rw [hfind]
    exact ⟨⟨t, ⟨hlast, hstatus⟩, fun _ => ⟨rfl, rfl⟩⟩, fun h => absurd h (by simp)⟩
  · exact ⟨⟨t, ⟨hlast, hstatus⟩, fun h => absurd h (by simp)⟩, fun _ => ⟨rfl, rfl⟩⟩

theorem InStep.markDoneIn (h : i.InStep) (doneId : Option Text) : (i.markDoneIn doneId).InStep := by
  cases doneId with
  | none => exact h
  | some doneStatus =>
    obtain ⟨t, ht, -⟩ := h.latest
    exact ht.inStep_markDone doneStatus

/-- After a move the last entry is the move, or the item was in the column already. -/
theorem exists_gotStatusBy_setStatus (h : i.InStep) (status user : Text) (time : Moment) :
    ∃ t, (i.setStatus status user time).GotStatusBy t := by
  rw [setStatus]
  split
  · obtain ⟨t, ht, -⟩ := h.latest
    exact ⟨t, ht⟩
  · exact ⟨⟨status, time, user⟩, List.getLast?_concat .., rfl⟩

/-- A moved item is in step, since the board has a column for its done mark. -/
theorem inStep_moved (h : i.InStep) (hc : c ∈ s.columns) (time : Moment) (user : Text) :
    (i.moved s c time user).InStep := by
  obtain ⟨done, hdone⟩ := Settings.exists_doneId? hc
  obtain ⟨t, ht⟩ := exists_gotStatusBy_setStatus h c.id user time
  rw [moved, hdone]
  exact ht.inStep_markDone done

/-- An item and its history take the same new names. -/
theorem InStep.renamed (h : i.InStep) (names : Renaming) (doneId : Option Text) :
    (names.item doneId i).InStep := by
  refine InStep.markDoneIn ?_ doneId
  obtain ⟨⟨t, ⟨hlast, hstatus⟩, hdone⟩, hundone⟩ := h
  refine ⟨⟨names.transition t, ⟨?_, ?_⟩, hdone⟩, hundone⟩
  · rw [List.getLast?_map, hlast]
    rfl
  · rw [Renaming.transition, hstatus]

/-- Where an item is has nothing to do with its history. -/
theorem InStep.shift (h : i.InStep) (moved : Moved) : (Session.shift moved i).InStep := by
  rw [Session.shift]
  split
  · exact ⟨h.latest, h.undone⟩
  · exact h

end Item

/-! ## Scans -/

namespace ScanContext

variable {ctx : ScanContext} {first : Column} {file : Text}

/-- A new item has the status of its last note, or has been entered into the first column. -/
theorem inStep_item (id : Int) (n : Nat) (m : MarkerLine) (block : List BlockLine) :
    (ctx.item first file id n m block).InStep := by
  rw [item]
  refine Item.InStep.markDoneIn ⟨?_, fun _ => ⟨rfl, rfl⟩⟩ _
  cases hlast : (block.filterMap ctx.transition?).getLast? with
  -- there are no notes, and the scan enters the item itself
  | none =>
    rw [List.getLast?_eq_none_iff] at hlast
    refine ⟨⟨first.id, ctx.now, ctx.user⟩, ⟨?_, ?_⟩, fun h => absurd h (by simp)⟩
    · simp [hlast]
    · simp
  | some t =>
    have hne : block.filterMap ctx.transition? ≠ [] := by
      intro hnil
      rw [hnil] at hlast
      cases hlast
    refine ⟨t, ⟨?_, ?_⟩, fun h => absurd h (by simp)⟩
    · simp [hne, hlast]
    · simp

end ScanContext

theorem Action.inStep_of_scan {p : Project} {w w' : World} {items : List Item} {i : Item}
    (h : scan p w = (.ok items, w')) (hi : i ∈ items) : i.InStep := by
  obtain ⟨s, hs⟩ : ∃ s, (p.settings w).1 = .ok s := by
    rw [scan, Steps.bind_ok_iff] at h
    obtain ⟨s, w₁, hs, -⟩ := h
    exact ⟨s, congrArg Prod.fst hs⟩
  obtain ⟨_, _, _, _, _, _, _, -, -, rfl⟩ := exists_of_mem_scan hs h hi
  exact ScanContext.inStep_item ..

/-! ## Sessions -/

namespace Session

variable {σ : Session} {p : Project} {history : Option HistoryStore}

/-- A call of a session. Each may be made for other settings of the board. -/
inductive Call
  | scan (p : Project)
  | rescan (p : Project) (history : Option HistoryStore)
  | update (p : Project) (id : Int) (column : Text)
  | carryOver (old new : Settings) (history : Option HistoryStore)

/-- The session after a call, whether it succeeds or fails. -/
def after (σ : Session) : Call → Session
  | .scan p => (Activity.scan p σ).2
  | .rescan p history => (Activity.scanAndRecord p history σ).2
  | .update p id column => (Activity.update p id column σ).2
  | .carryOver old new history => (Activity.carryOver old new history σ).2

/-- The sessions that can be reached, while the world may change in any way between the calls. -/
inductive Reached : Session → Prop
  | start (w : World) : Reached (start w)
  | elsewhere {σ : Session} (w : World) : Reached σ → Reached { σ with world := w }
  | call {σ : Session} (c : Call) : Reached σ → Reached (σ.after c)

/-- All items of the latest scan are in step. -/
def InStep (σ : Session) : Prop := ∀ i ∈ σ.items, i.InStep

theorem InStep.of_eq {σ' : Session} (h : σ.InStep) (hitems : σ'.items = σ.items) : σ'.InStep := by
  rw [InStep, hitems]
  exact h

theorem keeps_items_act {α : Type} (a : Action α) : Steps.Keeps items (Activity.act a) :=
  fun _ => rfl

/-- A scan that fails leaves the items of the scan before. -/
theorem InStep.scan (h : σ.InStep) (p : Project) : (Activity.scan p σ).2.InStep := by
  unfold Activity.scan
  rcases hact : Activity.act (.scan p) σ with ⟨r, σ₁⟩
  obtain ⟨w', hscan, rfl⟩ := Activity.exists_of_act hact
  cases r with
  -- the items are replaced after the scan, so one that fails has not come to that
  | error f =>
    rw [Steps.bind_of_error hact]
    exact h
  | ok items =>
    rw [Steps.bind_of_ok hact]
    intro i hi
    exact Action.inStep_of_scan hscan hi

/-- Recording the items does not change them. -/
theorem InStep.rescan (h : σ.InStep) (p : Project) (history : Option HistoryStore) :
    (Activity.scanAndRecord p history σ).2.InStep := by
  refine (h.scan p).of_eq (Steps.part_bind (fun found => ?_) σ)
  cases history with
  | none => exact Steps.keeps_pure _ _
  | some store =>
    exact (keeps_items_act _).bind fun _ => (keeps_items_act _).bind fun _ => Steps.keeps_pure _ _

/-- An item that is moved is in step, and the others have at most got other lines. -/
theorem InStep.update (h : σ.InStep) (p : Project) (id : Int) (column : Text) :
    (Activity.update p id column σ).2.InStep := by
  rcases Activity.session_of_update p id column σ with ⟨log, heq⟩ |
    ⟨i, hi, s, log, moved, w', -, hmove, heq⟩
  · exact h.of_eq (by rw [heq])
  · obtain ⟨c, text, new, d, hcol, -, -, -, rfl, -⟩ := Action.exists_of_move hmove
    have hmoved := Item.inStep_moved (h i hi) (List.mem_of_find?_eq_some hcol) σ.world.localNow
      (σ.world.git.currentUser σ.world.env)
    rw [heq, afterMove_scanNumber]
    -- each item comes from one before: first one of them is moved, then those below it are shifted
    intro k hk
    obtain ⟨k', hk', rfl⟩ := List.mem_map.1 hk
    refine Item.InStep.shift ?_ _
    obtain ⟨k₀, hk₀, rfl⟩ := List.mem_map.1 hk'
    split
    · exact hmoved
    · exact h k₀ hk₀

/-- The items have their new names before they are recorded, and keep them if that fails. -/
theorem items_carryOver (old new : Settings) (history : Option HistoryStore) (σ : Session) :
    (Activity.carryOver old new history σ).2.items =
      if (Renaming.between old new).isEmpty then σ.items
      else σ.items.map ((Renaming.between old new).item new.doneId?) := by
  unfold Activity.carryOver
  split
  · rfl
  · rw [Steps.bind_of_ok (Steps.modify_apply _)]
    -- recording only reads the items, so nothing is said about whether it succeeds
    cases history with
    | none => rfl
    | some store =>
      refine Steps.Keeps.bind (Steps.keeps_get _) (fun σ₁ => ?_) _
      exact (keeps_items_act _).bind fun _ => Steps.keeps_pure _ _

theorem InStep.carryOver (h : σ.InStep) (old new : Settings) (history : Option HistoryStore) :
    (Activity.carryOver old new history σ).2.InStep := by
  have hitems := items_carryOver old new history σ
  split at hitems
  · exact h.of_eq hitems
  · intro i hi
    rw [hitems] at hi
    obtain ⟨i₀, hi₀, rfl⟩ := List.mem_map.1 hi
    exact (h i₀ hi₀).renamed ..

/-- One call leaves the items in step. -/
theorem InStep.after (h : σ.InStep) (c : Call) : (σ.after c).InStep := by
  cases c with
  | scan p => exact h.scan p
  | rescan p history => exact h.rescan p history
  | update p id column => exact h.update p id column
  | carryOver old new history => exact h.carryOver old new history

/-- In every session that can be reached, the last entry of the history of each item has given it
its status; if the item is done, it has been done then and by that user, else neither is known. -/
theorem Reached.inStep (h : Reached σ) : ∀ i ∈ σ.items,
    (∃ t, i.history.getLast? = some t ∧ t.status = i.status ∧
      (i.isDone = true → i.doneAt = some t.time ∧ i.doneBy = some t.user)) ∧
    (i.isDone = false → i.doneAt = none ∧ i.doneBy = none) := by
  have hall : σ.InStep := by
    induction h with
    | start w => exact fun i hi => absurd hi List.not_mem_nil
    | elsewhere w _ ih => exact ih.of_eq rfl
    | call c _ ih => exact ih.after c
  intro i hi
  obtain ⟨⟨t, ⟨hlast, hstatus⟩, hdone⟩, hundone⟩ := hall i hi
  exact ⟨⟨t, hlast, hstatus, hdone⟩, hundone⟩

/-- The sample board with another identifier of the last column. -/
def sampleRenamedBoard : Settings := { ScanContext.sampleBoard with
  columns := [⟨"todo".toList, "TODO".toList, [], some "TODO|FIXME".toList⟩,
    ⟨"doing".toList, "DOING".toList, [], none⟩, ⟨"closed".toList, "DONE".toList, [], none⟩] }

/-- A history that cannot be written, since there is a file where its directory should be. -/
def sampleBlockedStore : HistoryStore := ⟨⟨['/'], ["p".toList, "a.py".toList]⟩, sampleProject.root⟩

/-- The session after a scan, two requests and a change of the columns. -/
def sampleCarried : Session :=
  sampleMoved.after
    (.carryOver ScanContext.sampleBoard sampleRenamedBoard (some sampleBlockedStore))

theorem Reached.request (h : Reached σ) (p : Project) (r : MoveRequest) :
    Reached (σ.request p r) :=
  (h.elsewhere _).call (.update p r.id r.column)

set_option maxRecDepth 4000 in
theorem inStep_sampleCarried :
    (Activity.carryOver ScanContext.sampleBoard sampleRenamedBoard (some sampleBlockedStore)
      sampleMoved).1.toBool = false ∧
    sampleCarried.items.map (fun i => (i.status, i.isDone, i.doneBy)) =
      [("closed".toList, true, some "ann".toList), ("todo".toList, false, none)] ∧
    ∀ i ∈ sampleCarried.items,
      (∃ t, i.history.getLast? = some t ∧ t.status = i.status ∧
        (i.isDone = true → i.doneAt = some t.time ∧ i.doneBy = some t.user)) ∧
      (i.isDone = false → i.doneAt = none ∧ i.doneBy = none) := by
  refine ⟨by cbv, by cbv, Reached.inStep ?_⟩
  have hscanned : Reached sampleScanned :=
    (Reached.start sampleStart.world).call (.scan sampleProject)
  exact ((hscanned.request _ _).request _ _).call _

end Session

end MarkerBoard
