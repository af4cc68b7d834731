import MarkerBoard.Proofs.History.Record
import MarkerBoard.Proofs.History.Store

/-!
# Histories replayed

A history is kept in a file, which each operation reads and most of them write. Between them the
process may end, and what is next in the file is what the last operation has left there. So the
history is what the operations make of it one after the other, and can be told without the disk.

The invariant is `HistoryStore.Written`: before the first scan nothing has touched the disk, and
from then on the file holds the history.

Main results:

* `HistoryStore.Written.afterSave`, `HistoryStore.Written.afterCleanup` — what each operation writes.
* `HistoryStore.Trace.written` — after a sequence of operations the file holds their replay.
* `History.snapshots_of_stay` — which snapshots are left while the commit stays the same.
-/
namespace MarkerBoard

/-! ## Operations on a history -/

namespace History

/-- An operation that has succeeded. -/
inductive Event
  | scan (r : Scanned)
  | cleanup (now : Moment) (days : Int)

namespace Event

/-- When it was. -/
def time : Event → Moment
  | scan r => r.time
  | cleanup now _ => now

/-- The scan, if it was one. -/
def scan? : Event → Option Scanned
  | scan r => some r
  | cleanup _ _ => none

/-- The operation does not drop a snapshot for its age. -/
def spares (t : Snapshot) : Event → Bool
  | scan _ => true
  | cleanup now days => decide (cutoff now days < t.time.instant)

end Event

/-- The scans among some operations. -/
def scans (events : List Event) : List Scanned := events.filterMap Event.scan?

/-- The history after old snapshots have been dropped. One without old snapshots is not touched. -/
def tidied (h : History) (cutoff : Int) (now : Moment) : History :=
  if (h.forget cutoff now).snapshots.length = h.snapshots.length then h else h.forget cutoff now

/-- The history after one operation. -/
def next (old : Option History) : Event → Option History
  | .scan r => some (record old r)
  | .cleanup now days => old.map fun h => h.tidied (cutoff now days) now

/-- The history after some operations, if there was none before. -/
def replay (events : List Event) : Option History := events.foldl next none

@[simp] theorem scans_nil : scans [] = [] := rfl

@[simp] theorem scans_cons_scan (r : Scanned) (events : List Event) :
    scans (.scan r :: events) = r :: scans events := rfl

@[simp] theorem scans_cons_cleanup (now : Moment) (days : Int) (events : List Event) :
    scans (.cleanup now days :: events) = scans events := rfl

@[simp] theorem scans_append (events events' : List Event) :
    scans (events ++ events') = scans events ++ scans events' :=
  List.filterMap_append

theorem mem_scans {events : List Event} {r : Scanned} : r ∈ scans events ↔ .scan r ∈ events := by
  rw [scans, List.mem_filterMap]
  constructor
  · rintro ⟨e, he, hr⟩
    cases e with
    | scan r' =>
      cases hr
      exact he
    | cleanup now days => cases hr
  · exact fun h => ⟨_, h, rfl⟩

theorem replay_concat (events : List Event) (e : Event) :
    replay (events ++ [e]) = next (replay events) e := by
  rw [replay, List.foldl_concat]
  rfl

/-- The operations are in the order of time, and none is from the future. -/
structure InTime (events : List Event) (now : Moment) : Prop where
  inOrder : events.Pairwise fun a b => a.time.instant ≤ b.time.instant
  past : ∀ e ∈ events, e.time.instant ≤ now.instant

variable {h : History} {events : List Event} {cut : Int} {now : Moment}

/-- An operation that is not before the time comes last. -/
theorem InTime.concat (ht : InTime events now) (e : Event)
    (hclock : now.instant ≤ e.time.instant) : InTime (events ++ [e]) e.time := by
  have hle : ∀ a ∈ events, a.time.instant ≤ e.time.instant :=
    fun a ha => Int.le_trans (ht.past a ha) hclock
  refine ⟨List.pairwise_append.2 ⟨ht.inOrder, List.pairwise_singleton _ _, ?_⟩, ?_⟩
  · intro a ha b hb
    rw [List.mem_singleton.1 hb]
    exact hle a ha
  · intro a ha
    rcases List.mem_append.1 ha with ha | ha
    · exact hle a ha
    · exact Int.le_of_eq (by rw [List.mem_singleton.1 ha])

theorem tidied_snapshots (h : History) (cut : Int) (now : Moment) :
    (h.tidied cut now).snapshots = h.snapshots.filter fun t => decide (cut < t.time.instant) := by
  rw [tidied]
  split
  · next hlength => exact (List.filter_sublist.eq_of_length hlength).symm
  · rfl

theorem tidied_commit (h : History) (cut : Int) (now : Moment) :
    (h.tidied cut now).commit = h.commit := by
  rw [tidied]
  split <;> rfl

/-- While all scans are at one commit that git tells, no snapshot is added, and those are left that
no operation drops for their age. -/
theorem snapshots_of_stay (hstay : ∀ r ∈ scans events, r.git.currentCommit = h.commit)
    (hknown : h.commit ≠ Git.unknown) :
    ∃ h', events.foldl next (some h) = some h' ∧ h'.commit = h.commit ∧
      h'.snapshots = h.snapshots.filter fun t => events.all (Event.spares t) := by
  -- by induction on the operations from the front, for any history at the commit
  induction events generalizing h with
  | nil => exact ⟨h, rfl, rfl, (List.filter_eq_self.2 fun _ _ => rfl).symm⟩
  | cons e events ih =>
    -- the first operation leaves the commit and the snapshots that it spares
    obtain ⟨g, hg, hcommit, hsnapshots⟩ : ∃ g, next (some h) e = some g ∧ g.commit = h.commit ∧
        g.snapshots = h.snapshots.filter fun t => e.spares t := by
      cases e with
      | scan r =>
        have hr : r.git.currentCommit = h.commit := hstay r (mem_scans.2 List.mem_cons_self)
        have hadds : addsSnapshot (some h) r.git.currentCommit = false := by
          rw [addsSnapshot, hr]
          simp [hknown, hr ▸ r.git.currentCommit_ne_nil]
        refine ⟨_, rfl, hr, ?_⟩
        show snapshotsAfter (some h) r = _
        rw [snapshotsAfter, hadds]
        exact (List.filter_eq_self.2 fun _ _ => rfl).symm
      | cleanup now days => exact ⟨_, rfl, tidied_commit .., tidied_snapshots ..⟩
    have hrest : ∀ r ∈ scans events, r.git.currentCommit = g.commit := by
      intro r hr
      rw [hcommit]
      exact hstay r (mem_scans.2 (List.mem_cons_of_mem _ (mem_scans.1 hr)))
    obtain ⟨h', hh', hcommit', hsnapshots'⟩ := ih hrest (by rwa [hcommit])
    refine ⟨h', ?_, hcommit'.trans hcommit, ?_⟩
    · rw [List.foldl_cons, hg, hh']
    · rw [hsnapshots', hsnapshots, List.filter_filter]
      refine List.filter_congr fun t _ => ?_
      rw [List.all_cons, Bool.and_comm]

end History

/-! ## The file of a history -/

namespace HistoryStore

open Disk

variable {s : HistoryStore} {d₀ : Disk} {w₀ w w' : World} {old : Option History} {h : History}
  {events : List History.Event}

/-- The file holds a history, or nothing has touched the disk yet. -/
def Written (s : HistoryStore) (d₀ d : Disk) : Option History → Prop
  | none => d = d₀
  | some h => (∃ m, s.Has d (some (.file (Utf8.encode h.toText) m))) ∧ h.IsExact

/-- Surroundings have nothing to do with the file. -/
theorem Written.within (hw : s.Written d₀ w.disk old) (o : Surroundings) :
    s.Written d₀ (w.within o).disk old := hw

/-- What is written is loaded. -/
theorem Written.exists_load (hplace : d₀.at? (s.place d₀) = none)
    (hw : s.Written d₀ w.disk old) : ∃ log, s.load w = (.ok old, { w with log }) := by
  cases old with
  | none =>
    have hd : w.disk = d₀ := hw
    rw [← hd] at hplace
    exact load_of_place hplace
  | some h =>
    obtain ⟨⟨m, hhas⟩, hx⟩ := hw
    exact ⟨w.log, load_of_has hx hhas⟩

/-- Saving a scan writes what the scan makes of the history. -/
theorem Written.afterSave {items : List Item} {settings : Option Settings}
    (hplace : d₀.at? (s.place d₀) = none) (hw : s.Written d₀ w.disk old)
    (hsave : s.save items settings w = (.ok h, w')) :
    h = .record old (s.scanned w items settings) ∧ s.Written d₀ w'.disk (some h) ∧
      w'.utcNow = w.utcNow := by
  obtain ⟨w₁, old', w₂, hinit, hload, rfl, hwrite⟩ := exists_of_save hsave
  obtain ⟨notes, hw₁, hgrows, hdir⟩ := exists_of_initialise hinit
  have hscanned : s.scanned w₁ items settings = s.scanned w items settings := by
    rw [hw₁]
    rfl
  have hnow : w₁.utcNow = w.utcNow := by rw [hw₁]
  obtain ⟨d', hrep, rfl⟩ := exists_of_write hwrite
  rw [hscanned] at *
  cases old with
  -- the first scan finds no history, neither before the directory is made nor after
  | none =>
    have hd : w.disk = d₀ := hw
    rw [← hd] at hplace
    obtain ⟨notes', hl⟩ := load_of_vacant (isVacant_of_grows hplace hgrows)
    obtain ⟨hold, rfl⟩ := Prod.mk.inj (hload.symm.trans hl)
    cases hold
    obtain ⟨entry, hhas, hlink⟩ := has_of_grows hplace hgrows hdir
    exact ⟨rfl, ⟨Has.replace (w := { w₁ with log := notes' }) hhas hlink hrep,
      History.isExact_record (by simp) _⟩, hnow⟩
  -- a later one finds the history that was written, and writes the next one in its place
  | some g =>
    obtain ⟨⟨m, hhas⟩, hx⟩ := hw
    have hhas₁ := hhas.grows hgrows not_isAdded_link
    obtain ⟨hold, rfl⟩ := Prod.mk.inj (hload.symm.trans (load_of_has hx hhas₁))
    cases hold
    exact ⟨rfl, ⟨hhas₁.replace (by simp) hrep,
      History.isExact_record (by simpa using hx.snapshots) _⟩, hnow⟩

/-- Dropping old snapshots writes what is left, or leaves the file if nothing is dropped. -/
theorem Written.afterCleanup {days : Int} {n : Nat} (hplace : d₀.at? (s.place d₀) = none)
    (hw : s.Written d₀ w.disk old) (hclean : s.cleanup days w = (.ok n, w')) :
    s.Written d₀ w'.disk (History.next old (.cleanup w.utcNow days)) ∧ w'.utcNow = w.utcNow := by
  obtain ⟨old', w₁, hload, hkept⟩ := exists_of_cleanup hclean
  obtain ⟨log, hl⟩ := hw.exists_load hplace
  obtain ⟨hold, rfl⟩ := Prod.mk.inj (hload.symm.trans hl)
  cases hold
  rcases hkept with ⟨rfl, hall⟩ | ⟨g, hg, hfewer, hwrite⟩
  -- nothing is old, and nothing is written
  · refine ⟨?_, rfl⟩
    cases old with
    | none => exact hw
    | some g =>
      rw [History.next, Option.map_some, History.tidied, if_pos (hall g rfl)]
      exact hw
  -- what is left takes the place of the file
  · cases hg
    obtain ⟨⟨m, hhas⟩, hx⟩ := hw
    obtain ⟨d', hrep, rfl⟩ := exists_of_write hwrite
    refine ⟨?_, rfl⟩
    rw [History.next, Option.map_some, History.tidied, if_neg hfewer]
    exact ⟨Has.replace (w := { w with log }) hhas (by simp) hrep, hx.forget _ _⟩

/-! ## Sequences of operations -/

/-- A sequence of operations that succeed, from a world to a world, each in surroundings of its own
and none before the one before it. -/
inductive Trace (s : HistoryStore) (w₀ : World) : List History.Event → World → Prop
  | start : Trace s w₀ [] w₀
  | save {events : List History.Event} {w w' : World} {o : Surroundings} {items : List Item}
      {settings : Option Settings} {h : History} (ht : Trace s w₀ events w)
      (hclock : w.utcNow.instant ≤ o.utcNow.instant)
      (hsave : s.save items settings (w.within o) = (.ok h, w')) :
      Trace s w₀ (events ++ [.scan (s.scanned (w.within o) items settings)]) w'
  | cleanup {events : List History.Event} {w w' : World} {o : Surroundings} {days : Int} {n : Nat}
      (ht : Trace s w₀ events w) (hclock : w.utcNow.instant ≤ o.utcNow.instant)
      (hclean : s.cleanup days (w.within o) = (.ok n, w')) :
      Trace s w₀ (events ++ [.cleanup o.utcNow days]) w'

/-- The file holds the replay of the operations. -/
theorem Trace.written (hplace : w₀.disk.at? (s.place w₀.disk) = none)
    (ht : s.Trace w₀ events w) : s.Written w₀.disk w.disk (History.replay events) := by
  induction ht with
  | start => exact rfl
  | @save events w w' o items settings h _ _ hsave ih =>
    obtain ⟨rfl, hwritten, -⟩ := (ih.within o).afterSave hplace hsave
    rwa [History.replay_concat]
  | @cleanup events w w' o days n _ _ hclean ih =>
    rw [History.replay_concat]
    exact ((ih.within o).afterCleanup hplace hclean).1

/-- The operations are in the order of time, and none is from the future. -/
theorem Trace.inTime (hplace : w₀.disk.at? (s.place w₀.disk) = none)
    (ht : s.Trace w₀ events w) : History.InTime events w.utcNow := by
  induction ht with
  | start => exact ⟨.nil, fun e he => absurd he List.not_mem_nil⟩
  | @save events w w' o items settings h ht hclock hsave ih =>
    rw [(((ht.written hplace).within o).afterSave hplace hsave).2.2]
    exact ih.concat (.scan (s.scanned (w.within o) items settings)) hclock
  | @cleanup events w w' o days n ht hclock hclean ih =>
    rw [(((ht.written hplace).within o).afterCleanup hplace hclean).2]
    exact ih.concat (.cleanup o.utcNow days) hclock

/-- After a sequence of operations, the snapshots are those of the replay. -/
theorem Trace.exists_snapshots (hplace : w₀.disk.at? (s.place w₀.disk) = none)
    (ht : s.Trace w₀ events w) :
    ∃ w', s.snapshots w = (.ok (((History.replay events).map History.snapshots).getD []), w') := by
  obtain ⟨log, hload⟩ := (ht.written hplace).exists_load hplace
  exact ⟨_, by rw [snapshots, Steps.bind_of_ok hload]; rfl⟩

end HistoryStore
end MarkerBoard
