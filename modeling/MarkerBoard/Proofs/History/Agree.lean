import MarkerBoard.Proofs.Block.Frame
import MarkerBoard.Proofs.History.Counts
import MarkerBoard.Proofs.History.Queries
import MarkerBoard.Proofs.History.Saved

/-!
# Queries that tell one story

The columns of two snapshots are compared by the same counts that the course of the board shows. The
progress of the board is counted from the tasks of the latest scan, with done tasks under the last
column, and the last point of its course from the snapshot of that scan, task by task. Nothing has
to be known of the board: it may name columns twice, and need not be the one of the scan.

Main results:

* `Comparison.get?_growth_iff` — the growth of a column is the difference of two counts.
* `History.doneCount_eq` — two ways to count the done tasks.
* `HistoryStore.agree_of_load_of_save` — the queries of a history agree.
-/
namespace MarkerBoard

variable {b : Settings} {previous current : Snapshot} {k : Text} {n : Int}

/-! ## The growth of the columns -/

namespace Stats

theorem get?_columnCounts (s : Stats) (b : Settings) (k : Text) :
    Keyed.get? k (s.columnCounts b) =
      ((b.columns.filter fun c => c.name = k).getLast?).map
        fun c => (s.countIn c.id (b.doneId?.getD []) : Int) := by
  rw [columnCounts, Keyed.get?_ofList_map]

theorem keys_columnCounts (s : Stats) (b : Settings) :
    (s.columnCounts b).keys = (b.columns.map Column.name).eraseDups := by
  rw [columnCounts, Keyed.keys_ofList_map]

end Stats

namespace Comparison

/-- Each column name that is told of a snapshot is told of the comparison, in the same order. -/
theorem keys_growth (s : Stats) (b : Settings) (previous current : Snapshot) :
    (Comparison.of b previous current).growth.keys = (s.columnCounts b).keys := by
  rw [Comparison.of, Stats.keys_columnCounts, Keyed.keys_ofList_map]

/-- A column has grown by the difference of its counts. -/
theorem get?_growth_iff : Keyed.get? k (Comparison.of b previous current).growth = some n ↔
    ∃ x y, Keyed.get? k (current.stats.columnCounts b) = some x ∧
      Keyed.get? k (previous.stats.columnCounts b) = some y ∧ n = x - y := by
  rw [Comparison.of, Stats.get?_columnCounts, Stats.get?_columnCounts, Keyed.get?_ofList_map]
  -- of columns with one name it is the last one in all three
  cases (b.columns.filter fun c => c.name = k).getLast? with
  | none => simp
  | some c =>
    simp only [Option.map_some, Option.some.injEq]
    constructor
    · rintro rfl
      exact ⟨_, _, rfl, rfl, rfl⟩
    · rintro ⟨x, y, rfl, rfl, rfl⟩
      rfl

end Comparison

/-! ## The share of done tasks -/

/-- A task is counted under the last column just if it is done or has that status. -/
theorem History.countedStatus_eq_iff {id : Text} {t : Task} :
    countedStatus (some id) t = id ↔ (t.isDone || some t.status = some id) = true := by
  unfold countedStatus
  cases t.isDone with
  | false => simp
  | true => simp

/-- The tasks that are counted under the last column are those that are done. -/
theorem History.doneCount_eq (h : History) (hb : b.columns ≠ []) :
    h.doneCount b = h.tasks.countP fun t => t.isDone || some t.status = b.doneId? := by
  cases hlast : b.doneId? with
  | none =>
    -- there is a last column
    rw [Settings.doneId?_eq, List.getLast?_eq_none_iff, Settings.columnIds, List.map_eq_nil_iff]
      at hlast
    exact absurd hlast hb
  | some id =>
    have hstart :
        (Keyed.get? id (Keyed.ofList (b.columns.map fun c => (c.id, (0 : Int))))).getD 0 = 0 := by
      rw [Keyed.get?_ofList_map]
      cases (b.columns.filter fun c => c.id = id).getLast? with
      | none => rfl
      | some c => rfl
    have hcount : (h.tasks.map (countedStatus (some id))).count id =
        h.tasks.countP fun t => t.isDone || some t.status = some id := by
      rw [List.count, List.countP_map]
      refine List.countP_congr fun t _ => ?_
      rw [Function.comp_apply, beq_iff_eq, countedStatus_eq_iff]
    unfold doneCount statusCounts
    rw [hlast]
    dsimp only
    rw [Keyed.getD_get?_foldl_bump, hstart, hcount, Int.zero_add]

/-! ## Histories -/

namespace HistoryStore

/-- In a history with two snapshots, the growth of the columns is the difference between the last
two points of the course of the board. After a scan that has added a snapshot has been saved, the
progress of the board is the share of done tasks at the last point of its course. -/
theorem agree_of_load_of_save (store : HistoryStore) (hb : b.columns ≠ []) :
    (∀ (w : World) (h : History) (rest : List Snapshot) (previous current : Snapshot),
      store.load w = (.ok (some h), w) → h.snapshots = rest ++ [previous, current] →
      ∃ comparison trends front before last,
        store.compare b w = (.ok comparison, w) ∧ store.trends b w = (.ok trends, w) ∧
        trends.timeline = front ++ [before, last] ∧
        (∀ e ∈ trends.timeline, comparison.growth.keys = e.counts.keys) ∧
        ∀ k n, Keyed.get? k comparison.growth = some n ↔
          ∃ x y, Keyed.get? k last.counts = some x ∧ Keyed.get? k before.counts = some y ∧
            n = x - y) ∧
    ∀ (w w' : World) (items : List Item) (settings : Option Settings) (g : History)
      (o : Surroundings), w.disk.IsTree → store.AddsSnapshot w →
      store.save items settings w = (.ok g, w') →
      (w'.disk.isDir store.dir = true →
        store.load (w'.within o) = (.ok (some g), w'.within o)) ∧
      ∀ h, store.load (w'.within o) = (.ok (some h), w'.within o) →
        ∃ trends snap point,
          store.trends b (w'.within o) = (.ok trends, w'.within o) ∧
          h.snapshots.getLast? = some snap ∧ trends.completion.getLast? = some point ∧
          h.doneCount b = snap.stats.countDone b.doneId? ∧ h.total = snap.stats.total ∧
          h.progress b = percentage (h.doneCount b) h.total ∧
          point.rate = percentage (snap.stats.countDone b.doneId?) snap.stats.total := by
  constructor
  · intro w h rest previous current hload htwo
    refine ⟨_, _, rest.map (·.timelineEntry b), previous.timelineEntry b, current.timelineEntry b,
      compare_of_load hload htwo b, trends_of_load hload b, ?_, ?_, fun k n => ?_⟩
    · rw [Trends.of, htwo, List.map_append]
      rfl
    · intro e he
      obtain ⟨s, -, rfl⟩ := List.mem_map.1 he
      exact Comparison.keys_growth s.stats b previous current
    · exact Comparison.get?_growth_iff
  · intro w w' items settings g o hd hadds hsave
    refine ⟨fun hdir => load_of_save hsave hdir rfl, fun h hload => ?_⟩
    -- what is loaded is the record of the scan
    obtain rfl : h = g := eq_of_load_of_save (v := w'.within o) hd hsave rfl hload
    obtain ⟨old, r, -, -, rfl, hsnap⟩ := exists_record_of_save hadds hsave
    refine ⟨_, r.snapshot, r.snapshot.completionPoint b, trends_of_load hload b, hsnap, ?_,
      History.doneCount_eq _ hb, rfl, rfl, rfl⟩
    rw [Trends.of, List.getLast?_map, hsnap]
    rfl

/-! ## A board with names and identifiers that are not different -/

/-- A board that names two columns twice. -/
def sampleTwinBoard : Settings := { ScanContext.sampleBoard with
  columns := [⟨"todo".toList, "TODO".toList, [], some "TODO".toList⟩,
    ⟨"done".toList, "DONE".toList, [], none⟩, ⟨"done".toList, "TODO".toList, [], none⟩] }

/-- A task before and after it has been marked as done. Another one has come in between. -/
def sampleGrown : List (Moment × List Task) :=
  [(.first, [sampleTaskAt "a" "todo" false]),
    (.first, [sampleTaskAt "a" "todo" true, sampleTaskAt "b" "done" false])]

/-- An item with a status and a done mark. -/
def sampleItemIn (status : String) (isDone : Bool) : Item where
  id := 1
  keyword := "TODO".toList
  title := "a".toList
  description := []
  file := "a.py".toList
  line := 1
  status := status.toList
  priority := .low
  isDone
  doneAt := none
  doneBy := none
  history := []
  createdAt := .first
  updatedAt := .first
  currentUser := []

/-- Two of three items are done, one by its mark and one by its status. -/
def sampleItems : List Item :=
  [sampleItemIn "todo" true, sampleItemIn "done" false, sampleItemIn "todo" false]

/-- Under the name that two columns have, the last one has grown by two tasks. After the scan of the
items, two of three are done. -/
theorem agree_of_load_of_save_sampleTwinBoard :
    (∃ comparison, sampleStore.compare sampleTwinBoard (sampleSeriesWorld sampleGrown) =
        (.ok comparison, sampleSeriesWorld sampleGrown) ∧
      Keyed.get? "TODO".toList comparison.growth = some 2) ∧
    ∃ g w' trends point, sampleStore.save sampleItems none (sampleWorld none) = (.ok g, w') ∧
      sampleStore.load w' = (.ok (some g), w') ∧ g.doneCount sampleTwinBoard = 2 ∧ g.total = 3 ∧
      sampleStore.trends sampleTwinBoard w' = (.ok trends, w') ∧
      trends.completion.getLast? = some point ∧ point.rate = g.progress sampleTwinBoard := by
  have hb : sampleTwinBoard.columns ≠ [] := by simp [sampleTwinBoard]
  obtain ⟨hseries, hsaved⟩ := agree_of_load_of_save sampleStore hb
  constructor
  · obtain ⟨comparison, trends, front, before, last, hcompare, htrends, htimeline, -, hgrowth⟩ :=
      hseries _ _ [] _ _ (load_sampleSeriesWorld sampleGrown) rfl
    cases (trends_of_load (load_sampleSeriesWorld sampleGrown) sampleTwinBoard).symm.trans htrends
    -- there are just two points, so they are the last ones
    have hlength : 2 = front.length + 2 :=
      (congrArg List.length htimeline).trans List.length_append
    obtain rfl : front = [] := List.eq_nil_of_length_eq_zero (by omega)
    cases htimeline
    exact ⟨comparison, hcompare, (hgrowth _ _).2 ⟨2, 0, by decide, by decide, rfl⟩⟩
  · have hadds : sampleStore.AddsSnapshot (sampleWorld none) := by
      rw [AddsSnapshot, initialise_sampleWorld, current, load_sampleWorld_none]
      rfl
    have hsave : sampleStore.save sampleItems none (sampleWorld none) = (.ok _, _) :=
      save_of_ok (initialise_sampleWorld none) load_sampleWorld_none (replaced_sampleWorld none _)
    obtain ⟨hloads, htells⟩ :=
      hsaved _ _ _ _ _ sampleSurroundings (isTree_sampleDisk none) hadds hsave
    have hg := hloads (isDir_sampleWorld _)
    obtain ⟨trends, snap, point, htrends, -, hpoint, hdone, htotal, hprogress, hrate⟩ :=
      htells _ hg
    refine ⟨_, _, trends, point, hsave, hg, by decide, rfl, htrends, hpoint, ?_⟩
    rw [hrate, hprogress, hdone, htotal]

end HistoryStore
end MarkerBoard
