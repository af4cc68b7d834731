import MarkerBoard.History.Overview
import MarkerBoard.Proofs.History.Held
import MarkerBoard.Proofs.History.Reload

/-!
# Queries of a history that is loaded

Every query loads the history first. Those that compare take its last two snapshots.

Main results:

* `HistoryStore.trends_of_load`, `HistoryStore.fileGroups_of_load` — queries of the whole history.
* `HistoryStore.changes_of_load`, `HistoryStore.compare_of_load` — queries of the last two of its
  snapshots.
-/
namespace MarkerBoard

theorem lastTwo?_append (rest : List Snapshot) (previous current : Snapshot) :
    lastTwo? (rest ++ [previous, current]) = some (previous, current) := by
  simp [lastTwo?]

namespace HistoryStore

variable {store : HistoryStore} {w : World} {g : History}

theorem snapshots_of_load (hload : store.load w = (.ok (some g), w)) :
    store.snapshots w = (.ok g.snapshots, w) := by
  rw [snapshots, Steps.bind_of_ok hload]
  rfl

theorem trends_of_load (hload : store.load w = (.ok (some g), w)) (b : Settings) :
    store.trends b w = (.ok (.of b g.snapshots), w) := by
  rw [trends, Steps.bind_of_ok (snapshots_of_load hload)]
  rfl

theorem fileGroups_of_load (hload : store.load w = (.ok (some g), w)) (b : Settings) :
    store.fileGroups b w =
      (.ok (some (Keyed.mapValues (.of b) (History.group Task.file g.tasks))), w) := by
  rw [fileGroups, Steps.bind_of_ok hload]
  rfl

/-! ## The last two snapshots -/

variable {rest : List Snapshot} {previous current : Snapshot}

theorem lastTwo_of_load (hload : store.load w = (.ok (some g), w))
    (htwo : g.snapshots = rest ++ [previous, current]) :
    store.lastTwo w = (.ok (previous, current), w) := by
  rw [lastTwo, Steps.bind_of_ok (snapshots_of_load hload), htwo, lastTwo?_append]
  rfl

theorem changes_of_load (hload : store.load w = (.ok (some g), w))
    (htwo : g.snapshots = rest ++ [previous, current]) :
    store.changes w = (.ok (.between previous.stats.tasks current.stats.tasks), w) := by
  rw [changes, Steps.bind_of_ok (lastTwo_of_load hload htwo)]
  rfl

theorem compare_of_load (hload : store.load w = (.ok (some g), w))
    (htwo : g.snapshots = rest ++ [previous, current]) (b : Settings) :
    store.compare b w = (.ok (.of b previous current), w) := by
  rw [compare, Steps.bind_of_ok (lastTwo_of_load hload htwo)]
  rfl

/-! ## Series of snapshots -/

/-- The sample task under a hash and in a column. -/
def sampleTaskAt (hash status : String) (isDone : Bool) : Task :=
  { sampleTask with hash := hash.toList, status := status.toList, isDone }

/-- A snapshot that counts nothing but how many tasks there are. -/
def sampleSnapshot (time : Moment) (tasks : List Task) : Snapshot where
  branch := "main".toList
  commit := "0f".toList
  commitShort := "0f".toList
  message := []
  time
  stats := ⟨tasks.length, [], [], [], tasks⟩

/-- The sample history with such snapshots. -/
def sampleSeries (series : List (Moment × List Task)) : History :=
  { sampleHistory with snapshots := series.map fun e => sampleSnapshot e.1 e.2 }

theorem isExact_sampleSeries (series : List (Moment × List Task)) :
    (sampleSeries series).IsExact := by
  have hbase : sampleHistory.IsExact := History.isExact_record (by simp) _
  refine ⟨hbase.byStatus, hbase.byKeyword, hbase.byFile, ?_, hbase.extra, hbase.extra_keys⟩
  intro s hs
  obtain ⟨e, -, rfl⟩ := List.mem_map.1 hs
  exact ⟨List.nodup_nil, List.nodup_nil, List.nodup_nil⟩

/-- A world with that history. -/
def sampleSeriesWorld (series : List (Moment × List Task)) : World :=
  sampleWorld (some (Utf8.encode (sampleSeries series).toText))

theorem load_sampleSeriesWorld (series : List (Moment × List Task)) :
    sampleStore.load (sampleSeriesWorld series) =
      (.ok (some (sampleSeries series)), sampleSeriesWorld series) :=
  load_sampleWorld (isExact_sampleSeries series)

end HistoryStore
end MarkerBoard
