import MarkerBoard.Proofs.Block.Recorded
import MarkerBoard.Proofs.History.Counts
import MarkerBoard.Proofs.History.Queries
import MarkerBoard.Proofs.History.Saved
import MarkerBoard.Proofs.History.Unseen

/-!
# Counts from a scan to the queries

The items of a scan are counted when it is recorded, and counted again by the queries after the
history has been written and loaded. No item is lost on the way, and none is counted twice.

This needs that a scan finds items in columns of the board only: a note bears the name of a column,
and an item without a note is in the first one. The done mark follows from the column.

Main results:

* `ScanContext.onBoard_item` — the items that scans make are in columns of the board.
* `HistoryStore.tells_of_save` — what is kept of a scan that is recorded, and what the queries tell.
* `Activity.tells_of_scanAndRecord` — the same after a scan of the project.
-/
namespace MarkerBoard

/-! ## Items of a scan -/

namespace ScanContext

variable {ctx : ScanContext} {first : Column} {file : Text}

/-- The items that a scan makes are in columns of the board, and their done marks say which
column. -/
theorem onBoard_item (hfirst : ctx.settings.firstColumn? = some first) (id : Int) (n : Nat)
    (m : MarkerLine) (lines : List Text) :
    (ctx.item first file id n m
      ((Grammar.ofSettings ctx.settings).block lines)).OnBoard ctx.settings := by
  refine ⟨?_, isDone_item ..⟩
  rw [item_status, filterMap_transition?_block]
  exact lastStatus_mem hfirst _

end ScanContext

theorem Action.onBoard_of_scan {p : Project} {s : Settings} {w w' : World} {items : List Item}
    (hs : (p.settings w).1 = .ok s) (h : scan p w = (.ok items, w')) :
    ∀ i ∈ items, i.OnBoard s := by
  intro i hi
  obtain ⟨ctx, first, file, id, n, m, lines, rfl, hfirst, rfl⟩ := exists_of_mem_scan hs h hi
  exact ScanContext.onBoard_item hfirst ..

/-! ## Recording them -/

namespace HistoryStore

variable {store : HistoryStore} {s : Settings} {items : List Item} {w w' : World} {g : History}

/-- What is kept of a scan whose items are on the board, and what the queries tell of it, come to the
same numbers. -/
theorem tells_of_save (hboard : ∀ i ∈ items, i.OnBoard s) (hids : s.columnIds.Nodup)
    (hnames : (s.columns.map Column.name).Nodup) (hadds : store.AddsSnapshot w)
    (hsave : store.save items (some s) w = (.ok g, w')) (hdir : w'.disk.isDir store.dir = true) :
    ∃ snap trends entry groups,
      store.load w' = (.ok (some g), w') ∧ g.snapshots.getLast? = some snap ∧
      snap.stats.Tells s items ∧ g.Repeats snap.stats ∧
      g.byFile.IsFrequency (items.map Item.file) ∧
      store.trends s w' = (.ok trends, w') ∧ trends.timeline.getLast? = some entry ∧
      entry.counts = s.columns.map (fun c =>
        (c.name, ((items.map Item.status).count c.id : Int))) ∧
      entry.counts.total = items.length ∧
      g.statusCounts s = s.columns.map (fun c =>
        (c.id, ((items.map Item.status).count c.id : Int))) ∧
      store.fileGroups s w' = (.ok (some groups), w') ∧ g.GroupsByFile groups := by
  have hload : store.load w' = (.ok (some g), w') := load_of_save hsave hdir rfl
  obtain ⟨old, r, rfl, hr, rfl, hlast⟩ := exists_record_of_save hadds hsave
  have hstats : r.stats.Tells s r.items := by
    rw [Scanned.stats, hr]
    exact Stats.tells_ofItems hids hboard
  have hcounts := Stats.columnCounts_eq hstats.tasks hboard hnames
  have hsum := Settings.sum_count_columns hids (Item.OnBoard.forall_status hboard)
  refine ⟨r.snapshot, _, r.snapshot.timelineEntry s, _, hload, hlast, hstats, ⟨rfl, rfl, rfl, rfl⟩,
    Keyed.isFrequency_tally _, trends_of_load hload s, ?_, hcounts, ?_,
    History.statusCounts_eq hstats.tasks hboard hids, fileGroups_of_load hload s,
    History.groupsByFile_of hstats.tasks hboard hids rfl⟩
  · rw [Trends.of, List.getLast?_map, hlast]
    rfl
  · show (r.stats.columnCounts s).total = r.items.length
    rw [hcounts, Keyed.total, List.map_map]
    exact hsum.trans (by rw [List.length_map])

end HistoryStore

/-! ## Scanning and recording -/

namespace Activity

variable {p : Project} {store : HistoryStore} {s : Settings} {items : List Item} {σ σ' : Session}

/-- The items of a scan are saved in the world of the scan, but for the log. -/
theorem exists_of_scanAndRecord (hs : (p.settings σ.world).1 = .ok s)
    (h : scanAndRecord p (some store) σ = (.ok items, σ')) :
    ∃ w₁ log g, Action.scan p σ.world = (.ok items, w₁) ∧
      store.save items (some s) { σ.world with log } = (.ok g, σ'.world) := by
  rw [scanAndRecord, Steps.bind_ok_iff] at h
  obtain ⟨found, σ₁, hscan, h⟩ := h
  rw [scan, Steps.bind_ok_iff] at hscan
  obtain ⟨_, _, hact, hscan⟩ := hscan
  obtain ⟨w₁, hw₁, rfl⟩ := exists_of_act hact
  cases hscan
  obtain ⟨log₁, hlog₁⟩ := Action.logsOnly_scan p σ.world
  have hscanned : w₁ = { σ.world with log := log₁ } := (congrArg Prod.snd hw₁).symm.trans hlog₁
  -- the settings are loaded again, in the same world but for the log
  rw [Steps.bind_ok_iff] at h
  obtain ⟨again, σ₂, hsettings, h⟩ := h
  obtain ⟨w₂, hw₂, rfl⟩ := exists_of_act hsettings
  replace hw₂ : p.settings w₁ = (.ok again, w₂) := hw₂
  obtain ⟨log₂, hlog₂⟩ := p.logsOnly_settings w₁
  have hloaded : w₂ = { σ.world with log := log₂ } := by
    rw [hw₂] at hlog₂
    rw [show w₂ = _ from hlog₂, hscanned]
  have hagain : (p.settings w₁).1 = .ok s := by
    rw [hscanned, p.ignoresLog_settings.result_eq, hs]
  rw [hw₂] at hagain
  cases hagain
  rw [Steps.bind_ok_iff] at h
  obtain ⟨g, σ₃, hsave, h⟩ := h
  obtain ⟨w', hw', rfl⟩ := exists_of_act hsave
  cases h
  exact ⟨w₁, log₂, g, hw₁, by rwa [← hloaded]⟩

/-- A scan is recorded if its items can be saved. -/
theorem scanAndRecord_of_ok {w₁ w₂ w' : World} {g : History}
    (hscan : Action.scan p σ.world = (.ok items, w₁)) (hs : p.settings w₁ = (.ok s, w₂))
    (hsave : store.save items (some s) w₂ = (.ok g, w')) :
    scanAndRecord p (some store) σ = (.ok items, { σ.replaceItems items with world := w' }) := by
  have hact : act (.scan p) σ = (.ok items, { σ with world := w₁ }) := by rw [act_apply, hscan]
  have hscanned : scan p σ = (.ok items, { σ.replaceItems items with world := w₁ }) := by
    rw [scan, Steps.bind_of_ok hact]
    rfl
  have hsettings : act p.settings { σ.replaceItems items with world := w₁ } =
      (.ok s, { σ.replaceItems items with world := w₂ }) := by
    rw [act_apply, hs]
  have hsaved : act (store.save items (some s)) { σ.replaceItems items with world := w₂ } =
      (.ok g, { σ.replaceItems items with world := w' }) := by
    rw [act_apply, hsave]
  rw [scanAndRecord, Steps.bind_of_ok hscanned]
  dsimp only
  rw [Steps.bind_of_ok hsettings, Steps.bind_of_ok hsaved]
  rfl

/-- Counts are conserved from a scan that is recorded to every query. After a rescan that has added a
snapshot, the history is loaded: its total, that of its last snapshot and the number of its tasks
are the number of the items; the items are counted by status (in the order of the columns), keyword,
file and priority; for each column the course of the board and the overview count the items in it,
together all of them; and the tasks are parted by files just as the files are counted.

The directory of the history is assumed to be there afterwards. It goes only if its own path leads
through a link that is replaced by the history. -/
theorem tells_of_scanAndRecord (hs : (p.settings σ.world).1 = .ok s) (hids : s.columnIds.Nodup)
    (hnames : (s.columns.map Column.name).Nodup) (hadds : store.AddsSnapshot σ.world)
    (h : scanAndRecord p (some store) σ = (.ok items, σ'))
    (hdir : σ'.world.disk.isDir store.dir = true) :
    ∃ g snap trends entry groups,
      store.load σ'.world = (.ok (some g), σ'.world) ∧ g.snapshots.getLast? = some snap ∧
      snap.stats.Tells s items ∧ g.Repeats snap.stats ∧
      g.byFile.IsFrequency (items.map Item.file) ∧
      store.trends s σ'.world = (.ok trends, σ'.world) ∧ trends.timeline.getLast? = some entry ∧
      entry.counts = s.columns.map (fun c =>
        (c.name, ((items.map Item.status).count c.id : Int))) ∧
      entry.counts.total = items.length ∧
      g.statusCounts s = s.columns.map (fun c =>
        (c.id, ((items.map Item.status).count c.id : Int))) ∧
      store.fileGroups s σ'.world = (.ok (some groups), σ'.world) ∧ g.GroupsByFile groups := by
  obtain ⟨w₁, log, g, hscan, hsave⟩ := exists_of_scanAndRecord hs h
  exact ⟨g, HistoryStore.tells_of_save (Action.onBoard_of_scan hs hscan) hids hnames
    (hadds.withLog log) hsave hdir⟩

/-! ### A project of two files -/

open HistoryStore Disk

/-- A world with a project of two files, and with what else is there. -/
def sampleCounted (others : List (Place × Node)) : World := { sampleTreeWorld [] [] with
  disk := ⟨⟨['/'], []⟩, [
    (["a.go".toList], .file (Utf8.encode
      "// TODO: a\n// DONE 2024-01-02 09:00 by ann".toList) 0o644),
    (["b.go".toList], .file (Utf8.encode "// FIXME: b".toList) 0o644)] ++ others⟩ }

/-- The directory of the store, with its ignore file and a history. -/
def sampleCountedMade (bytes : List UInt8) : List (Place × Node) :=
  sampleMade ++ [([".kodo".toList, fileName], .file bytes privateMode)]

/-- A directory, and in it an entry at the place of the history; the path of the store leads through
that entry. -/
def sampleThrough (entry : Node) : List (Place × Node) := [(["d".toList], .dir),
  (["d".toList, ".gitignore".toList], .file (Utf8.encode ignoreText) newFileMode),
  (["d".toList, fileName], entry), ([".kodo".toList], .link "d/items_history.json".toList)]

set_option maxRecDepth 4000 in
theorem exists_scan_sampleCounted {others : List (Place × Node)}
    (h : others = sampleMade ∨ others = sampleThrough (.link ['.'])) :
    ∃ items, Action.scan (sampleTree []) (sampleCounted others) = (.ok items, sampleCounted others) ∧
      items.map (fun i => (i.file, i.status)) = [("a.go".toList, "done".toList),
        ("b.go".toList, "todo".toList)] := by
  have hsame : (Action.scan (sampleTree []) (sampleCounted others)).2 = sampleCounted others := rfl
  have hfound : ((Action.scan (sampleTree []) (sampleCounted others)).1.toOption.map fun items =>
      items.map fun i => (i.file, i.status)) = some [("a.go".toList, "done".toList),
        ("b.go".toList, "todo".toList)] := by
    rcases h with rfl | rfl
    · cbv
    · cbv
  obtain ⟨items, hitems, hmap⟩ := Option.map_eq_some_iff.1 hfound
  exact ⟨items, (Steps.eq_of_toOption hitems).trans (by rw [hsame]), hmap⟩

/-- One item is in the first column and one is in the last one, wherever they are counted. -/
theorem tells_of_scanAndRecord_sampleCounted :
    ∃ items σ', scanAndRecord (sampleTree []) (some sampleTreeStore)
        (.start (sampleCounted sampleMade)) = (.ok items, σ') ∧
      ∃ g snap trends entry groups,
        sampleTreeStore.load σ'.world = (.ok (some g), σ'.world) ∧
        g.snapshots.getLast? = some snap ∧ snap.stats.Tells ScanContext.sampleBoard items ∧
        g.total = 2 ∧
        sampleTreeStore.trends ScanContext.sampleBoard σ'.world = (.ok trends, σ'.world) ∧
        trends.timeline.getLast? = some entry ∧
        entry.counts = [("TODO".toList, 1), ("DOING".toList, 0), ("DONE".toList, 1)] ∧
        g.statusCounts ScanContext.sampleBoard =
          [("todo".toList, 1), ("doing".toList, 0), ("done".toList, 1)] ∧
        sampleTreeStore.fileGroups ScanContext.sampleBoard σ'.world =
          (.ok (some groups), σ'.world) ∧
        g.GroupsByFile groups := by
  obtain ⟨items, hscan, hitems⟩ := exists_scan_sampleCounted (.inl rfl)
  have hstatus : items.map Item.status = ["done".toList, "todo".toList] := by
    have h := congrArg (List.map Prod.snd) hitems
    rwa [List.map_map] at h
  have hlength : items.length = 2 := by
    rw [← List.length_map, hstatus]
    rfl
  have hinit : sampleTreeStore.initialise (sampleCounted sampleMade) =
      (.ok (), sampleCounted sampleMade) := by cbv
  have hload : sampleTreeStore.load (sampleCounted sampleMade) =
      (.ok none, sampleCounted sampleMade) := by cbv
  have hrep : ∀ bytes, Action.replaced (sampleCounted sampleMade) sampleTreeStore.file false bytes =
      .ok (sampleCounted (sampleCountedMade bytes)).disk := by
    intro bytes
    cbv
  have hdir : ∀ bytes, (sampleCounted (sampleCountedMade bytes)).disk.isDir sampleTreeStore.dir =
      true := by
    intro bytes
    cbv
  have hadds : sampleTreeStore.AddsSnapshot (sampleCounted sampleMade) := by
    rw [AddsSnapshot, hinit, current, hload]
    rfl
  have hsettings : (sampleTree []).settings (sampleCounted sampleMade) =
      (.ok ScanContext.sampleBoard, sampleCounted sampleMade) := rfl
  obtain ⟨g, w', hsave, hw'⟩ : ∃ g w', sampleTreeStore.save items (some ScanContext.sampleBoard)
      (sampleCounted sampleMade) = (.ok g, w') ∧ w'.disk.isDir sampleTreeStore.dir = true :=
    ⟨_, _, save_of_ok hinit hload (hrep _), hdir _⟩
  have hrun := scanAndRecord_of_ok (σ := .start (sampleCounted sampleMade)) hscan hsettings hsave
  refine ⟨_, _, hrun, ?_⟩
  obtain ⟨g, snap, trends, entry, groups, hg, hlast, htells, hrepeats, -, htrends, hentry,
    hcounts, -, hcolumns, hgroups, hparted⟩ :=
    tells_of_scanAndRecord (σ := .start (sampleCounted sampleMade)) (congrArg Prod.fst hsettings)
      (by decide) (by decide) hadds hrun hw'
  rw [hstatus] at hcounts hcolumns
  refine ⟨g, snap, trends, entry, groups, hg, hlast, htells, ?_, htrends, hentry, hcounts, hcolumns,
    hgroups, hparted⟩
  rw [hrepeats.total, htells.total, hlength]
  rfl

/-- The path of the store leads through the link at the place of the history. So the directory of the
store is there for the history to be written, and is gone afterwards, since the history takes the
place of the link. Nothing is loaded then. -/
theorem not_loaded_sampleThrough :
    ∃ items σ', (sampleTree []).settings (sampleCounted (sampleThrough (.link ['.']))) =
        (.ok ScanContext.sampleBoard, sampleCounted (sampleThrough (.link ['.']))) ∧
      ScanContext.sampleBoard.columnIds.Nodup ∧
      (ScanContext.sampleBoard.columns.map Column.name).Nodup ∧
      sampleTreeStore.AddsSnapshot (sampleCounted (sampleThrough (.link ['.']))) ∧
      scanAndRecord (sampleTree []) (some sampleTreeStore)
        (.start (sampleCounted (sampleThrough (.link ['.'])))) = (.ok items, σ') ∧
      items.length = 2 ∧ (sampleTreeStore.load σ'.world).1 = .ok none := by
  obtain ⟨items, hscan, hitems⟩ := exists_scan_sampleCounted (.inr rfl)
  have hlength : items.length = 2 := by
    have h := congrArg List.length hitems
    rwa [List.length_map] at h
  have hinit : sampleTreeStore.initialise (sampleCounted (sampleThrough (.link ['.']))) =
      (.ok (), sampleCounted (sampleThrough (.link ['.']))) := by cbv
  -- there was a directory to read from, which tells the log
  have hload : sampleTreeStore.load (sampleCounted (sampleThrough (.link ['.']))) =
      (.ok none, { sampleCounted (sampleThrough (.link ['.'])) with log := [.warning] }) := by cbv
  have hrep : ∀ bytes, Action.replaced
      { sampleCounted (sampleThrough (.link ['.'])) with log := [.warning] }
      sampleTreeStore.file false bytes =
        .ok (sampleCounted (sampleThrough (.file bytes privateMode))).disk := by
    intro bytes
    cbv
  have hgone : ∀ bytes log, (sampleTreeStore.load
      { sampleCounted (sampleThrough (.file bytes privateMode)) with log }).1 = .ok none := by
    intro bytes log
    cbv
  have hadds : sampleTreeStore.AddsSnapshot (sampleCounted (sampleThrough (.link ['.']))) := by
    rw [AddsSnapshot, hinit, current, hload]
    rfl
  have hsettings : (sampleTree []).settings (sampleCounted (sampleThrough (.link ['.']))) =
      (.ok ScanContext.sampleBoard, sampleCounted (sampleThrough (.link ['.']))) := rfl
  refine ⟨items, _, hsettings, by decide, by decide, hadds,
    scanAndRecord_of_ok hscan hsettings (save_of_ok hinit hload (hrep _)), hlength, hgone _ _⟩

end Activity
end MarkerBoard
