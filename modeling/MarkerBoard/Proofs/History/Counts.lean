import MarkerBoard.History.Overview
import MarkerBoard.Proofs.Tally

/-!
# Counts of a recorded scan

The items of a scan are counted when it is recorded, and their tasks are counted again by each query:
by the statuses that there are, by the columns of the board, and by the done marks. All of these
come to the same if every item is in some column and is marked as done just in the last one.

Main results:

* `Settings.keys_inColumnOrder` — statuses in the order of the columns.
* `Stats.tells_ofItems` — what is counted when a scan is recorded.
* `Stats.columnCounts_eq`, `History.statusCounts_eq`, `History.groupsByFile_of` — what the queries
  count.
-/
namespace MarkerBoard

/-! ## The order of the columns -/

namespace Settings

variable {s : Settings} {status : Text}

/-- The identifiers of the columns. -/
def columnIds (s : Settings) : List Text := s.columns.map Column.id

/-- Finished items are in the last column. -/
theorem doneId?_eq (s : Settings) : s.doneId? = s.columnIds.getLast? := List.getLast?_map.symm

theorem mem_columnIds_of_doneId? {id : Text} (h : s.doneId? = some id) : id ∈ s.columnIds := by
  rw [doneId?_eq] at h
  exact List.mem_of_getLast? h

/-- The rank of a column's identifier is a place where it stands. -/
theorem getElem?_rank (h : status ∈ s.columnIds) : s.columnIds[s.rank status]? = some status := by
  rw [rank, ← columnIds]
  cases hback : s.columnIds.reverse.idxOf? status with
  | none =>
    rw [List.idxOf?_eq_none_iff, List.mem_reverse] at hback
    exact absurd h hback
  | some back =>
    -- the identifiers are looked through from the end
    rw [List.idxOf?, List.findIdx?_eq_some_iff_getElem] at hback
    obtain ⟨hlt, heq, -⟩ := hback
    rw [List.getElem_reverse, beq_iff_eq] at heq
    rw [List.length_reverse] at hlt
    show s.columnIds[s.columnIds.length - 1 - back]? = some status
    exact List.getElem?_eq_some_iff.2 ⟨by omega, heq⟩

/-- Different identifiers are ranked as they stand. -/
theorem pairwise_rank (hids : s.columnIds.Nodup) :
    s.columnIds.Pairwise fun a b => s.rank a ≤ s.rank b := by
  have hrank : ∀ (n : Nat) (hn : n < s.columnIds.length), s.rank s.columnIds[n] = n := by
    intro n hn
    have hget := getElem?_rank (List.getElem_mem hn)
    obtain ⟨hlt, heq⟩ := List.getElem?_eq_some_iff.1 hget
    exact (hids.getElem_inj_iff).1 heq
  rw [List.pairwise_iff_getElem]
  intro i j hi hj hij
  rw [hrank i hi, hrank j hj]
  omega

/-- Values under identifiers of columns come in the order of the columns. -/
theorem keys_inColumnOrder {α : Type} {m : Keyed α} (hids : s.columnIds.Nodup)
    (hm : m.keys.Nodup) (hknown : ∀ k ∈ m.keys, k ∈ s.columnIds) :
    (s.inColumnOrder m).keys = s.columnIds.filter (· ∈ m.keys) := by
  -- both sides are sorted by rank and have the same elements
  have hperm : (s.inColumnOrder m).keys.Perm m.keys := (List.mergeSort_perm _ _).map Prod.fst
  have hsorted : (s.inColumnOrder m).keys.Pairwise fun a b => s.rank a ≤ s.rank b := by
    have h : (s.inColumnOrder m).Pairwise fun a b => decide (s.rank a.1 ≤ s.rank b.1) = true :=
      List.pairwise_mergeSort
        (fun a b c hab hbc => by
          simp only [decide_eq_true_eq] at *
          omega)
        (fun a b => by
          simp only [Bool.or_eq_true, decide_eq_true_eq]
          omega) m
    exact List.pairwise_map.2 (h.imp fun hab => by simpa using hab)
  refine List.Perm.eq_of_pairwise ?_ hsorted ((pairwise_rank hids).filter _) ?_
  -- two columns of one rank are at one place
  · intro a b ha hb hab hba
    have hrank : s.rank a = s.rank b := Nat.le_antisymm hab hba
    have hgeta := getElem?_rank (hknown a (hperm.mem_iff.1 ha))
    have hgetb := getElem?_rank (List.mem_filter.1 hb).1
    rw [hrank, hgetb] at hgeta
    exact (Option.some.inj hgeta).symm
  · refine hperm.trans ((List.perm_ext_iff_of_nodup hm (hids.filter _)).2 fun k => ?_)
    rw [List.mem_filter]
    simpa using hknown k

end Settings

/-! ## Items in their columns -/

/-- The item is in a column of the board, and it is done just if that is the last one. -/
structure Item.OnBoard (i : Item) (s : Settings) : Prop where
  status : i.status ∈ s.columnIds
  isDone : i.isDone = decide (s.doneId? = some i.status)

variable {s : Settings} {items : List Item}

theorem Item.OnBoard.forall_status (h : ∀ i ∈ items, i.OnBoard s) :
    ∀ k ∈ items.map Item.status, k ∈ s.columnIds := by
  rw [List.forall_mem_map]
  exact fun i hi => (h i hi).status

/-- The columns count all items. -/
theorem Settings.sum_count_columns (hids : s.columnIds.Nodup)
    {statuses : List Text} (h : ∀ k ∈ statuses, k ∈ s.columnIds) :
    (s.columns.map fun c => (statuses.count c.id : Int)).sum = statuses.length := by
  rw [← Keyed.sum_count hids h, columnIds, List.map_map]
  rfl

namespace Stats

variable {t : Stats}

/-- The counts are those of the items on a board. -/
structure Tells (t : Stats) (s : Settings) (items : List Item) : Prop where
  total : t.total = items.length
  tasks : t.tasks = items.map Task.ofItem
  byStatus : t.byStatus.IsFrequency (items.map Item.status)
  inOrder : t.byStatus.keys.Sublist s.columnIds
  byKeyword : t.byKeyword.IsFrequency (items.map Item.keyword)
  byPriority : t.byPriority.IsFrequency (items.map fun i => i.priority.name)

/-- What is counted when a scan is recorded. -/
theorem tells_ofItems (hids : s.columnIds.Nodup) (h : ∀ i ∈ items, i.OnBoard s) :
    (ofItems items (some s)).Tells s items := by
  have htally := Keyed.isFrequency_tally (items.map Item.status)
  have hknown : ∀ k ∈ (Keyed.tally (items.map Item.status)).keys, k ∈ s.columnIds :=
    fun k hk => Item.OnBoard.forall_status h k (htally.mem_keys_iff.1 hk)
  refine ⟨rfl, rfl, htally.perm (List.mergeSort_perm _ _), ?_, Keyed.isFrequency_tally _,
    Keyed.isFrequency_tally _⟩
  show (s.inColumnOrder (Keyed.tally (items.map Item.status))).keys.Sublist s.columnIds
  rw [Settings.keys_inColumnOrder hids htally.nodup hknown]
  exact List.filter_sublist

/-- The done marks add nothing to a column that its status has not put there. -/
theorem countIn_eq (ht : t.tasks = items.map Task.ofItem) (h : ∀ i ∈ items, i.OnBoard s)
    (id : Text) : t.countIn id (s.doneId?.getD []) = (items.map Item.status).count id := by
  rw [countIn, ht, List.countP_map, List.count, List.countP_map]
  refine List.countP_congr fun i hi => ?_
  have hdone : (Task.ofItem i).isDone = true → s.doneId? = some i.status := fun hd =>
    of_decide_eq_true ((h i hi).isDone.symm.trans hd)
  simp only [Function.comp_apply, Bool.or_eq_true, Bool.and_eq_true, decide_eq_true_eq,
    beq_iff_eq]
  constructor
  -- a done task is in the last column by its status, too
  · rintro (hstatus | ⟨rfl, hd⟩)
    · exact hstatus
    · rw [hdone hd]
      rfl
  · exact Or.inl

/-- Under different names, each column has its own count. -/
theorem columnCounts_of_nodup (hnames : (s.columns.map Column.name).Nodup) (t : Stats) :
    t.columnCounts s =
      s.columns.map fun c => (c.name, (t.countIn c.id (s.doneId?.getD []) : Int)) := by
  rw [columnCounts, Keyed.ofList_eq_self]
  rw [Keyed.keys, List.map_map]
  exact hnames

/-- What the course of a board tells of a snapshot: for each column, the number of items in it. -/
theorem columnCounts_eq (ht : t.tasks = items.map Task.ofItem) (h : ∀ i ∈ items, i.OnBoard s)
    (hnames : (s.columns.map Column.name).Nodup) : t.columnCounts s =
      s.columns.map fun c => (c.name, ((items.map Item.status).count c.id : Int)) := by
  rw [columnCounts_of_nodup hnames]
  simp only [countIn_eq ht h]

end Stats

/-- In the columns, all tasks of a file are counted. -/
theorem FileGroup.total_counts (hids : s.columnIds.Nodup) {ts : List Task}
    (h : ∀ k ∈ ts.map Task.status, k ∈ s.columnIds) :
    (FileGroup.of s ts).counts.total = ts.length := by
  have hcount : ∀ id, ts.countP (fun t => decide (t.status = id)) =
      (ts.map Task.status).count id := by
    intro id
    rw [List.count, List.countP_map]
    simp only [Function.comp_def, beq_eq_decide]
  have hkeys : (Keyed.keys (s.columns.map fun c =>
      (c.id, (ts.countP fun t => t.status = c.id : Int)))).Nodup := by
    rw [Keyed.keys, List.map_map]
    exact hids
  rw [FileGroup.of, Keyed.ofList_eq_self hkeys, Keyed.total, List.map_map]
  simp only [Function.comp_def, hcount]
  rw [Settings.sum_count_columns hids h, List.length_map]

namespace History

variable {g : History}

/-- The history has the counts of a scan once more. -/
structure Repeats (g : History) (t : Stats) : Prop where
  total : g.total = t.total
  byStatus : g.byStatus = t.byStatus
  byKeyword : g.byKeyword = t.byKeyword
  tasks : g.tasks = t.tasks

/-- What a query tells of the columns: for each of them, the number of items in it. -/
theorem statusCounts_eq (ht : g.tasks = items.map Task.ofItem) (h : ∀ i ∈ items, i.OnBoard s)
    (hids : s.columnIds.Nodup) : g.statusCounts s =
      s.columns.map fun c => (c.id, ((items.map Item.status).count c.id : Int)) := by
  have hcounted : g.tasks.map (countedStatus s.doneId?) = items.map Item.status := by
    rw [ht, List.map_map]
    refine List.map_congr_left fun i hi => ?_
    -- a done item is counted in the last column, and that is where it is
    have hdone := (h i hi).isDone
    show countedStatus s.doneId? (Task.ofItem i) = i.status
    rw [countedStatus.eq_def]
    split
    · next id hid =>
      split
      · next hd =>
        have hlast := of_decide_eq_true (hdone.symm.trans hd)
        exact Option.some.inj (hid.symm.trans hlast)
      · rfl
    · rfl
  -- counting starts with nothing in any column, and there is no status but those of the columns
  have hstart : Keyed.ofList (s.columns.map fun c => (c.id, (0 : Int))) =
      s.columnIds.map fun id => (id, 0) := by
    rw [Keyed.ofList_eq_self, Settings.columnIds, List.map_map]
    · rfl
    · rw [Keyed.keys, List.map_map]
      exact hids
  rw [statusCounts, hcounted, hstart,
    Keyed.foldl_bump_map hids (Item.OnBoard.forall_status h), Settings.columnIds, List.map_map]
  simp only [Function.comp_def, Int.zero_add]

/-- What a query tells of the files: the tasks are parted by their files, in their order, and as
many as are counted for the file are found in the columns. -/
structure GroupsByFile (g : History) (groups : Keyed FileGroup) : Prop where
  keys : groups.keys = g.byFile.keys
  parted : (groups.flatMap fun e => e.2.tasks).Perm g.tasks
  tasks : ∀ e ∈ groups, e.2.tasks = g.tasks.filter (·.file = e.1)
  byFile : ∀ e ∈ groups, Keyed.get? e.1 g.byFile = some (e.2.tasks.length : Int)
  counts : ∀ e ∈ groups, e.2.counts.total = e.2.tasks.length

/-- A group of tasks has those of its file. Each file is there once, so the group is what a look-up
of the file finds. -/
theorem fileGroup_of_mem {ts : List Task} {e : Text × FileGroup}
    (h : e ∈ Keyed.mapValues (FileGroup.of s) (group Task.file ts)) :
    e.1 ∈ ts.map Task.file ∧ e.2 = .of s (ts.filter fun t => t.file = e.1) := by
  obtain ⟨⟨file, own⟩, hown, rfl⟩ := List.mem_map.1 h
  have hnodup : (group Task.file ts).keys.Nodup := by
    rw [group, Keyed.keys_foldl_push]
    exact Keyed.nodup_tally _
  have hget := (Keyed.get?_eq_some_iff hnodup).2 hown
  rw [group, Keyed.get?_foldl_push] at hget
  split at hget
  · next hmem =>
    cases hget
    exact ⟨hmem, rfl⟩
  · cases hget

theorem groupsByFile_of (ht : g.tasks = items.map Task.ofItem) (h : ∀ i ∈ items, i.OnBoard s)
    (hids : s.columnIds.Nodup) (hfile : g.byFile = Keyed.tally (items.map Item.file)) :
    g.GroupsByFile (Keyed.mapValues (FileGroup.of s) (group Task.file g.tasks)) := by
  have hfiles : g.tasks.map Task.file = items.map Item.file := by
    rw [ht, List.map_map]
    rfl
  refine ⟨?_, ?_, fun e he => ?_, fun e he => ?_, fun e he => ?_⟩
  · rw [Keyed.mapValues, Keyed.keys, List.map_map, hfile, ← hfiles, ← Keyed.keys_foldl_push]
    rfl
  · rw [Keyed.mapValues, List.flatMap_map]
    exact Keyed.flatMap_foldl_push_perm Task.file g.tasks
  · rw [(fileGroup_of_mem he).2]
    rfl
  · obtain ⟨hmem, hof⟩ := fileGroup_of_mem he
    rw [hfile, ← hfiles, (Keyed.isFrequency_tally _).get?_eq, if_pos hmem, hof, List.count,
      List.countP_map, List.countP_eq_length_filter]
    simp only [FileGroup.of, Function.comp_def, beq_eq_decide]
  · -- the statuses of the tasks of a file are among those of all tasks
    have hknown : ∀ k ∈ e.2.tasks.map Task.status, k ∈ s.columnIds := by
      rw [(fileGroup_of_mem he).2, List.forall_mem_map]
      intro t hmem
      have htask : t ∈ items.map Task.ofItem := ht ▸ (List.mem_filter.1 hmem).1
      obtain ⟨i, hi, rfl⟩ := List.mem_map.1 htask
      exact (h i hi).status
    rw [(fileGroup_of_mem he).2] at hknown ⊢
    exact FileGroup.total_counts hids hknown

end History
end MarkerBoard
