import MarkerBoard.Proofs.Block.Frame
import MarkerBoard.Proofs.History.Counts
import MarkerBoard.Proofs.History.Queries

/-!
# Tasks in more than one column

The course of a board counts a task in the column that its status names, and if it is marked as
done, also in the last column. Under the board of its time that is the same column. Under a later
board it need not be: then the task is counted twice, or not at all if its status is no column.

So the columns together count the tasks of a snapshot, with those that are counted twice once more
and without those that are counted nowhere.

Main results:

* `Task.countP_isCountedIn` — how many columns count a task.
* `Stats.countedAs_columnCounts` — what the columns count together.
* `HistoryStore.countedAs_of_load` — so do the course of a board and its comparison.
-/
namespace MarkerBoard

/-! ## One task -/

namespace Task

variable {b : Settings} {t : Task}

/-- The column counts the task: its status is the column, or it is marked as done and the column is
the last one. -/
def isCountedIn (b : Settings) (t : Task) (id : Text) : Bool :=
  t.status = id || (id = b.doneId?.getD [] && t.isDone)

/-- The status of the task is a column, and its done mark stands for another one. -/
def isCountedTwice (b : Settings) (t : Task) : Bool :=
  t.isDone && b.columnIds.contains t.status && decide (b.doneId? ≠ some t.status)

/-- Neither the status of the task is a column, nor does its done mark stand for one. -/
def isCountedNowhere (b : Settings) (t : Task) : Bool :=
  !b.columnIds.contains t.status && !(t.isDone && b.doneId?.isSome)

/-- Of different identifiers, those that are one or the other of two are counted apart. -/
theorem countP_eq_or {ids : List Text} {k l : Text} (hne : k ≠ l) :
    ids.countP (fun id => decide (k = id) || decide (id = l)) = ids.count k + ids.count l := by
  induction ids with
  | nil => rfl
  | cons id ids ih =>
    rw [List.countP_cons, List.count_cons, List.count_cons, ih]
    by_cases hk : k = id
    · subst hk
      simp only [decide_true, Bool.true_or, BEq.rfl, beq_iff_eq, if_true, if_neg hne]
      omega
    · by_cases hl : id = l
      · subst hl
        simp [hk, Ne.symm hk, Nat.add_assoc]
      · simp [hk, Ne.symm hk, hl]

/-- A task is counted by one column, but for those that are counted twice and those that are counted
nowhere. -/
theorem countP_isCountedIn (hids : b.columnIds.Nodup) (t : Task) :
    b.columnIds.countP (t.isCountedIn b) + (if t.isCountedNowhere b then 1 else 0) =
      1 + (if t.isCountedTwice b then 1 else 0) := by
  have hcount : ∀ k, b.columnIds.count k = if k ∈ b.columnIds then 1 else 0 := fun k => hids.count
  cases hdone : t.isDone with
  | false =>
    -- without a done mark only the status matters
    have hstatus : b.columnIds.countP (t.isCountedIn b) = b.columnIds.count t.status := by
      refine List.countP_congr fun id _ => ?_
      rw [isCountedIn, hdone, Bool.and_false, Bool.or_false, decide_eq_true_iff, beq_iff_eq]
      exact eq_comm
    rw [hstatus, hcount]
    by_cases hmem : t.status ∈ b.columnIds
    · simp [isCountedNowhere, isCountedTwice, hdone, hmem]
    · simp [isCountedNowhere, isCountedTwice, hdone, hmem]
  | true =>
    cases hlast : b.doneId? with
    | none =>
      -- without a last column there are no columns
      rw [Settings.doneId?_eq, List.getLast?_eq_none_iff] at hlast
      simp [isCountedNowhere, isCountedTwice, Settings.doneId?_eq, hlast]
    | some last =>
      have hmem := Settings.mem_columnIds_of_doneId? hlast
      by_cases hstatus : t.status = last
      · -- both ways to count the task lead to the last column
        have hone : b.columnIds.countP (t.isCountedIn b) = b.columnIds.count last := by
          refine List.countP_congr fun id _ => ?_
          rw [isCountedIn, hdone, hlast, hstatus, Option.getD_some, Bool.and_true, Bool.or_eq_true,
            decide_eq_true_iff, decide_eq_true_iff, beq_iff_eq]
          exact ⟨fun h => h.elim Eq.symm fun h => h, Or.inr⟩
        rw [hone, hcount, if_pos hmem]
        simp [isCountedNowhere, isCountedTwice, hlast, hstatus, hmem]
      · have htwo : b.columnIds.countP (t.isCountedIn b) =
            b.columnIds.count t.status + b.columnIds.count last := by
          rw [← countP_eq_or hstatus]
          refine List.countP_congr fun id _ => ?_
          simp [isCountedIn, hdone, hlast]
        rw [htwo, hcount, hcount, if_pos hmem]
        by_cases hknown : t.status ∈ b.columnIds
        · simp [isCountedNowhere, isCountedTwice, hdone, hlast, hknown, Ne.symm hstatus]
        · simp [isCountedNowhere, isCountedTwice, hdone, hlast, hknown]

end Task

/-! ## The tasks of a snapshot -/

namespace Stats

variable {b : Settings} {s : Stats}

/-- How many tasks are counted in two columns. -/
def countTwice (s : Stats) (b : Settings) : Nat := s.tasks.countP (·.isCountedTwice b)

/-- How many tasks are counted in no column. -/
def countNowhere (s : Stats) (b : Settings) : Nat := s.tasks.countP (·.isCountedNowhere b)

/-- The columns count the tasks, those that are counted twice once more and those that are counted
nowhere not. So they count no more than there are if and only if the former are not more than the
latter. -/
structure CountedAs (s : Stats) (b : Settings) (counted : Int) : Prop where
  balance : counted + s.countNowhere b = s.total + s.countTwice b
  le_total_iff : counted ≤ s.total ↔ s.countTwice b ≤ s.countNowhere b

/-- What all columns count. -/
theorem sum_countIn (hids : b.columnIds.Nodup) (ts : List Task) :
    (b.columnIds.map fun id => ts.countP (·.isCountedIn b id)).sum +
        ts.countP (·.isCountedNowhere b) = ts.length + ts.countP (·.isCountedTwice b) := by
  induction ts with
  | nil => simp
  | cons t ts ih =>
    -- one more task is counted by each of its columns
    have hone : ∀ ids : List Text,
        (ids.map fun id => (t :: ts).countP (·.isCountedIn b id)).sum =
          (ids.map fun id => ts.countP (·.isCountedIn b id)).sum +
            ids.countP (t.isCountedIn b) := by
      intro ids
      induction ids with
      | nil => rfl
      | cons id ids ih =>
        rw [List.map_cons, List.sum_cons, ih, List.map_cons, List.sum_cons, List.countP_cons,
          List.countP_cons]
        omega
    have htask := Task.countP_isCountedIn hids t
    rw [hone, List.countP_cons, List.countP_cons, List.length_cons]
    omega

/-- How many tasks each column counts, column by column. -/
def countsByColumn (s : Stats) (b : Settings) : List Int :=
  b.columns.map fun c => (s.countIn c.id (b.doneId?.getD []) : Int)

theorem countedAs_sum (hids : b.columnIds.Nodup) (htotal : s.total = s.tasks.length) :
    s.CountedAs b (s.countsByColumn b).sum := by
  have hsum := sum_countIn hids s.tasks
  have hcast : (s.countsByColumn b).sum =
      ((b.columnIds.map fun id => s.tasks.countP (·.isCountedIn b id)).sum : Nat) := by
    rw [Nat.cast_list_sum, List.map_map, Settings.columnIds, List.map_map]
    rfl
  have hbalance : (s.countsByColumn b).sum + s.countNowhere b = s.total + s.countTwice b := by
    rw [hcast, htotal, countNowhere, countTwice]
    exact_mod_cast hsum
  exact ⟨hbalance, by omega⟩

/-- What the columns count under their names. -/
theorem countedAs_columnCounts (hids : b.columnIds.Nodup)
    (hnames : (b.columns.map Column.name).Nodup) (htotal : s.total = s.tasks.length) :
    s.CountedAs b (s.columnCounts b).total := by
  have hsum := countedAs_sum hids htotal
  rw [columnCounts_of_nodup hnames, Keyed.total, List.map_map]
  exact hsum

end Stats

/-! ## Queries -/

namespace HistoryStore

variable {store : HistoryStore} {w : World} {h : History} {b : Settings}

/-- What is counted at each point of the course of a board, and in both snapshots that are
compared. -/
theorem countedAs_of_load (hids : b.columnIds.Nodup) (hnames : (b.columns.map Column.name).Nodup)
    (hload : store.load w = (.ok (some h), w))
    (htotal : ∀ s ∈ h.snapshots, s.stats.total = s.stats.tasks.length) :
    (∃ trends, store.trends b w = (.ok trends, w) ∧
      List.Forall₂ (fun s e => e.total = s.stats.total ∧ s.stats.CountedAs b e.counts.total)
        h.snapshots trends.timeline) ∧
    ∀ rest previous current, h.snapshots = rest ++ [previous, current] →
      ∃ comparison, store.compare b w = (.ok comparison, w) ∧
        comparison.growth = (b.columns.map Column.name).zip
          (List.zipWith (· - ·) (current.stats.countsByColumn b)
            (previous.stats.countsByColumn b)) ∧
        previous.stats.CountedAs b (previous.stats.countsByColumn b).sum ∧
        current.stats.CountedAs b (current.stats.countsByColumn b).sum := by
  refine ⟨⟨_, trends_of_load hload b, ?_⟩, ?_⟩
  · show List.Forall₂ _ h.snapshots (h.snapshots.map (·.timelineEntry b))
    rw [List.forall₂_map_right_iff, List.forall₂_same]
    exact fun s hs => ⟨rfl, Stats.countedAs_columnCounts hids hnames (htotal s hs)⟩
  · intro rest previous current htwo
    have hprevious := htotal previous (by simp [htwo])
    have hcurrent := htotal current (by simp [htwo])
    refine ⟨_, compare_of_load hload htwo b, ?_, Stats.countedAs_sum hids hprevious,
      Stats.countedAs_sum hids hcurrent⟩
    unfold Stats.countsByColumn
    rw [Comparison.of, List.zipWith_map, List.zipWith_self, List.zip_map', Keyed.ofList_eq_self]
    rw [Keyed.keys, List.map_map]
    exact hnames

/-- Tasks in the second column that are marked as done, one of them with a status that is no column,
and one task that is not done. -/
def sampleMarked : List Task :=
  [sampleTaskAt "a" "doing" true, sampleTaskAt "b" "doing" true, sampleTaskAt "c" "open" true,
    sampleTaskAt "d" "open" false]

theorem total_sampleSeries {series : List (Moment × List Task)} :
    ∀ s ∈ (sampleSeries series).snapshots, s.stats.total = s.stats.tasks.length := by
  intro s hs
  obtain ⟨e, -, rfl⟩ := List.mem_map.1 hs
  rfl

/-- Of four tasks, two are counted twice and one is counted nowhere, so five are counted. -/
theorem countedAs_of_load_sampleMarked :
    ∃ trends e, sampleStore.trends ScanContext.sampleBoard
        (sampleSeriesWorld [(.first, sampleMarked)]) =
        (.ok trends, sampleSeriesWorld [(.first, sampleMarked)]) ∧
      trends.timeline = [e] ∧ e.total = 4 ∧ e.counts.total = 5 := by
  obtain ⟨⟨trends, htrends, hcounted⟩, -⟩ := countedAs_of_load (b := ScanContext.sampleBoard)
    (by decide) (by decide) (load_sampleSeriesWorld [(.first, sampleMarked)]) total_sampleSeries
  have hone : (sampleSeries [(.first, sampleMarked)]).snapshots =
      [sampleSnapshot .first sampleMarked] := rfl
  rw [hone, List.forall₂_cons_left_iff] at hcounted
  obtain ⟨e, entries, ⟨htotal, hcounted⟩, hnil, htimeline⟩ := hcounted
  rw [List.forall₂_nil_left_iff.1 hnil] at htimeline
  have hfour : (sampleSnapshot .first sampleMarked).stats.total = 4 := rfl
  have htwice : (sampleSnapshot .first sampleMarked).stats.countTwice ScanContext.sampleBoard = 2 :=
    by decide
  have hnowhere :
      (sampleSnapshot .first sampleMarked).stats.countNowhere ScanContext.sampleBoard = 1 :=
    by decide
  have hbalance := hcounted.balance
  rw [hfour] at htotal hbalance
  rw [htwice, hnowhere] at hbalance
  exact ⟨trends, e, htrends, htimeline, htotal, by omega⟩

/-- A task that was marked as done in the second column, when this was the last one, is counted
twice. -/
theorem exists_total_lt_sampleBoard :
    ScanContext.sampleBoard.columnIds.Nodup ∧
    (ScanContext.sampleBoard.columns.map Column.name).Nodup ∧
    ∃ w h trends, sampleStore.load w = (.ok (some h), w) ∧
      (∀ s ∈ h.snapshots, s.stats.total = s.stats.tasks.length) ∧
      sampleStore.trends ScanContext.sampleBoard w = (.ok trends, w) ∧
      ∃ e ∈ trends.timeline, e.total < e.counts.total := by
  refine ⟨by decide, by decide, _, _, _,
    load_sampleSeriesWorld [(.first, [sampleTaskAt "a" "doing" true])], total_sampleSeries,
    trends_of_load (load_sampleSeriesWorld _) _, _, List.mem_cons_self, ?_⟩
  decide

end HistoryStore
end MarkerBoard
