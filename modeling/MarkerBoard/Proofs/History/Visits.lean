import MarkerBoard.Proofs.History.Run

/-!
# Visits of commits

Scans are recorded at the commit that is checked out, which may be left for another one and come
back. The scan that arrives at a commit adds a snapshot, and the scans that stay there do not. So a
commit that is visited twice may have two snapshots. The snapshot of a visit can be dropped for its
age during the visit, and the scans that follow do not bring it back.

Main results:

* `HistoryStore.snapshots_of_visits` — snapshots at one commit are of different visits.
* `History.exists_arrival` — each scan belongs to a visit.
* `HistoryStore.exists_snapshot_iff_of_arrival` — when the commit of the latest scan has a snapshot.
-/
namespace MarkerBoard

namespace History

variable {events before after : List Event} {g : History} {r : Scanned} {now : Moment}

/-! ## Replays -/

/-- The commit of a history is that of the latest scan. -/
theorem map_commit_replay (events : List Event) :
    (replay events).map commit = (scans events).getLast?.map (·.git.currentCommit) := by
  induction events using List.reverseRecOn with
  | nil => rfl
  | append_singleton events e ih =>
    rw [replay_concat, scans_append]
    cases e with
    | scan r =>
      rw [scans_cons_scan, scans_nil, List.getLast?_concat]
      rfl
    | cleanup now days =>
      rw [scans_cons_cleanup, scans_nil, List.append_nil, ← ih, next, Option.map_map]
      refine congrArg (Option.map · _) (funext fun h => ?_)
      exact tidied_commit ..

/-- The snapshots of a history are those of some of the scans, in their order. -/
theorem snapshots_sublist_of_replay (h : replay events = some g) :
    g.snapshots.Sublist ((scans events).map Scanned.snapshot) := by
  -- by induction on the operations, the last one last: each keeps a part and adds at the end
  induction events using List.reverseRecOn generalizing g with
  | nil => cases h
  | append_singleton events e ih =>
    rw [replay_concat] at h
    rw [scans_append, List.map_append]
    cases e with
    | scan r =>
      cases h
      refine (snapshots_record_suffix _ r).sublist.trans (List.Sublist.append ?_ ?_)
      · cases hold : replay events with
        | none => exact List.nil_sublist _
        | some old => exact ih hold
      · rw [added]
        split
        · exact List.Sublist.refl _
        · exact List.nil_sublist _
    | cleanup now days =>
      obtain ⟨old, hold, rfl⟩ := Option.map_eq_some_iff.1 h
      rw [tidied_snapshots]
      exact List.filter_sublist.trans ((ih hold).trans (List.sublist_append_left _ _))

/-! ## Arrivals -/

/-- A scan begins a visit: the scan before was at another commit, if there was one, and all that
follow are at the same one. -/
structure IsArrival (before : List Event) (r : Scanned) (after : List Event) : Prop where
  moved : ∀ q ∈ (scans before).getLast?, q.git.currentCommit ≠ r.git.currentCommit
  stay : ∀ q ∈ scans after, q.git.currentCommit = r.git.currentCommit

theorem IsArrival.commit_ne {h : History} (ha : IsArrival before r after)
    (hh : replay before = some h) : h.commit ≠ r.git.currentCommit := by
  have hcommit := map_commit_replay before
  rw [hh, Option.map_some] at hcommit
  obtain ⟨q, hq, hcommit⟩ := Option.map_eq_some_iff.1 hcommit.symm
  rw [← hcommit]
  exact ha.moved q hq

/-- With another operation before all others, a visit begins where it has begun, or with that
operation if that is a scan at its commit and no other scan comes between. -/
theorem IsArrival.exists_cons (ha : IsArrival before r after) (e : Event) :
    ∃ before' r' after', e :: (before ++ .scan r :: after) = before' ++ .scan r' :: after' ∧
      IsArrival before' r' after' ∧ r'.git.currentCommit = r.git.currentCommit := by
  by_cases hmoved : ∀ q ∈ (scans (e :: before)).getLast?,
      q.git.currentCommit ≠ r.git.currentCommit
  · exact ⟨e :: before, r, after, rfl, ⟨hmoved, ha.stay⟩, rfl⟩
  -- the scan that was the first one of all may now have one before it at the same commit
  · obtain ⟨q, hq, hcommit⟩ : ∃ q ∈ (scans (e :: before)).getLast?,
        q.git.currentCommit = r.git.currentCommit := by
      simpa only [not_forall, exists_prop, ne_eq, not_not] using hmoved
    cases e with
    | cleanup now days => exact absurd hcommit (ha.moved q hq)
    | scan q' =>
      rw [scans_cons_scan] at hq
      cases hscans : scans before with
      | cons q₁ qs =>
        rw [hscans, List.getLast?_cons_cons, ← hscans] at hq
        exact absurd hcommit (ha.moved q hq)
      | nil =>
        rw [hscans] at hq
        obtain rfl : q' = q := Option.some.inj hq
        refine ⟨[], q', before ++ .scan r :: after, rfl, ⟨fun q hq => (by cases hq), ?_⟩, hcommit⟩
        intro q hq
        rw [scans_append, hscans, List.nil_append, scans_cons_scan] at hq
        rw [hcommit]
        rcases List.mem_cons.1 hq with rfl | hq
        · rfl
        · exact ha.stay q hq

/-- Each scan belongs to a visit. -/
theorem exists_arrival (h : (scans events).getLast? = some r) :
    ∃ before r₀ after, events = before ++ .scan r₀ :: after ∧ IsArrival before r₀ after ∧
      r₀.git.currentCommit = r.git.currentCommit := by
  -- by induction from the front, so that the visit of the latest scan is known already
  induction events with
  | nil => cases h
  | cons e events ih =>
    cases hscans : scans events with
    | cons q qs =>
      have hlast : (scans events).getLast? = some r := by
        rw [hscans]
        cases e with
        | cleanup now days => rwa [← hscans]
        | scan q' => rwa [scans_cons_scan, hscans, List.getLast?_cons_cons] at h
      obtain ⟨before, r₀, after, rfl, ha, hcommit⟩ := ih hlast
      obtain ⟨before', r', after', hsplit, ha', hcommit'⟩ := ha.exists_cons e
      exact ⟨before', r', after', hsplit, ha', hcommit'.trans hcommit⟩
    | nil =>
      -- the only scan begins the only visit
      cases e with
      | cleanup now days =>
        rw [scans_cons_cleanup, hscans] at h
        cases h
      | scan q =>
        rw [scans_cons_scan, hscans] at h
        cases h
        refine ⟨[], q, events, rfl, ⟨fun q hq => (by cases hq), fun q hq => ?_⟩, rfl⟩
        rw [hscans] at hq
        exact absurd hq List.not_mem_nil

/-- The arrival at a commit adds a snapshot, which is among those that are left. -/
theorem IsArrival.mem_snapshots_record (ha : IsArrival before r after) :
    r.snapshot ∈ (record (replay before) r).snapshots := by
  have hadds : addsSnapshot (replay before) r.git.currentCommit = true := by
    cases hh : replay before with
    | none => rfl
    | some h => simp [addsSnapshot, ha.commit_ne hh]
  have hnew : (record (replay before) r).snapshots =
      newest (((replay before).map snapshots).getD [] ++ [r.snapshot]) := by
    show snapshotsAfter _ r = _
    rw [snapshotsAfter, hadds]
    rfl
  rw [hnew]
  exact List.mem_of_getLast? (getLast?_newest_concat ..)

/-- No snapshot is younger than the scan that has been recorded last. -/
theorem InTime.le_of_mem_snapshots {t : Snapshot}
    (htime : InTime (before ++ .scan r :: after) now)
    (ht : t ∈ (record (replay before) r).snapshots) : t.time.instant ≤ r.time.instant := by
  have hscans := (snapshots_sublist_of_replay (replay_concat before (.scan r))).subset ht
  obtain ⟨q, hq, rfl⟩ := List.mem_map.1 hscans
  rcases List.mem_append.1 (mem_scans.1 hq) with hq | hq
  · exact (List.pairwise_append.1 htime.inOrder).2.2 (.scan q) hq (.scan r) List.mem_cons_self
  · cases List.mem_singleton.1 hq
    exact Int.le_refl _

/-- The commit of a visit has a snapshot as long as that of the arrival has not become too old. -/
theorem exists_snapshot_iff (ha : IsArrival before r after)
    (hknown : r.git.currentCommit ≠ Git.unknown)
    (htime : InTime (before ++ .scan r :: after) now) :
    ∃ g, replay (before ++ .scan r :: after) = some g ∧
      ((∃ t ∈ g.snapshots, t.commit = r.git.currentCommit) ↔
        ∀ e ∈ after, e.spares r.snapshot = true) := by
  obtain ⟨g, hg, -, hsnapshots⟩ :=
    snapshots_of_stay (h := record (replay before) r) ha.stay hknown
  refine ⟨g, ?_, ?_, ?_⟩
  · rw [replay, List.foldl_append, List.foldl_cons]
    exact hg
  -- an older snapshot is left only if that of the arrival is
  · rintro ⟨t, htg, -⟩ e he
    rw [hsnapshots, List.mem_filter, List.all_eq_true] at htg
    have hspares := htg.2 e he
    cases e with
    | scan q => rfl
    | cleanup now days =>
      have hcut := of_decide_eq_true hspares
      exact decide_eq_true (Int.lt_of_lt_of_le hcut (htime.le_of_mem_snapshots htg.1))
  · intro hall
    refine ⟨r.snapshot, ?_, rfl⟩
    rw [hsnapshots, List.mem_filter, List.all_eq_true]
    exact ⟨ha.mem_snapshots_record, hall⟩

/-! ## Different visits -/

/-- If neighbours are at different commits, there is another commit between two snapshots at the
same one. -/
theorem exists_between {l : List Snapshot} {a b : Snapshot}
    (hl : l.IsChain fun a b => a.commit ≠ b.commit ∨ b.commit = Git.unknown)
    (hab : [a, b].Sublist l) (hsame : a.commit = b.commit) (hknown : a.commit ≠ Git.unknown) :
    ∃ c, [a, c, b].Sublist l ∧ c.commit ≠ a.commit := by
  induction l with
  | nil => cases hab
  | cons x l ih =>
    cases hab with
    | cons _ hab =>
      obtain ⟨c, hc, hne⟩ := ih hl.tail hab
      exact ⟨c, hc.cons x, hne⟩
    | cons_cons _ hb =>
      -- the neighbour of the first one is at another commit, so the second one comes later
      cases l with
      | nil => cases hb
      | cons y l =>
        have hne : y.commit ≠ a.commit := by
          intro heq
          rcases hl.rel with hxy | hy
          · exact hxy heq.symm
          · exact hknown (heq ▸ hy)
        refine ⟨y, ?_, hne⟩
        cases hb with
        | cons _ hb => exact (hb.cons_cons y).cons_cons a
        | cons_cons _ _ => exact absurd hsame.symm hne

end History

namespace HistoryStore

variable {s : HistoryStore} {w₀ w : World} {events : List History.Event} {r : Scanned}

theorem Trace.exists_run (ht : s.Trace w₀ events w) : ∃ log created, s.Run w₀ log created w := by
  induction ht with
  | start => exact ⟨_, _, .start⟩
  | save _ hclock hsave ih =>
    obtain ⟨log, created, hrun⟩ := ih
    exact ⟨_, _, hrun.save hclock hsave⟩
  | cleanup _ hclock hclean ih =>
    obtain ⟨log, created, hrun⟩ := ih
    exact ⟨_, _, hrun.cleanup hclock hclean⟩

/-- The history after a sequence of operations is a record of scans. -/
theorem Trace.exists_records (hplace : w₀.disk.at? (s.place w₀.disk) = none)
    (ht : s.Trace w₀ events w) {g : History} (hg : History.replay events = some g) :
    ∃ log created, g.Records log created := by
  obtain ⟨_, hload⟩ := (ht.written hplace).exists_load hplace
  obtain ⟨log, created, hrun⟩ := ht.exists_run
  have hk := (hrun.keeps hplace).1
  cases created with
  -- without a scan there is no history, neither in the file nor in the replay
  | none =>
    obtain ⟨-, hd⟩ := hk
    rw [← hd] at hplace
    obtain ⟨_, hnone⟩ := load_of_place hplace
    cases hg.symm.trans (Except.ok.inj (congrArg Prod.fst (hload.symm.trans hnone)))
  | some created =>
    obtain ⟨h, hsome, hr⟩ := hk.exists_load
    cases hg.symm.trans (Except.ok.inj (congrArg Prod.fst (hload.symm.trans hsome)))
    exact ⟨log, created, hr⟩

/-! ## Scans in a small directory -/

/-- Surroundings in which git tells a commit, at a time. -/
def sampleAt (commit : Text) (now : Moment) : Surroundings := { sampleSurroundings with
  git := { Git.silent with commit := some commit }
  utcNow := now }

/-- A scan in those surroundings that finds nothing. -/
def sampleScan (commit : Text) (now : Moment) : Scanned :=
  ⟨sampleStore.project.toText, now, { Git.silent with commit := some commit }, [], none⟩

theorem place_sampleWorld :
    (sampleWorld none).disk.at? (sampleStore.place (sampleWorld none).disk) = none := by
  cbv

/-- The sample store can be written to in any world with its directory. -/
theorem replaced_of_sampleDisk {history : Option (List UInt8)} (hdisk : w.disk = sampleDisk history)
    (hrefusals : w.refusals = .none) (hname : w.freshName = "t".toList) (bytes : List UInt8) :
    Action.replaced w sampleStore.file false bytes = .ok (sampleDisk (some bytes)) := by
  rw [← replaced_sampleWorld history bytes]
  unfold Action.replaced
  rw [hdisk, hrefusals, hname]
  rfl

theorem isDir_sampleDisk (history : Option (List UInt8)) :
    (sampleDisk history).isDir sampleStore.dir = true := by
  cases history with
  | none => cbv
  | some bytes => cbv

theorem contains_sampleDisk (history : Option (List UInt8)) :
    (sampleDisk history).contains sampleStore.ignoreFile = true := by
  cases history with
  | none => cbv
  | some bytes => cbv

/-- A scan can be saved after any sequence of operations. -/
theorem Trace.exists_save_sampleAt {history : Option (List UInt8)}
    (ht : sampleStore.Trace (sampleWorld none) events w) (hdisk : w.disk = sampleDisk history)
    (commit : Text) {now : Moment} (hclock : w.utcNow.instant ≤ now.instant) :
    ∃ history' w', sampleStore.Trace (sampleWorld none) (events ++ [.scan (sampleScan commit now)])
        w' ∧ w'.disk = sampleDisk history' ∧ w'.utcNow = now := by
  have hinit : sampleStore.initialise (w.within (sampleAt commit now)) =
      (.ok (), w.within (sampleAt commit now)) :=
    initialise_of_isDir (hdisk ▸ isDir_sampleDisk _) (hdisk ▸ contains_sampleDisk _)
  obtain ⟨log, hload⟩ :=
    ((ht.written place_sampleWorld).within (sampleAt commit now)).exists_load place_sampleWorld
  have hrep := replaced_of_sampleDisk (w := { w.within (sampleAt commit now) with log }) hdisk rfl rfl
  exact ⟨_, _, ht.save (o := sampleAt commit now) hclock (save_of_ok hinit hload (hrep _)), rfl, rfl⟩

/-- Old snapshots can be dropped after any sequence of operations that has begun with a scan. -/
theorem Trace.exists_cleanup_sampleAt {history : Option (List UInt8)} {g : History}
    (ht : sampleStore.Trace (sampleWorld none) events w) (hdisk : w.disk = sampleDisk history)
    (hg : History.replay events = some g) {now : Moment}
    (hclock : w.utcNow.instant ≤ now.instant) {days : Int} (hreach : now.Reaches days) :
    ∃ w', sampleStore.Trace (sampleWorld none) (events ++ [.cleanup now days]) w' ∧
      (∃ history', w'.disk = sampleDisk history') ∧ w'.utcNow = now := by
  have hload : sampleStore.load (w.within (sampleAt [] now)) =
      (.ok (some g), w.within (sampleAt [] now)) := by
    have hwritten := ht.written place_sampleWorld
    rw [hg] at hwritten
    obtain ⟨⟨m, hhas⟩, hx⟩ := hwritten
    exact load_of_has hx hhas
  have hrep := replaced_of_sampleDisk (w := w.within (sampleAt [] now)) hdisk rfl rfl
  obtain ⟨n, w', hclean⟩ := exists_cleanup hload hreach fun bytes => ⟨_, hrep bytes⟩
  refine ⟨w', ht.cleanup (o := sampleAt [] now) hclock hclean, ?_⟩
  obtain ⟨_, _, hload', hkept⟩ := exists_of_cleanup hclean
  cases hload.symm.trans hload'
  rcases hkept with ⟨rfl, -⟩ | ⟨_, -, -, hwrite⟩
  · exact ⟨⟨history, hdisk⟩, rfl⟩
  · obtain ⟨d', hd', rfl⟩ := exists_of_write hwrite
    cases (hrep _).symm.trans hd'
    exact ⟨⟨_, rfl⟩, rfl⟩

/-! ## Visits of a store -/

/-- Starting without a history, the snapshots are those of some of the scans, in their order. Two of
them are at one commit that git tells only if that has been left in between: then there is a
snapshot of another commit between them. -/
theorem snapshots_of_visits (hplace : w₀.disk.at? (s.place w₀.disk) = none)
    (ht : s.Trace w₀ events w) :
    ∃ l w', s.snapshots w = (.ok l, w') ∧
      l.Sublist ((History.scans events).map Scanned.snapshot) ∧
      ∀ a b, [a, b].Sublist l → a.commit = b.commit →
        a.commit = Git.unknown ∨ ∃ c, [a, c, b].Sublist l ∧ c.commit ≠ a.commit := by
  obtain ⟨w', hsnapshots⟩ := ht.exists_snapshots hplace
  refine ⟨_, w', hsnapshots, ?_⟩
  cases hg : History.replay events with
  | none =>
    refine ⟨List.nil_sublist _, fun a b hab => ?_⟩
    cases hab
  | some g =>
    refine ⟨History.snapshots_sublist_of_replay hg, fun a b hab hsame => ?_⟩
    obtain ⟨log, created, hr⟩ := ht.exists_records hplace hg
    by_cases hknown : a.commit = Git.unknown
    · exact .inl hknown
    · exact .inr (History.exists_between hr.changing hab hsame hknown)

/-- Scans at a commit, at another one and at the first one again. -/
def sampleReturn : List History.Event :=
  ["a", "b", "a"].map fun commit => .scan (sampleScan commit.toList .first)

theorem exists_trace_sampleReturn : ∃ w, sampleStore.Trace (sampleWorld none) sampleReturn w := by
  have hclock : (sampleWorld none).utcNow.instant ≤ Moment.first.instant := Int.le_refl _
  obtain ⟨_, w₁, ht₁, hd₁, hnow₁⟩ :=
    (Trace.start (s := sampleStore)).exists_save_sampleAt rfl "a".toList hclock
  obtain ⟨_, w₂, ht₂, hd₂, hnow₂⟩ := ht₁.exists_save_sampleAt hd₁ "b".toList (by rw [hnow₁])
  obtain ⟨_, w₃, ht₃, -, -⟩ := ht₂.exists_save_sampleAt hd₂ "a".toList (by rw [hnow₂])
  exact ⟨w₃, ht₃⟩

theorem snapshots_of_visits_sampleReturn :
    ∃ w l w', sampleStore.Trace (sampleWorld none) sampleReturn w ∧
      sampleStore.snapshots w = (.ok l, w') ∧
      l.map Snapshot.commit = ["a".toList, "b".toList, "a".toList] ∧
      l.Sublist ((History.scans sampleReturn).map Scanned.snapshot) ∧
      ∀ a b, [a, b].Sublist l → a.commit = b.commit →
        a.commit = Git.unknown ∨ ∃ c, [a, c, b].Sublist l ∧ c.commit ≠ a.commit := by
  obtain ⟨w, ht⟩ := exists_trace_sampleReturn
  obtain ⟨l, w', hl, hvisits⟩ := snapshots_of_visits place_sampleWorld ht
  refine ⟨w, l, w', ht, hl, ?_, hvisits⟩
  obtain ⟨w'', hreplay⟩ := ht.exists_snapshots place_sampleWorld
  cases hl.symm.trans hreplay
  decide

/-- A commit that is left and visited again has two snapshots. -/
theorem exists_same_commit_sampleReturn :
    ∃ w l w', sampleStore.Trace (sampleWorld none) sampleReturn w ∧
      sampleStore.snapshots w = (.ok l, w') ∧
      ∃ a b, [a, b].Sublist l ∧ a.commit = b.commit ∧ a.commit ≠ Git.unknown := by
  obtain ⟨w, ht⟩ := exists_trace_sampleReturn
  obtain ⟨w', hreplay⟩ := ht.exists_snapshots place_sampleWorld
  refine ⟨w, _, w', ht, hreplay, (sampleScan "a".toList .first).snapshot,
    (sampleScan "a".toList .first).snapshot, ?_, rfl, by decide⟩
  exact (((List.Sublist.refl _).cons _).cons_cons _ :
    [_, _].Sublist [_, (sampleScan "b".toList .first).snapshot, _])

/-- Starting without a history, after a scan at a commit that git tells, that commit has a snapshot
if and only if no operation since the arrival at it has dropped what was as old as that. -/
theorem exists_snapshot_iff_of_arrival (hplace : w₀.disk.at? (s.place w₀.disk) = none)
    (ht : s.Trace w₀ (events ++ [.scan r]) w) (hknown : r.git.currentCommit ≠ Git.unknown) :
    ∃ l w' before r₀ after, s.snapshots w = (.ok l, w') ∧
      events ++ [.scan r] = before ++ .scan r₀ :: after ∧ History.IsArrival before r₀ after ∧
      r₀.git.currentCommit = r.git.currentCommit ∧
      ((∃ t ∈ l, t.commit = r.git.currentCommit) ↔
        ∀ now days, .cleanup now days ∈ after →
          History.cutoff now days < r₀.time.instant) := by
  have hlast : (History.scans (events ++ [.scan r])).getLast? = some r := by
    rw [History.scans_append]
    exact List.getLast?_concat ..
  obtain ⟨before, r₀, after, hsplit, ha, hcommit⟩ := History.exists_arrival hlast
  obtain ⟨w', hsnapshots⟩ := ht.exists_snapshots hplace
  have htime := ht.inTime hplace
  rw [hsplit] at htime hsnapshots
  obtain ⟨g, hg, hiff⟩ := History.exists_snapshot_iff ha (by rwa [hcommit]) htime
  rw [hg] at hsnapshots
  refine ⟨g.snapshots, w', before, r₀, after, hsnapshots, hsplit, ha, hcommit, ?_⟩
  rw [← hcommit, hiff]
  constructor
  · exact fun hall now days he => of_decide_eq_true (hall _ he)
  · intro hall e he
    cases e with
    | scan q => rfl
    | cleanup now days => exact decide_eq_true (hall now days he)

/-- Two days with thirty-one days between them. -/
def sampleJanuary : Moment := ⟨2024, 1, 1, 0, 0, 0, 0, none, by decide⟩
def sampleFebruary : Moment := ⟨2024, 2, 1, 0, 0, 0, 0, none, by decide⟩

/-- Two scans at a commit, between which snapshots older than a number of days are dropped. -/
def sampleVisit (days : Int) : List History.Event :=
  [.scan (sampleScan "a".toList sampleJanuary), .cleanup sampleFebruary days] ++
    [.scan (sampleScan "a".toList sampleFebruary)]

theorem exists_trace_sampleVisit (days : Int) (hdays : 0 ≤ days ∧ days ≤ 365) :
    ∃ w, sampleStore.Trace (sampleWorld none) (sampleVisit days) w := by
  have hfirst : (sampleWorld none).utcNow.instant ≤ sampleJanuary.instant := by decide
  have hday : sampleFebruary.dayNumber = 738917 := by decide
  have hreach : sampleFebruary.Reaches days := by
    rw [Moment.Reaches, hday, Calendar.lastDay]
    omega
  obtain ⟨_, w₁, ht₁, hd₁, hnow₁⟩ :=
    (Trace.start (s := sampleStore)).exists_save_sampleAt rfl "a".toList hfirst
  have hmonth : w₁.utcNow.instant ≤ sampleFebruary.instant := by
    rw [hnow₁]
    decide
  obtain ⟨w₂, ht₂, ⟨_, hd₂⟩, hnow₂⟩ := ht₁.exists_cleanup_sampleAt hd₁ rfl hmonth hreach
  have hlater : w₂.utcNow.instant ≤ sampleFebruary.instant := by rw [hnow₂]
  obtain ⟨_, w₃, ht₃, -, -⟩ := ht₂.exists_save_sampleAt hd₂ "a".toList hlater
  exact ⟨w₃, ht₃⟩

theorem exists_snapshot_iff_of_arrival_sampleVisit :
    ∃ w l w' before r₀ after, sampleStore.Trace (sampleWorld none) (sampleVisit 32) w ∧
      l.map Snapshot.commit = ["a".toList] ∧ sampleStore.snapshots w = (.ok l, w') ∧
      sampleVisit 32 = before ++ .scan r₀ :: after ∧ History.IsArrival before r₀ after ∧
      r₀.git.currentCommit = "a".toList ∧
      ((∃ t ∈ l, t.commit = "a".toList) ↔
        ∀ now days, .cleanup now days ∈ after →
          History.cutoff now days < r₀.time.instant) := by
  obtain ⟨w, ht⟩ := exists_trace_sampleVisit 32 (by decide)
  obtain ⟨l, w', before, r₀, after, hl, harrival⟩ :=
    exists_snapshot_iff_of_arrival place_sampleWorld ht (by decide)
  refine ⟨w, l, w', before, r₀, after, ht, ?_, hl, harrival⟩
  obtain ⟨w'', hreplay⟩ := ht.exists_snapshots place_sampleWorld
  cases hl.symm.trans hreplay
  decide

/-- Dropping what is older than thirty days leaves no snapshot of the commit, and the scan after that
adds none. -/
theorem snapshots_eq_nil_sampleVisit :
    ∃ w w', sampleStore.Trace (sampleWorld none) (sampleVisit 30) w ∧
      (sampleScan "a".toList sampleFebruary).git.currentCommit ≠ Git.unknown ∧
      sampleStore.snapshots w = (.ok [], w') := by
  obtain ⟨w, ht⟩ := exists_trace_sampleVisit 30 (by decide)
  obtain ⟨w', hreplay⟩ := ht.exists_snapshots place_sampleWorld
  refine ⟨w, w', ht, by decide, ?_⟩
  have hnone : ((History.replay (sampleVisit 30)).map History.snapshots).getD [] = [] := by decide
  rwa [hnone] at hreplay

end HistoryStore
end MarkerBoard
