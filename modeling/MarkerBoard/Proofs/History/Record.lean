import Mathlib.Data.List.Chain
import MarkerBoard.Proofs.History.Text

/-!
# Histories as records of scans

A history keeps the newest of all snapshots that have been added to it. Scans are recorded in the
order of time, so the snapshots that are too old come first, and dropping them leaves the newest.

Main results:

* `History.Records.record` — what a history records after another scan.
* `History.Records.forget` — what it records after snapshots have been dropped.
* `History.isExact_record` — the history after a scan can be written and read.
-/
namespace MarkerBoard

theorem Git.currentCommit_ne_nil (g : Git) : g.currentCommit ≠ [] := by
  have hsaid : ∀ t ∈ said? g.commit, t ≠ [] := by
    intro t ht
    rw [said?, Option.mem_def, Option.filter_eq_some_iff] at ht
    exact of_decide_eq_true ht.2
  rw [currentCommit]
  cases hs : said? g.commit with
  | none => decide
  | some t => exact hsaid t hs

namespace History

/-! ## Exactness -/

theorem isExact_stats (r : Scanned) : r.stats.IsExact := by
  refine ⟨?_, Keyed.nodup_tally _, Keyed.nodup_tally _⟩
  rw [Scanned.stats, Stats.ofItems.eq_def]
  dsimp only
  split
  · exact ((List.mergeSort_perm _ _).map Prod.fst).nodup_iff.2 (Keyed.nodup_tally _)
  · exact Keyed.nodup_tally _

/-- The snapshots that a scan adds to a history. -/
def added (old : Option History) (r : Scanned) : List Snapshot :=
  if addsSnapshot old r.git.currentCommit then [r.snapshot] else []

theorem newest_suffix (snapshots : List Snapshot) : newest snapshots <:+ snapshots :=
  List.drop_suffix _ _

/-- Whatever is kept after a scan was there before, or has been added. -/
theorem snapshots_record_suffix (old : Option History) (r : Scanned) :
    (record old r).snapshots <:+ (old.map snapshots).getD [] ++ added old r := by
  show snapshotsAfter old r <:+ _
  rw [snapshotsAfter, added]
  split
  · exact newest_suffix _
  · simp only [List.append_nil, List.suffix_refl]

/-- The history after a scan can be written and read. Of the old history only the snapshots
matter. -/
theorem isExact_record {old : Option History}
    (h : ∀ g ∈ old, ∀ s ∈ g.snapshots, s.stats.IsExact) (r : Scanned) :
    (record old r).IsExact := by
  have hstats := isExact_stats r
  refine ⟨hstats.byStatus, hstats.byKeyword, Keyed.nodup_tally _, ?_, ⟨List.nodup_nil, trivial⟩,
    fun e he => absurd he List.not_mem_nil⟩
  intro s hs
  rcases List.mem_append.1 ((snapshots_record_suffix old r).subset hs) with hs | hs
  · cases old with
    | none => exact absurd hs List.not_mem_nil
    | some g => exact h g rfl s hs
  · rw [added] at hs
    split at hs
    · rw [List.mem_singleton.1 hs]
      exact hstats
    · exact absurd hs List.not_mem_nil

theorem IsExact.forget {h : History} (hx : h.IsExact) (cutoff : Int) (now : Moment) :
    (h.forget cutoff now).IsExact :=
  ⟨hx.byStatus, hx.byKeyword, hx.byFile, fun s hs => hx.snapshots s (List.mem_of_mem_filter hs),
    hx.extra, hx.extra_keys⟩

/-! ## Old snapshots -/

/-- How many snapshots are from the cutoff or before. -/
def countOld (h : History) (cutoff : Int) : Nat :=
  h.snapshots.countP fun s => s.time.instant ≤ cutoff

/-- A history is left with the snapshots that are not old. -/
theorem length_forget (h : History) (cutoff : Int) (now : Moment) :
    h.countOld cutoff + (h.forget cutoff now).snapshots.length = h.snapshots.length := by
  rw [h.snapshots.length_eq_countP_add_countP fun s => s.time.instant ≤ cutoff, countOld, forget,
    ← List.countP_eq_length_filter]
  simp only [decide_eq_true_eq, Int.not_le]

/-! ## Records -/

/-- Snapshots in the order of time. -/
def InOrder (log : List Snapshot) : Prop :=
  log.Pairwise fun a b => a.time.instant ≤ b.time.instant

/-- What a history records of all the snapshots that have ever been added, since the time of the
first scan: a number of them that have come last, in their order and as they were. -/
structure Records (h : History) (log : List Snapshot) (created : Moment) : Prop where
  bounded : h.snapshots.length ≤ 50
  suffix : h.snapshots <:+ log
  changing : h.snapshots.IsChain fun a b => a.commit ≠ b.commit ∨ b.commit = Git.unknown
  latest : ∀ s ∈ h.snapshots.getLast?, s.commit = h.commit
  createdAt : h.createdAt = created

theorem length_newest_le (snapshots : List Snapshot) : (newest snapshots).length ≤ 50 := by
  rw [newest, List.length_drop, snapshotLimit]
  omega

theorem getLast?_newest_concat (snapshots : List Snapshot) (s : Snapshot) :
    (newest (snapshots ++ [s])).getLast? = some s := by
  rw [newest, List.drop_append_of_le_length]
  · exact List.getLast?_concat ..
  · rw [List.length_append, List.length_singleton, snapshotLimit]
    omega

/-- The first scan starts a record. -/
theorem records_record_none (r : Scanned) : (record none r).Records (added none r) r.time :=
  ⟨length_newest_le _, snapshots_record_suffix none r, .singleton _,
    fun s hs => by cases hs; rfl, rfl⟩

/-- A scan that adds no snapshot is at the commit of the scan before. -/
theorem commit_eq_of_addsSnapshot {h : History} {commit : Text}
    (hadds : addsSnapshot (some h) commit = false) : h.commit = commit := by
  rw [addsSnapshot] at hadds
  simp only [Bool.or_eq_false_iff, bne_eq_false_iff_eq] at hadds
  exact hadds.1.1

/-- A scan that adds a snapshot is at another commit than the scan before, or git does not tell its
commit. -/
theorem commit_ne_of_addsSnapshot {h : History} {git : Git}
    (hadds : addsSnapshot (some h) git.currentCommit = true) :
    h.commit ≠ git.currentCommit ∨ git.currentCommit = Git.unknown := by
  rw [addsSnapshot] at hadds
  simp only [Bool.or_eq_true, bne_iff_ne, beq_iff_eq] at hadds
  rcases hadds with (hne | hunknown) | hnil
  · exact .inl hne
  · exact .inr hunknown
  · exact absurd hnil git.currentCommit_ne_nil

/-- Another scan adds a snapshot, unless it is at a commit that git tells and that is the one of
the scan before. -/
theorem Records.record {h : History} {log : List Snapshot} {created : Moment}
    (hr : h.Records log created) (r : Scanned) :
    (record (some h) r).Records (log ++ added (some h) r) created := by
  have hsuffix := snapshots_record_suffix (some h) r
  rw [Option.map_some, Option.getD_some] at hsuffix
  obtain ⟨front, hfront⟩ := hr.suffix
  have hlog : (History.record (some h) r).snapshots <:+ log ++ added (some h) r := by
    rw [← hfront, List.append_assoc]
    exact hsuffix.trans (List.suffix_append _ _)
  cases hadds : addsSnapshot (some h) r.git.currentCommit with
  -- without a new snapshot the last one is still at the commit
  | false =>
    have hkept : (History.record (some h) r).snapshots = h.snapshots := by
      show snapshotsAfter (some h) r = _
      rw [snapshotsAfter, hadds]
      rfl
    have hcommit := commit_eq_of_addsSnapshot hadds
    refine ⟨?_, hlog, ?_, ?_, hr.createdAt⟩
    · rw [hkept]
      exact hr.bounded
    · rw [hkept]
      exact hr.changing
    · rw [hkept]
      exact fun s hs => (hr.latest s hs).trans hcommit
  | true =>
    have hnew : (History.record (some h) r).snapshots = newest (h.snapshots ++ [r.snapshot]) := by
      show snapshotsAfter (some h) r = _
      rw [snapshotsAfter, hadds]
      rfl
    -- the snapshot before the new one is at the commit of the scan before
    have hdiffer : ∀ s ∈ h.snapshots.getLast?,
        s.commit ≠ r.git.currentCommit ∨ r.git.currentCommit = Git.unknown := by
      intro s hs
      rw [hr.latest s hs]
      exact commit_ne_of_addsSnapshot hadds
    refine ⟨?_, hlog, ?_, ?_, hr.createdAt⟩
    · rw [hnew]
      exact length_newest_le _
    · rw [hnew]
      refine List.IsChain.suffix ?_ (newest_suffix _)
      refine hr.changing.append (.singleton _) fun s hs t ht => ?_
      cases ht
      exact hdiffer s hs
    · rw [hnew, getLast?_newest_concat]
      intro s hs
      cases hs
      rfl

/-- In the order of time, the snapshots after an instant come last. -/
theorem filter_suffix {log : List Snapshot} (h : InOrder log) (cutoff : Int) :
    log.filter (fun s => decide (cutoff < s.time.instant)) <:+ log := by
  induction log with
  | nil => exact List.suffix_refl _
  | cons s log ih =>
    obtain ⟨hs, hlog⟩ := List.pairwise_cons.1 h
    by_cases hcut : cutoff < s.time.instant
    -- the first one is kept, and so are all after it
    · have hall : (s :: log).filter (fun s => decide (cutoff < s.time.instant)) = s :: log := by
        rw [List.filter_eq_self]
        intro t ht
        rcases List.mem_cons.1 ht with rfl | ht
        · exact decide_eq_true hcut
        · exact decide_eq_true (Int.lt_of_lt_of_le hcut (hs t ht))
      simp only [hall, List.suffix_refl]
    · rw [List.filter_cons_of_neg (by simpa using hcut)]
      exact (ih hlog).trans (List.suffix_cons _ _)

/-- Dropping the old snapshots leaves a record. -/
theorem Records.forget {h : History} {log : List Snapshot} {created : Moment}
    (hr : h.Records log created) (hlog : InOrder log) (cutoff : Int) (now : Moment) :
    (h.forget cutoff now).Records log created := by
  have horder : InOrder h.snapshots := hlog.sublist hr.suffix.sublist
  have hsuffix : (h.forget cutoff now).snapshots <:+ h.snapshots := filter_suffix horder cutoff
  refine ⟨hsuffix.length_le.trans hr.bounded, hsuffix.trans hr.suffix,
    hr.changing.suffix hsuffix, ?_, hr.createdAt⟩
  intro s hs
  obtain ⟨front, hfront⟩ := hsuffix
  refine hr.latest s ?_
  rw [← hfront, List.getLast?_append, hs]
  rfl

end History
end MarkerBoard
