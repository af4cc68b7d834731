import MarkerBoard.Proofs.History.Held
import MarkerBoard.Proofs.History.Queries
import MarkerBoard.Proofs.Tally

/-!
# Changes as a patch

What has changed between two snapshots is told hash by hash. A hash may be that of several tasks:
then the last of them counts, at the place of the first. So the changes lead from the old statuses
to the new ones, they name each hash once, and only where the status is not the same before and
after.

All this is said of two lists of tasks first, whatever they are.

Main results:

* `Changes.isDiff_between` — which tasks the changes name, and in which order.
* `Changes.IsDiff.get?_applyTo`, `Changes.IsDiff.mem_hashes_iff` — they are a patch, and a minimal
  one.
* `HistoryStore.diff_of_load` — the same of the last two snapshots of a history.
-/
namespace MarkerBoard

namespace Task

/-- The task that counts for a hash: the last one that has it. -/
def lastWith? (ts : List Task) (hash : Text) : Option Task :=
  (ts.filter fun t => t.hash = hash).getLast?

/-- The hashes of tasks, in the order in which they first occur. -/
def hashes (ts : List Task) : List Text := (ts.map Task.hash).eraseDups

variable {ts : List Task} {t : Task} {k : Text}

theorem hash_of_lastWith? (h : lastWith? ts k = some t) : t.hash = k := by
  have hmem : t ∈ ts.filter fun t => t.hash = k := List.mem_of_getLast? h
  simpa using (List.mem_filter.1 hmem).2

/-- A task counts for its own hash or for none. -/
theorem lastWith?_hash (h : lastWith? ts k = some t) : lastWith? ts t.hash = some t := by
  rw [hash_of_lastWith? h]
  exact h

end Task

namespace Changes

open MarkerBoard.Task (lastWith? hash_of_lastWith? lastWith?_hash)

/-- The statuses of tasks under their hashes. -/
def statuses (ts : List Task) : Keyed Text := Keyed.mapValues Task.status (byHash ts)

/-- A change of status, told by the hash. -/
def entry (m : StatusChange) : Text × Text × Text := (m.task.hash, m.oldStatus, m.newStatus)

/-- All hashes that the changes name. -/
def hashes (c : Changes) : List Text :=
  c.removed.map Task.hash ++ c.moved.map (·.task.hash) ++ c.added.map Task.hash

/-- Applies the changes to statuses under hashes: first what is gone, then what has moved, then what
is new. -/
def applyTo (c : Changes) (m : Keyed Text) : Keyed Text :=
  let kept := (c.removed.map Task.hash).foldl (fun m key => Keyed.erase key m) m
  let moved := (c.moved.map fun x => (x.task.hash, x.newStatus)).foldl
    (fun m e => Keyed.put e.1 e.2 m) kept
  (c.added.map fun t => (t.hash, t.status)).foldl (fun m e => Keyed.put e.1 e.2 m) moved

/-- The changes tell what is different between old and new tasks, in the order of the tasks. -/
structure IsDiff (c : Changes) (old new : List Task) : Prop where
  mem_added : ∀ t, t ∈ c.added ↔ lastWith? new t.hash = some t ∧ lastWith? old t.hash = none
  mem_removed : ∀ t, t ∈ c.removed ↔ lastWith? old t.hash = some t ∧ lastWith? new t.hash = none
  mem_moved : ∀ m, m ∈ c.moved ↔ lastWith? new m.task.hash = some m.task ∧
    (lastWith? old m.task.hash).map Task.status = some m.oldStatus ∧
    m.newStatus = m.task.status ∧ m.oldStatus ≠ m.newStatus
  added_inOrder : (c.added.map Task.hash).Sublist (Task.hashes new)
  removed_inOrder : (c.removed.map Task.hash).Sublist (Task.hashes old)
  moved_inOrder : (c.moved.map (·.task.hash)).Sublist (Task.hashes new)

variable {c : Changes} {old new ts us : List Task} {t : Task} {k : Text}

/-! ## Tasks under their hashes -/

theorem get?_byHash (ts : List Task) (k : Text) : Keyed.get? k (byHash ts) = lastWith? ts k := by
  rw [byHash, Keyed.get?_ofList_map]
  exact Option.map_id_apply

theorem keys_byHash (ts : List Task) : (byHash ts).keys = Task.hashes ts := by
  rw [byHash, Keyed.keys_ofList_map]
  rfl

/-- Every task is kept under its own hash if no two have the same. -/
theorem byHash_eq_iff {ts : List Task} :
    byHash ts = ts.map (fun t => (t.hash, t)) ↔ (ts.map Task.hash).Nodup := by
  have hkeys : Keyed.keys (ts.map fun t => (t.hash, t)) = ts.map Task.hash := by
    rw [Keyed.keys, List.map_map]
    rfl
  constructor
  · intro heq
    rw [← hkeys, ← heq]
    exact Keyed.nodup_keys_ofList _
  · intro hnodup
    exact Keyed.ofList_eq_self (hkeys ▸ hnodup)

theorem nodup_hashes (ts : List Task) : (Task.hashes ts).Nodup := by
  rw [← keys_byHash]
  exact Keyed.nodup_keys_ofList _

theorem mem_byHash_iff : (k, t) ∈ byHash ts ↔ lastWith? ts k = some t := by
  have hkeys : (byHash ts).keys.Nodup := Keyed.nodup_keys_ofList _
  rw [← get?_byHash, Keyed.get?_eq_some_iff hkeys]

theorem map_hash_byHash (ts : List Task) : (byHash ts).map (·.2.hash) = Task.hashes ts := by
  rw [← keys_byHash]
  refine List.map_congr_left fun e he => ?_
  exact hash_of_lastWith? (mem_byHash_iff.1 he)

theorem get?_statuses (ts : List Task) (k : Text) :
    Keyed.get? k (statuses ts) = (lastWith? ts k).map Task.status := by
  rw [statuses, Keyed.get?_mapValues, get?_byHash]

/-! ## What is different -/

theorem mem_missingFrom_iff : t ∈ missingFrom (byHash ts) (byHash us) ↔
    lastWith? ts t.hash = some t ∧ lastWith? us t.hash = none := by
  rw [missingFrom, List.mem_map]
  constructor
  · rintro ⟨⟨k, t'⟩, he, rfl⟩
    obtain ⟨hmem, hmissing⟩ := List.mem_filter.1 he
    have hlast := mem_byHash_iff.1 hmem
    rw [get?_byHash, Option.isNone_iff_eq_none] at hmissing
    refine ⟨lastWith?_hash hlast, ?_⟩
    rwa [hash_of_lastWith? hlast]
  · rintro ⟨hlast, hmissing⟩
    refine ⟨(t.hash, t), List.mem_filter.2 ⟨mem_byHash_iff.2 hlast, ?_⟩, rfl⟩
    rw [get?_byHash, hmissing]
    rfl

theorem missingFrom_inOrder (ts us : List Task) :
    ((missingFrom (byHash ts) (byHash us)).map Task.hash).Sublist (Task.hashes ts) := by
  rw [missingFrom, List.map_map, ← map_hash_byHash]
  exact List.filter_sublist.map _

/-- A task has moved if it was there before with another status. -/
theorem statusChange?_eq_some_iff {m : StatusChange} :
    statusChange? (byHash old) t = some m ↔ m.task = t ∧
      (lastWith? old t.hash).map Task.status = some m.oldStatus ∧
      m.newStatus = t.status ∧ m.oldStatus ≠ m.newStatus := by
  rw [statusChange?, get?_byHash]
  cases lastWith? old t.hash with
  | none => simp
  | some o =>
    rw [Option.bind_some, Option.map_some]
    constructor
    · intro h
      split at h
      · cases h
      · next hne =>
        cases h
        exact ⟨rfl, rfl, rfl, hne⟩
    · rintro ⟨htask, hold, hnew, hne⟩
      obtain ⟨task, oldStatus, newStatus⟩ := m
      dsimp only at htask hold hnew hne
      subst htask hnew
      cases hold
      exact if_neg hne

theorem mem_moves_iff {m : StatusChange} :
    m ∈ ((byHash new).map Prod.snd).filterMap (statusChange? (byHash old)) ↔
      lastWith? new m.task.hash = some m.task ∧
      (lastWith? old m.task.hash).map Task.status = some m.oldStatus ∧
      m.newStatus = m.task.status ∧ m.oldStatus ≠ m.newStatus := by
  rw [List.mem_filterMap]
  constructor
  · rintro ⟨t, ht, hm⟩
    obtain ⟨⟨k, t'⟩, he, rfl⟩ := List.mem_map.1 ht
    obtain ⟨htask, hrest⟩ := statusChange?_eq_some_iff.1 hm
    rw [htask]
    exact ⟨lastWith?_hash (mem_byHash_iff.1 he), hrest⟩
  · rintro ⟨hlast, hrest⟩
    exact ⟨m.task, List.mem_map.2 ⟨_, mem_byHash_iff.2 hlast, rfl⟩,
      statusChange?_eq_some_iff.2 ⟨rfl, hrest⟩⟩

theorem moves_inOrder (old new : List Task) :
    ((((byHash new).map Prod.snd).filterMap (statusChange? (byHash old))).map
      (·.task.hash)).Sublist (Task.hashes new) := by
  have hsub : ∀ ts : List Task, ((ts.filterMap (statusChange? (byHash old))).map
      (·.task.hash)).Sublist (ts.map Task.hash) := by
    intro ts
    induction ts with
    | nil => exact .slnil
    | cons t ts ih =>
      rw [List.filterMap_cons]
      split
      · exact ih.cons _
      · next m hm =>
        -- the change is one of the task itself
        rw [List.map_cons, List.map_cons, (statusChange?_eq_some_iff.1 hm).1]
        exact ih.cons_cons _
  have hhashes := hsub ((byHash new).map Prod.snd)
  rwa [List.map_map, show Task.hash ∘ Prod.snd = fun e : Text × Task => e.2.hash from rfl,
    map_hash_byHash] at hhashes

/-- What the changes between old and new tasks are. -/
theorem isDiff_between (old new : List Task) : (between old new).IsDiff old new where
  mem_added _ := mem_missingFrom_iff
  mem_removed _ := mem_missingFrom_iff
  mem_moved _ := mem_moves_iff
  added_inOrder := missingFrom_inOrder new old
  removed_inOrder := missingFrom_inOrder old new
  moved_inOrder := moves_inOrder old new

/-! ## The changes as a patch -/

namespace IsDiff

/-- The hashes of tasks that count in one list and have no counterpart in another. -/
theorem mem_hashes_of_missing {l ts us : List Task}
    (h : ∀ t, t ∈ l ↔ lastWith? ts t.hash = some t ∧ lastWith? us t.hash = none) :
    k ∈ l.map Task.hash ↔ lastWith? us k = none ∧ ∃ t, lastWith? ts k = some t := by
  rw [List.mem_map]
  constructor
  · rintro ⟨t, ht, rfl⟩
    obtain ⟨hlast, hmissing⟩ := (h t).1 ht
    exact ⟨hmissing, t, hlast⟩
  · rintro ⟨hmissing, t, hlast⟩
    refine ⟨t, (h t).2 ⟨lastWith?_hash hlast, ?_⟩, hash_of_lastWith? hlast⟩
    rwa [hash_of_lastWith? hlast]

theorem mem_added_hash_iff (h : c.IsDiff old new) : k ∈ c.added.map Task.hash ↔
    lastWith? old k = none ∧ ∃ t, lastWith? new k = some t :=
  mem_hashes_of_missing h.mem_added

theorem mem_removed_hash_iff (h : c.IsDiff old new) : k ∈ c.removed.map Task.hash ↔
    lastWith? new k = none ∧ ∃ t, lastWith? old k = some t :=
  mem_hashes_of_missing h.mem_removed

/-- What has moved, told by hashes and statuses alone. -/
theorem mem_entries_iff (h : c.IsDiff old new) {a b : Text} :
    (k, a, b) ∈ c.moved.map entry ↔ ∃ o t, lastWith? old k = some o ∧ lastWith? new k = some t ∧
      o.status = a ∧ t.status = b ∧ a ≠ b := by
  rw [List.mem_map]
  constructor
  · rintro ⟨m, hm, hentry⟩
    cases hentry
    obtain ⟨hnew, hold, hstatus, hne⟩ := (h.mem_moved m).1 hm
    obtain ⟨o, ho, hostatus⟩ := Option.map_eq_some_iff.1 hold
    exact ⟨o, m.task, ho, hnew, hostatus, hstatus.symm, hne⟩
  · rintro ⟨o, t, hold, hnew, rfl, rfl, hne⟩
    have hhash := hash_of_lastWith? hnew
    refine ⟨⟨t, o.status, t.status⟩, (h.mem_moved _).2 ⟨lastWith?_hash hnew, ?_, rfl, hne⟩, ?_⟩
    · show (lastWith? old t.hash).map Task.status = some o.status
      rw [hhash, hold]
      rfl
    · rw [entry, hhash]

theorem mem_moved_hash_iff (h : c.IsDiff old new) : k ∈ c.moved.map (·.task.hash) ↔
    ∃ o t, lastWith? old k = some o ∧ lastWith? new k = some t ∧ o.status ≠ t.status := by
  have hentries : c.moved.map (·.task.hash) = (c.moved.map entry).map Prod.fst := by
    rw [List.map_map]
    rfl
  rw [hentries, List.mem_map]
  constructor
  · rintro ⟨⟨k', a, b⟩, he, rfl⟩
    obtain ⟨o, t, hold, hnew, rfl, rfl, hne⟩ := h.mem_entries_iff.1 he
    exact ⟨o, t, hold, hnew, hne⟩
  · rintro ⟨o, t, hold, hnew, hne⟩
    exact ⟨(k, o.status, t.status), h.mem_entries_iff.2 ⟨o, t, hold, hnew, rfl, rfl, hne⟩, rfl⟩

theorem nodup_added (h : c.IsDiff old new) : (c.added.map Task.hash).Nodup :=
  (Changes.nodup_hashes new).sublist h.added_inOrder

theorem nodup_removed (h : c.IsDiff old new) : (c.removed.map Task.hash).Nodup :=
  (Changes.nodup_hashes old).sublist h.removed_inOrder

theorem nodup_moved (h : c.IsDiff old new) : (c.moved.map (·.task.hash)).Nodup :=
  (Changes.nodup_hashes new).sublist h.moved_inOrder

/-- No hash is named twice. -/
theorem nodup_hashes (h : c.IsDiff old new) : c.hashes.Nodup := by
  unfold hashes
  rw [List.nodup_append, List.nodup_append]
  refine ⟨⟨h.nodup_removed, h.nodup_moved, ?_⟩, h.nodup_added, ?_⟩
  · -- what is gone has no new task, and what has moved has one
    rintro k hk l hl rfl
    obtain ⟨hgone, -⟩ := h.mem_removed_hash_iff.1 hk
    obtain ⟨-, t, -, hnew, -⟩ := h.mem_moved_hash_iff.1 hl
    rw [hgone] at hnew
    cases hnew
  · -- what is new has no old task, and all else has one
    rintro k hk l hl rfl
    obtain ⟨hnone, -⟩ := h.mem_added_hash_iff.1 hl
    rcases List.mem_append.1 hk with hk | hk
    · obtain ⟨-, o, hold⟩ := h.mem_removed_hash_iff.1 hk
      rw [hnone] at hold
      cases hold
    · obtain ⟨o, -, hold, -⟩ := h.mem_moved_hash_iff.1 hk
      rw [hnone] at hold
      cases hold

/-- The hashes that are named are those whose status is not the same before and after. -/
theorem mem_hashes_iff (h : c.IsDiff old new) (k : Text) :
    k ∈ c.hashes ↔ Keyed.get? k (statuses old) ≠ Keyed.get? k (statuses new) := by
  unfold hashes
  rw [List.mem_append, List.mem_append, h.mem_removed_hash_iff, h.mem_moved_hash_iff,
    h.mem_added_hash_iff, get?_statuses, get?_statuses]
  cases lastWith? old k with
  | none =>
    cases lastWith? new k with
    | none => simp
    | some t => simp
  | some o =>
    cases lastWith? new k with
    | none => simp
    | some t => simp

/-- Applied to the old statuses, the changes give the new ones. -/
theorem get?_applyTo (h : c.IsDiff old new) (k : Text) :
    Keyed.get? k (c.applyTo (statuses old)) = Keyed.get? k (statuses new) := by
  have haddedKeys : (c.added.map fun t => (t.hash, t.status)).map Prod.fst =
      c.added.map Task.hash := List.map_map
  have hmovedKeys : (c.moved.map fun x => (x.task.hash, x.newStatus)).map Prod.fst =
      c.moved.map (·.task.hash) := List.map_map
  unfold applyTo
  dsimp only
  rw [get?_statuses new]
  by_cases hadded : k ∈ c.added.map Task.hash
  · -- the last step sets what is new
    obtain ⟨t, ht, rfl⟩ := List.mem_map.1 hadded
    have hkeys := h.nodup_added
    rw [← haddedKeys] at hkeys
    rw [Keyed.get?_foldl_put_of_mem hkeys (List.mem_map.2 ⟨t, ht, rfl⟩), ((h.mem_added t).1 ht).1]
    rfl
  rw [Keyed.get?_foldl_put_of_not_mem (by rwa [haddedKeys])]
  by_cases hmoved : k ∈ c.moved.map (·.task.hash)
  · -- the step before sets what has moved
    obtain ⟨m, hm, rfl⟩ := List.mem_map.1 hmoved
    obtain ⟨hnew, -, hstatus, -⟩ := (h.mem_moved m).1 hm
    have hkeys := h.nodup_moved
    rw [← hmovedKeys] at hkeys
    rw [Keyed.get?_foldl_put_of_mem hkeys (List.mem_map.2 ⟨m, hm, rfl⟩), hnew, hstatus]
    rfl
  rw [Keyed.get?_foldl_put_of_not_mem (by rwa [hmovedKeys]), Keyed.get?_foldl_erase]
  split
  · next hremoved =>
    -- the first step takes away what is gone
    rw [(h.mem_removed_hash_iff.1 hremoved).1]
    rfl
  · next hremoved =>
    -- what no step names has the same status before and after, or none
    have hunnamed : k ∉ c.hashes := by
      unfold hashes
      rw [List.mem_append, List.mem_append]
      exact fun hk => hk.elim (fun hk => hk.elim hremoved hmoved) hadded
    rw [← get?_statuses]
    exact not_ne_iff.1 (mt (h.mem_hashes_iff k).2 hunnamed)

end IsDiff

/-- Between the same tasks the other way round, what was new is gone, what was gone is new, and what
has moved has moved back. -/
theorem between_swap (old new : List Task) :
    (between new old).added = (between old new).removed ∧
      (between new old).removed = (between old new).added ∧
      ∀ k a b, (k, a, b) ∈ (between new old).moved.map entry ↔
        (k, b, a) ∈ (between old new).moved.map entry := by
  refine ⟨rfl, rfl, fun k a b => ?_⟩
  rw [(isDiff_between new old).mem_entries_iff, (isDiff_between old new).mem_entries_iff]
  constructor
  · rintro ⟨o, t, hold, hnew, ha, hb, hne⟩
    exact ⟨t, o, hnew, hold, hb, ha, Ne.symm hne⟩
  · rintro ⟨o, t, hold, hnew, ha, hb, hne⟩
    exact ⟨t, o, hnew, hold, hb, ha, Ne.symm hne⟩

end Changes

namespace HistoryStore

open Changes (statuses entry)

variable {store : HistoryStore} {w : World} {h : History} {rest : List Snapshot}
  {previous current : Snapshot}

/-- The changes between the last two snapshots of a history are a patch from the statuses of the
older one to those of the newer one, and a minimal one. In a history with the two exchanged, they
are the changes back. -/
theorem diff_of_load (hload : store.load w = (.ok (some h), w))
    (htwo : h.snapshots = rest ++ [previous, current]) :
    ∃ c, store.changes w = (.ok c, w) ∧
      c.IsDiff previous.stats.tasks current.stats.tasks ∧
      c.hashes.Nodup ∧
      (∀ k, Keyed.get? k (c.applyTo (statuses previous.stats.tasks)) =
        Keyed.get? k (statuses current.stats.tasks)) ∧
      (∀ k, k ∈ c.hashes ↔ Keyed.get? k (statuses previous.stats.tasks) ≠
        Keyed.get? k (statuses current.stats.tasks)) ∧
      ∀ (s' : HistoryStore) (w' : World) (h' : History) (rest' : List Snapshot),
        s'.load w' = (.ok (some h'), w') → h'.snapshots = rest' ++ [current, previous] →
        ∃ c', s'.changes w' = (.ok c', w') ∧ c'.added = c.removed ∧ c'.removed = c.added ∧
          ∀ k a b, (k, a, b) ∈ c'.moved.map entry ↔ (k, b, a) ∈ c.moved.map entry := by
  have hdiff := Changes.isDiff_between previous.stats.tasks current.stats.tasks
  refine ⟨_, changes_of_load hload htwo, hdiff, hdiff.nodup_hashes, hdiff.get?_applyTo,
    hdiff.mem_hashes_iff, ?_⟩
  intro s' w' h' rest' hload' htwo'
  exact ⟨_, changes_of_load hload' htwo', Changes.between_swap _ _⟩

/-- Tasks with one hash twice, before and after. -/
def sampleRepeated : List (Moment × List Task) :=
  [(.first, [sampleTaskAt "a" "todo" false, sampleTaskAt "b" "todo" false,
      sampleTaskAt "a" "doing" false]),
    (.first, [sampleTaskAt "b" "done" true, sampleTaskAt "c" "todo" false,
      sampleTaskAt "b" "doing" false])]

/-- Of the tasks of one hash, only the last ones are compared. -/
theorem diff_of_load_sampleRepeated :
    ∃ c, sampleStore.changes (sampleSeriesWorld sampleRepeated) =
        (.ok c, sampleSeriesWorld sampleRepeated) ∧
      c.added = [sampleTaskAt "c" "todo" false] ∧ c.removed = [sampleTaskAt "a" "doing" false] ∧
      c.moved.map entry = [(['b'], "todo".toList, "doing".toList)] ∧ c.hashes.Nodup := by
  have htwo : (sampleSeries sampleRepeated).snapshots = [] ++
      [sampleSnapshot .first [sampleTaskAt "a" "todo" false, sampleTaskAt "b" "todo" false,
        sampleTaskAt "a" "doing" false],
      sampleSnapshot .first [sampleTaskAt "b" "done" true, sampleTaskAt "c" "todo" false,
        sampleTaskAt "b" "doing" false]] := rfl
  obtain ⟨c, hchanges, -, hnodup, -⟩ := diff_of_load (load_sampleSeriesWorld sampleRepeated) htwo
  refine ⟨c, hchanges, ?_⟩
  cases (changes_of_load (load_sampleSeriesWorld sampleRepeated) htwo).symm.trans hchanges
  exact ⟨by decide, by decide, by decide, hnodup⟩

end HistoryStore
end MarkerBoard
