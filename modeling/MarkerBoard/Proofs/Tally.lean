import Mathlib
import MarkerBoard.Proofs.Keyed

/-!
# Counts and groups

Counting goes through a list once and sets one count for each element, and grouping does the same
with lists. So what is under a key in the end is told by the elements with that key, and no element
is counted twice.

Main results:

* `Keyed.isFrequency_tally` — a tally tells how often each key occurs, and no more.
* `Keyed.foldl_bump_map`, `Keyed.sum_count` — counting under keys that are given before.
* `Keyed.get?_foldl_push`, `Keyed.keys_foldl_push`, `Keyed.flatMap_foldl_push_perm` — the groups,
  their order, and that nothing is in none of them or in two.
-/
namespace MarkerBoard.Keyed

variable {α : Type} {m m' : Keyed α} {k : Text} {v : α}

theorem get?_isSome_iff : (get? k m).isSome ↔ k ∈ keys m := by
  induction m with
  | nil => simp [get?, keys]
  | cons e m ih =>
    rw [get?, keys, List.map_cons, List.mem_cons, ← keys, ← ih]
    split
    · next h => simp [h]
    · next h => simp [Ne.symm h]

/-- With different keys, a look-up finds each entry. -/
theorem get?_eq_some_iff (h : (keys m).Nodup) : get? k m = some v ↔ (k, v) ∈ m := by
  refine ⟨mem_of_get?, fun hmem => ?_⟩
  induction m with
  | nil => exact absurd hmem List.not_mem_nil
  | cons e m ih =>
    obtain ⟨hnot, hm⟩ := List.nodup_cons.1 h
    rw [get?]
    -- an entry further down is not hidden by the first one, which has another key
    rcases List.mem_cons.1 hmem with rfl | hmem
    · rw [if_pos rfl]
    · have hne : e.1 ≠ k := by
        rintro rfl
        exact hnot (List.mem_map.2 ⟨_, hmem, rfl⟩)
      rw [if_neg hne, ih hm hmem]

/-- Settings of different keys are kept as they are. -/
theorem ofList_eq_self (h : (keys m).Nodup) : ofList m = m := by
  -- the entries before have been set already, and none of them has the next key
  have hfold : ∀ (m front : Keyed α), (keys (front ++ m)).Nodup →
      m.foldl (fun m e => put e.1 e.2 m) front = front ++ m := by
    intro m
    induction m with
    | nil => exact fun front _ => (List.append_nil front).symm
    | cons e m ih =>
      intro front hnodup
      rw [keys, List.map_append, List.map_cons, List.nodup_append] at hnodup
      have hnew : e.1 ∉ front.map Prod.fst := fun he =>
        hnodup.2.2 _ he _ List.mem_cons_self rfl
      rw [List.foldl_cons, put_of_not_mem hnew, ih _ ?_, List.append_assoc]
      · rfl
      · rw [List.append_assoc, keys, List.map_append, List.nodup_append]
        exact hnodup
  exact hfold m [] h

/-! ## Counts -/

section Counts

variable {m m' : Keyed Int} {ks ids : List Text}

/-- All counts together. -/
def total (m : Keyed Int) : Int := (m.map Prod.snd).sum

theorem total_put (k : Text) (n : Int) (m : Keyed Int) :
    total (put k n m) = total m - (get? k m).getD 0 + n := by
  induction m with
  | nil => simp [put, get?, total]
  | cons e m ih =>
    simp only [total] at ih
    simp only [total, put, get?]
    split
    · simp only [List.map_cons, List.sum_cons, Option.getD_some]
      omega
    · simp only [List.map_cons, List.sum_cons, ih]
      omega

/-- One more is counted. -/
theorem total_bump (k : Text) (m : Keyed Int) : total (bump k m) = total m + 1 := by
  rw [bump, total_put]
  omega

/-- What is known after counting a list: there is one count for each text that is in it, and for no
other, and together they count the whole list. -/
structure IsFrequency (m : Keyed Int) (ks : List Text) : Prop where
  nodup : m.keys.Nodup
  get?_eq : ∀ k, get? k m = if k ∈ ks then some (ks.count k : Int) else none
  total_eq : m.total = ks.length

theorem IsFrequency.mem_keys_iff (h : IsFrequency m ks) : k ∈ m.keys ↔ k ∈ ks := by
  rw [← get?_isSome_iff, h.get?_eq]
  split <;> simpa

/-- The order of the counts is another matter. -/
theorem IsFrequency.perm (h : IsFrequency m ks) (hperm : m'.Perm m) : IsFrequency m' ks := by
  have hnodup : m'.keys.Nodup := (hperm.map Prod.fst).nodup_iff.2 h.nodup
  refine ⟨hnodup, fun k => ?_, (hperm.map Prod.snd).sum_eq.trans h.total_eq⟩
  rw [← h.get?_eq k]
  ext n
  rw [get?_eq_some_iff hnodup, get?_eq_some_iff h.nodup, hperm.mem_iff]

theorem tally_concat (ks : List Text) (k : Text) : tally (ks ++ [k]) = bump k (tally ks) := by
  rw [tally, List.foldl_append]
  rfl

/-- A tally tells how often each text occurs. -/
theorem isFrequency_tally (ks : List Text) : IsFrequency (tally ks) ks := by
  refine ⟨nodup_tally ks, ?_, ?_⟩
  -- the last element is counted last, so the induction takes it off the end
  · induction ks using List.reverseRecOn with
    | nil => exact fun k => rfl
    | append_singleton ks l ih =>
      intro k
      rw [tally_concat, bump, get?_put, ih l, ih k]
      by_cases hk : l = k
      · subst hk
        by_cases hl : l ∈ ks
        · simp [hl]
        · simp [hl, List.count_eq_zero_of_not_mem hl]
      · simp [hk, Ne.symm hk]
  · induction ks using List.reverseRecOn with
    | nil => rfl
    | append_singleton ks l ih =>
      rw [tally_concat, total_bump, ih, List.length_append]
      rfl

theorem get?_map_of_mem (f : Text → α) (hk : k ∈ ids) :
    get? k (ids.map fun i => (i, f i)) = some (f k) := by
  induction ids with
  | nil => exact absurd hk List.not_mem_nil
  | cons i ids ih =>
    rw [List.map_cons, get?]
    split
    · next h => rw [h]
    · next h => exact ih ((List.mem_cons.1 hk).resolve_left (Ne.symm h))

theorem put_map_of_mem (f : Text → α) (hids : ids.Nodup) (hk : k ∈ ids) :
    put k v (ids.map fun i => (i, f i)) = ids.map fun i => (i, if i = k then v else f i) := by
  induction ids with
  | nil => exact absurd hk List.not_mem_nil
  | cons i ids ih =>
    obtain ⟨hi, hids⟩ := List.nodup_cons.1 hids
    rw [List.map_cons, List.map_cons, put]
    split
    · next h =>
      refine congrArg _ (List.map_congr_left fun j hj => ?_)
      rw [if_neg]
      rintro rfl
      exact hi (h ▸ hj)
    · next h => rw [ih hids ((List.mem_cons.1 hk).resolve_left (Ne.symm h))]

/-- Counting goes on from what was counted before, and the keys stay the same if they are all that
there is to count. -/
theorem foldl_bump_map (hids : ids.Nodup) (hks : ∀ k ∈ ks, k ∈ ids) (f : Text → Int) :
    ks.foldl (fun m k => bump k m) (ids.map fun i => (i, f i)) =
      ids.map fun i => (i, f i + ks.count i) := by
  -- for any counts to begin with, since each step leaves others
  induction ks generalizing f with
  | nil => simp
  | cons k ks ih =>
    obtain ⟨hk, hks⟩ := List.forall_mem_cons.1 hks
    rw [List.foldl_cons, bump, get?_map_of_mem f hk, put_map_of_mem f hids hk, ih hks]
    refine List.map_congr_left fun i _ => ?_
    rw [List.count_cons]
    by_cases hi : i = k
    · subst hi
      simp only [if_true, Option.getD_some, BEq.rfl, Int.natCast_add, Int.natCast_one]
      congr 1
      omega
    · rw [if_neg hi, if_neg (by simpa using Ne.symm hi)]
      rfl

/-- Counting on adds to each count how often its key occurs. -/
theorem getD_get?_foldl_bump (ks : List Text) (k : Text) (m : Keyed Int) :
    (get? k (ks.foldl (fun m k => bump k m) m)).getD 0 = (get? k m).getD 0 + ks.count k := by
  induction ks generalizing m with
  | nil => simp
  | cons l ks ih =>
    rw [List.foldl_cons, ih, bump, get?_put, List.count_cons]
    by_cases hl : l = k
    · subst hl
      simp only [if_true, Option.getD_some, BEq.rfl, Int.natCast_add, Int.natCast_one]
      omega
    · simp [hl]

/-- Counts for all that there is to count add up to its number. -/
theorem sum_count (hids : ids.Nodup) (hks : ∀ k ∈ ks, k ∈ ids) :
    (ids.map fun i => (ks.count i : Int)).sum = ks.length := by
  have hfold : ∀ (ks : List Text) (m : Keyed Int),
      total (ks.foldl (fun m k => bump k m) m) = total m + ks.length := by
    intro ks
    induction ks with
    | nil => exact fun m => (add_zero _).symm
    | cons k ks ih =>
      intro m
      rw [List.foldl_cons, ih, total_bump, List.length_cons]
      omega
  have hstart := hfold ks (ids.map fun i => (i, 0))
  rw [foldl_bump_map hids hks fun _ => 0, total, total, List.map_map, List.map_map] at hstart
  simpa [Function.comp_def] using hstart

end Counts

/-! ## Groups -/

section Groups

variable (key : α → Text) (as : List α)

/-- What is under a key are the elements with that key, in their order. -/
theorem get?_foldl_push (k : Text) : get? k (as.foldl (fun m a => push (key a) a m) []) =
    if k ∈ as.map key then some (as.filter fun a => key a = k) else none := by
  induction as using List.reverseRecOn with
  | nil => rfl
  | append_singleton as a ih =>
    rw [List.foldl_append, List.foldl_cons, List.foldl_nil, push, get?_put]
    by_cases hk : key a = k
    · subst hk
      rw [ih]
      by_cases hmem : key a ∈ as.map key
      -- the group is there, or the element is its first one
      · rw [if_pos rfl, if_pos hmem, if_pos (by simp)]
        simp
      · have hnone : as.filter (fun b => decide (key b = key a)) = [] := by
          rw [List.filter_eq_nil_iff]
          intro b hb
          have hne : key b ≠ key a := fun h => hmem (h ▸ List.mem_map_of_mem hb)
          simpa using hne
        rw [if_pos rfl, if_neg hmem, if_pos (by simp), List.filter_append, hnone]
        simp
    · rw [if_neg hk, ih]
      simp [hk, Ne.symm hk]

theorem flatMap_push_perm (k : Text) (a : α) (m : Keyed (List α)) :
    ((push k a m).flatMap Prod.snd).Perm (m.flatMap Prod.snd ++ [a]) := by
  rw [push]
  induction m with
  | nil => simp [put, get?]
  | cons e m ih =>
    rw [get?, put]
    split
    -- the element comes behind its group instead of behind all
    · rw [List.flatMap_cons, List.flatMap_cons, Option.getD_some, List.append_assoc,
        List.append_assoc]
      exact List.perm_append_comm.append_left _
    · rw [List.flatMap_cons, List.flatMap_cons, List.append_assoc]
      exact ih.append_left _

/-- The groups together are all elements. -/
theorem flatMap_foldl_push_perm :
    ((as.foldl (fun m a => push (key a) a m) []).flatMap Prod.snd).Perm as := by
  induction as using List.reverseRecOn with
  | nil => exact .refl _
  | append_singleton as a ih =>
    rw [List.foldl_append]
    exact (flatMap_push_perm _ _ _).trans (ih.append_right _)

/-- The groups come in the order in which their keys first occur. -/
theorem keys_foldl_push :
    keys (as.foldl (fun m a => push (key a) a m) []) = keys (tally (as.map key)) := by
  induction as using List.reverseRecOn with
  | nil => rfl
  | append_singleton as a ih =>
    rw [List.foldl_append, List.foldl_cons, List.foldl_nil, push, List.map_append,
      List.map_singleton, tally_concat, bump]
    simp only [keys] at ih ⊢
    rw [map_fst_put, map_fst_put, ih]

end Groups

end MarkerBoard.Keyed
