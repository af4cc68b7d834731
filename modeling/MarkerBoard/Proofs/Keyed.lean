import MarkerBoard.Keyed

/-!
# Keyed lists

A look-up finds an entry of the list, and a list that values are set in has each key once.

Main results:

* `Keyed.nodup_put`, `Keyed.nodup_tally` — setting values keeps the keys different.
* `Keyed.get?_ofList`, `Keyed.keys_ofList` — of settings of one key the last one counts, at the
  place of the first.
* `Keyed.get?_foldl_put_of_mem`, `Keyed.get?_foldl_erase` — what is under a key after many changes.
-/
namespace MarkerBoard.Keyed

variable {α : Type}

theorem mem_of_get? {key : Text} {v : α} {m : Keyed α} (h : get? key m = some v) :
    (key, v) ∈ m := by
  induction m with
  | nil => exact absurd h (by simp [get?])
  | cons e m ih =>
    obtain ⟨k, w⟩ := e
    rw [get?] at h
    split at h
    · next hk =>
      rw [← hk, ← Option.some.inj h]
      exact List.mem_cons_self
    · exact List.mem_cons_of_mem _ (ih h)

/-- A new key is put at the end. -/
theorem put_of_not_mem {key : Text} {v : α} {m : Keyed α} (h : key ∉ m.map Prod.fst) :
    put key v m = m ++ [(key, v)] := by
  induction m with
  | nil => rfl
  | cons e m ih =>
    rw [List.map_cons, List.mem_cons, not_or] at h
    rw [put, if_neg (Ne.symm h.1), ih h.2]
    rfl

theorem map_fst_put (key : Text) (v : α) (m : Keyed α) : (put key v m).map Prod.fst =
    if key ∈ m.map Prod.fst then m.map Prod.fst else m.map Prod.fst ++ [key] := by
  split
  · next h =>
    induction m with
    | nil => exact absurd h List.not_mem_nil
    | cons e m ih =>
      rw [put]
      split
      · next hk => rw [List.map_cons, List.map_cons, hk]
      · next hk =>
        rw [List.map_cons, List.map_cons, ih]
        exact (List.mem_cons.1 h).resolve_left (Ne.symm hk)
  · next h => rw [put_of_not_mem h, List.map_append, List.map_cons, List.map_nil]

/-- Keys stay different when a value is set. -/
theorem nodup_put {key : Text} {v : α} {m : Keyed α} (h : (m.map Prod.fst).Nodup) :
    ((put key v m).map Prod.fst).Nodup := by
  rw [map_fst_put]
  split
  · exact h
  · next hk =>
    rw [List.nodup_append]
    refine ⟨h, by simp, fun k hmem l hl hkl => hk ?_⟩
    rwa [← List.mem_singleton.1 hl, ← hkl]

theorem put_ne_nil (key : Text) (v : α) (m : Keyed α) : put key v m ≠ [] := by
  cases m with
  | nil => simp [put]
  | cons e m =>
    rw [put]
    split
    · simp
    · simp

/-! ## Many changes -/

section Changes

variable {k key : Text} {v : α} {m : Keyed α} {pairs : List (Text × α)}

theorem get?_foldl_put_of_not_mem (h : k ∉ pairs.map Prod.fst) :
    get? k (pairs.foldl (fun m e => put e.1 e.2 m) m) = get? k m := by
  induction pairs generalizing m with
  | nil => rfl
  | cons e pairs ih =>
    rw [List.map_cons, List.mem_cons, not_or] at h
    rw [List.foldl_cons, ih h.2, get?_put, if_neg (Ne.symm h.1)]

/-- Each setting lasts if their keys are different. -/
theorem get?_foldl_put_of_mem (hkeys : (pairs.map Prod.fst).Nodup) (h : (k, v) ∈ pairs) :
    get? k (pairs.foldl (fun m e => put e.1 e.2 m) m) = some v := by
  induction pairs generalizing m with
  | nil => exact absurd h List.not_mem_nil
  | cons e pairs ih =>
    obtain ⟨hnot, hkeys⟩ := List.nodup_cons.1 hkeys
    rw [List.foldl_cons]
    rcases List.mem_cons.1 h with rfl | h
    -- no later setting has the key of the first one
    · rw [get?_foldl_put_of_not_mem hnot, get?_put, if_pos rfl]
    · exact ih hkeys h

/-- Of settings of one key the last one counts. -/
theorem get?_ofList (k : Text) (pairs : List (Text × α)) :
    get? k (ofList pairs) = ((pairs.filter fun e => e.1 = k).getLast?).map Prod.snd := by
  -- the induction takes the last setting off the end, where it hides those before it
  rw [← List.reverse_reverse pairs]
  induction pairs.reverse with
  | nil => rfl
  | cons e pairs ih =>
    rw [ofList] at ih
    rw [List.reverse_cons, ofList, List.foldl_append, List.foldl_cons, List.foldl_nil, get?_put, ih,
      List.filter_append]
    by_cases hk : e.1 = k
    · simp [hk]
    · simp [hk]

/-- Of elements that are set under one key the last one counts. -/
theorem get?_ofList_map {β : Type} (key : β → Text) (f : β → α) (k : Text) (bs : List β) :
    get? k (ofList (bs.map fun b => (key b, f b))) =
      ((bs.filter fun b => key b = k).getLast?).map f := by
  rw [get?_ofList, List.filter_map, List.getLast?_map, Option.map_map]
  rfl

/-- The keys of settings come in the order in which they first occur. -/
theorem keys_ofList (pairs : List (Text × α)) :
    keys (ofList pairs) = (pairs.map Prod.fst).eraseDups := by
  rw [← List.reverse_reverse pairs]
  induction pairs.reverse with
  | nil => rfl
  | cons e pairs ih =>
    rw [keys, ofList] at ih
    rw [keys, List.reverse_cons, ofList, List.foldl_append, List.foldl_cons, List.foldl_nil,
      map_fst_put, ih, List.map_append, List.eraseDups_append]
    simp only [List.mem_eraseDups, List.map_cons, List.map_nil]
    -- a key that has occurred is dropped, a new one comes last
    by_cases hk : e.1 ∈ pairs.reverse.map Prod.fst
    · have hdrop : [e.1].removeAll (pairs.reverse.map Prod.fst) = [] := by
        rw [List.removeAll, List.filter_cons_of_neg (by simpa using hk), List.filter_nil]
      rw [if_pos hk, hdrop, List.eraseDups_nil, List.append_nil]
    · have hkeep : [e.1].removeAll (pairs.reverse.map Prod.fst) = [e.1] := by
        rw [List.removeAll, List.filter_cons_of_pos (by simpa using hk), List.filter_nil]
      rw [if_neg hk, hkeep, List.eraseDups_cons, List.filter_nil, List.eraseDups_nil]

theorem keys_ofList_map {β : Type} (key : β → Text) (f : β → α) (bs : List β) :
    keys (ofList (bs.map fun b => (key b, f b))) = (bs.map key).eraseDups := by
  rw [keys_ofList, List.map_map]
  rfl

theorem nodup_keys_ofList (pairs : List (Text × α)) : (keys (ofList pairs)).Nodup := by
  have hfold : ∀ (pairs : List (Text × α)) (m : Keyed α), (keys m).Nodup →
      (keys (pairs.foldl (fun m e => put e.1 e.2 m) m)).Nodup := by
    intro pairs
    induction pairs with
    | nil => exact fun m h => h
    | cons e pairs ih => exact fun m h => ih _ (nodup_put h)
  exact hfold pairs [] List.nodup_nil

theorem get?_erase (k key : Text) (m : Keyed α) :
    get? k (erase key m) = if key = k then none else get? k m := by
  rw [erase]
  induction m with
  | nil => simp [get?]
  | cons e m ih =>
    rw [List.filter_cons]
    by_cases hkey : e.1 = key
    · subst hkey
      by_cases hk : e.1 = k
      · simpa [hk] using ih
      · simpa [get?, hk] using ih
    · rw [if_pos (by simpa using hkey), get?, get?, ih]
      by_cases hk : e.1 = k
      · rw [if_pos hk, if_neg fun h => hkey (hk.trans h.symm), if_pos hk]
      · rw [if_neg hk, if_neg hk]

/-- What is under a key that is not taken away. -/
theorem get?_foldl_erase (k : Text) (gone : List Text) (m : Keyed α) :
    get? k (gone.foldl (fun m key => erase key m) m) = if k ∈ gone then none else get? k m := by
  induction gone generalizing m with
  | nil => simp
  | cons key gone ih =>
    rw [List.foldl_cons, ih, get?_erase]
    by_cases hgone : k ∈ gone
    · simp [hgone]
    · by_cases hk : key = k
      · simp [hk]
      · simp [hgone, hk, Ne.symm hk]

theorem get?_mapValues {β : Type} (f : α → β) (k : Text) (m : Keyed α) :
    get? k (mapValues f m) = (get? k m).map f := by
  rw [mapValues]
  induction m with
  | nil => rfl
  | cons e m ih =>
    rw [List.map_cons, get?, get?]
    split
    · rfl
    · exact ih

end Changes

/-- What is set is never taken away. -/
theorem ofList_eq_nil_iff {pairs : List (Text × α)} : ofList pairs = [] ↔ pairs = [] := by
  have hfold : ∀ (pairs : List (Text × α)) (m : Keyed α), m ≠ [] →
      pairs.foldl (fun m e => put e.1 e.2 m) m ≠ [] := by
    intro pairs
    induction pairs with
    | nil => exact fun m hm => hm
    | cons e pairs ih => exact fun m _ => ih _ (put_ne_nil _ _ _)
  constructor
  · intro h
    cases pairs with
    | nil => rfl
    | cons e pairs => exact absurd h (hfold pairs _ (put_ne_nil _ _ _))
  · rintro rfl
    rfl

/-- A tally has one entry for each key. -/
theorem nodup_tally (ks : List Text) : ((tally ks).map Prod.fst).Nodup := by
  have hfold : ∀ (ks : List Text) (m : Keyed Int), (m.map Prod.fst).Nodup →
      ((ks.foldl (fun m k => bump k m) m).map Prod.fst).Nodup := by
    intro ks
    induction ks with
    | nil => exact fun m h => h
    | cons k ks ih => exact fun m h => ih _ (nodup_put h)
  exact hfold ks [] List.nodup_nil

end MarkerBoard.Keyed
