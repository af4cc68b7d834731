import MarkerBoard.Disk.Change
import Mathlib.Data.List.Basic

/-!
# Entries put and dropped

What is at a place after an entry has been put there or dropped, and which entries there are.

Main results:

* `Disk.put_put`, `Disk.drop_put` — an entry that is put anew, and one that is dropped again.
* `Disk.at?_put_of_ne` — other places keep their entries.
-/
namespace MarkerBoard.Disk

variable {d : Disk} {p q : Place} {n n' : Node}

theorem at?_root (d : Disk) : d.at? [] = some .dir := by
  rw [at?, if_pos rfl]

theorem ne_nil_of_at?_eq_none (h : d.at? p = none) : p ≠ [] := by
  rintro rfl
  rw [at?_root] at h
  cases h

theorem ne_nil_of_at?_file {b : List UInt8} {m : Nat} (h : d.at? p = some (.file b m)) :
    p ≠ [] := by
  rintro rfl
  rw [at?_root] at h
  cases h

/-- What is no directory is not at the root. -/
theorem ne_nil_of_not_dir (h : d.at? p ≠ some .dir) : p ≠ [] := by
  rintro rfl
  exact h (at?_root d)

theorem at?_put_self (hp : p ≠ []) : (d.put p n).at? p = some n := by
  rw [at?_put d p p n hp, if_pos rfl]

theorem at?_put_of_ne (h : p ≠ q) : (d.put p n).at? q = d.at? q := by
  by_cases hq : q = []
  · rw [hq, at?_root, at?_root]
  · rw [at?_put d p q n hq, if_neg h]

theorem ne_of_at?_eq_none (h : d.at? p = none) : ∀ e ∈ d.entries, e.1 ≠ p := by
  intro e he hep
  rw [at?, if_neg (ne_nil_of_at?_eq_none h), Option.map_eq_none_iff, List.find?_eq_none] at h
  exact h e he (by simpa using hep)

theorem mem_entries_of_at? (hat : d.at? p = some n) (hp : p ≠ []) :
    (p, n) ∈ d.entries := by
  rw [at?, if_neg hp, Option.map_eq_some_iff] at hat
  obtain ⟨⟨q, n'⟩, he, rfl⟩ := hat
  have hq : q = p := by simpa using List.find?_some he
  rw [← hq]
  exact List.mem_of_find?_eq_some he

/-- With different places, every entry is the one at its place. -/
theorem at?_of_mem (hnodup : (d.entries.map Prod.fst).Nodup) {e : Place × Node}
    (he : e ∈ d.entries) (hne : e.1 ≠ []) : d.at? e.1 = some e.2 := by
  have hfind : ∀ es : List (Place × Node), (es.map Prod.fst).Nodup → e ∈ es →
      es.find? (·.1 = e.1) = some e := by
    intro es hnodup hmem
    induction es with
    | nil => simp at hmem
    | cons e' es ih =>
      rw [List.map_cons, List.nodup_cons] at hnodup
      rcases List.mem_cons.1 hmem with rfl | hmem
      · rw [List.find?_cons_of_pos (by simp)]
      · rw [List.find?_cons_of_neg, ih hnodup.2 hmem]
        intro heq
        refine hnodup.1 ?_
        rw [of_decide_eq_true heq]
        exact List.mem_map_of_mem hmem
  rw [at?, if_neg hne, hfind d.entries hnodup he]
  rfl

theorem isPrefixOf_iff : p.isPrefixOf q = true ↔ ∃ names, q = p ++ names := by
  rw [List.isPrefixOf_iff_prefix]
  exact ⟨fun ⟨names, h⟩ => ⟨names, h.symm⟩, fun ⟨names, h⟩ => ⟨names, h.symm⟩⟩

theorem putIn_putIn (es : List (Place × Node)) : putIn p n (putIn p n' es) = putIn p n es := by
  induction es with
  | nil => simp [putIn]
  | cons e es ih =>
    by_cases h : e.1 = p
    · simp [putIn, h]
    · simp [putIn, h, ih]

@[simp] theorem put_put (d : Disk) : (d.put p n').put p n = d.put p n := by
  rw [put, put, put, putIn_putIn]

theorem putIn_of_find? {es : List (Place × Node)}
    (h : (es.find? (·.1 = p)).map Prod.snd = some n) : putIn p n es = es := by
  induction es with
  | nil => simp at h
  | cons e es ih =>
    by_cases he : e.1 = p
    · rw [List.find?_cons_of_pos (by simpa using he)] at h
      obtain ⟨q, node⟩ := e
      rw [putIn, if_pos he]
      cases h
      cases he
      rfl
    · rw [List.find?_cons_of_neg (by simpa using he)] at h
      rw [putIn, if_neg he, ih h]

/-- Nothing happens if the entry is there already. -/
theorem put_of_at? (h : d.at? p = some n) (hp : p ≠ []) : d.put p n = d := by
  rw [at?, if_neg hp] at h
  rw [put, putIn_of_find? h]

theorem filter_putIn {es : List (Place × Node)} (h : ∀ e ∈ es, e.1 ≠ p) :
    (putIn p n es).filter (·.1 ≠ p) = es := by
  induction es with
  | nil => simp [putIn]
  | cons e es ih =>
    have he := h e List.mem_cons_self
    rw [putIn, if_neg he, List.filter_cons_of_pos (by simpa using he),
      ih fun e' he' => h e' (List.mem_cons_of_mem _ he')]

/-- An entry that is put at an empty place and dropped again leaves nothing behind. -/
theorem drop_put (h : d.at? p = none) : (d.put p n).drop p = d := by
  rw [drop, put, filter_putIn (ne_of_at?_eq_none h)]

/-- An entry put in the stead of another one is at the same position of the list. -/
theorem map_fst_putIn {es : List (Place × Node)} (h : ∃ e ∈ es, e.1 = p) :
    (putIn p n es).map Prod.fst = es.map Prod.fst := by
  induction es with
  | nil => simp at h
  | cons e es ih =>
    by_cases he : e.1 = p
    · rw [putIn, if_pos he, List.map_cons, List.map_cons, he]
    · rw [putIn, if_neg he, List.map_cons, List.map_cons, ih]
      obtain ⟨e', he', hp⟩ := h
      rcases List.mem_cons.1 he' with rfl | he'
      · exact absurd hp he
      · exact ⟨e', he', hp⟩

theorem map_fst_filter_putIn {es : List (Place × Node)} {keep : Place × Node → Bool}
    (hkeep : ∀ e ∈ es, e.1 = p → keep (p, n) = keep e) (h : ∃ e ∈ es, e.1 = p) :
    ((putIn p n es).filter keep).map Prod.fst = (es.filter keep).map Prod.fst := by
  induction es with
  | nil => simp at h
  | cons e es ih =>
    by_cases he : e.1 = p
    · rw [putIn, if_pos he, List.filter_cons, List.filter_cons, hkeep e List.mem_cons_self he]
      split
      · rw [List.map_cons, List.map_cons, he]
      · rfl
    · have hrest : ∃ e ∈ es, e.1 = p := by
        obtain ⟨e', he', hp⟩ := h
        rcases List.mem_cons.1 he' with rfl | he'
        · exact absurd hp he
        · exact ⟨e', he', hp⟩
      have := ih (fun e' he' => hkeep e' (List.mem_cons_of_mem _ he')) hrest
      rw [putIn, if_neg he, List.filter_cons, List.filter_cons]
      split
      · rw [List.map_cons, List.map_cons, this]
      · exact this

end MarkerBoard.Disk
