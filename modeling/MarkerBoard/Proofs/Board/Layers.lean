import MarkerBoard.Board.Merge
import MarkerBoard.Proofs.Json.Regular
import MarkerBoard.Proofs.Tally

/-!
# Layers, leaf by leaf

An object is known by its leaves, the values without fields that are found under keys one after the
other, and by the order of the keys at each level. Both are told here for one object laid over
another: a leaf comes from the upper one, or from the lower one where the upper one has nothing and
no leaf above it; and at each level the lower keys come before the new ones.

Everything follows from what is under a single key, and from the keys at the top.

Main results:

* `Json.get?_overlayFields_of_nodup`, `Json.keys_overlayFields` — one level.
* `Json.at?_overlay` — what is under any keys.
* `Json.overlay_self`, `Json.overlay_overlay` — a layer over itself, and a layer laid twice.
* `Json.isLayered_overlayFields` — leaves and keys of all levels, with these laws.
-/
namespace MarkerBoard

/-- Lists with different keys in the same order, and the same values under them, are equal. -/
theorem Keyed.ext_of_get? {α : Type} {m m' : Keyed α} (hnodup : (keys m).Nodup)
    (hkeys : keys m = keys m') (hget : ∀ k, get? k m = get? k m') : m = m' := by
  induction m generalizing m' with
  | nil => exact (List.map_eq_nil_iff.1 hkeys.symm).symm
  | cons e m ih =>
    cases m' with
    | nil => cases hkeys
    | cons e' m' =>
    obtain ⟨k, v⟩ := e
    obtain ⟨k', v'⟩ := e'
    obtain ⟨hk, hrest⟩ : k = k' ∧ keys m = keys m' := List.cons.inj hkeys
    subst hk
    obtain ⟨hnew, hnodup⟩ : k ∉ keys m ∧ (keys m).Nodup := List.nodup_cons.1 hnodup
    have hv : v = v' := by simpa [get?] using hget k
    -- the first key does not come again, so a look-up of any other key goes on to the rest
    have htail : m = m' := by
      refine ih hnodup hrest fun l => ?_
      by_cases hl : k = l
      · have hnone : ∀ {m : Keyed α}, k ∉ keys m → get? k m = none := fun hk => by
          rwa [← Option.not_isSome_iff_eq_none, get?_isSome_iff]
        rw [← hl, hnone hnew, hnone (hrest ▸ hnew)]
      · simpa [get?, hl] using hget l
    rw [hv, htail]

namespace Json

variable {lower upper : Keyed Json} {base v w : Json} {key : Text} {path : List Text}

/-! ## Paths of keys -/

/-- A value that has no fields. -/
def IsLeaf (v : Json) : Prop := ∀ fields, v ≠ .obj fields

/-- What is in a value under keys one after the other. -/
def at? : List Text → Json → Option Json
  | [], v => some v
  | key :: path, .obj fields => (Keyed.get? key fields).bind (at? path)
  | _ :: _, _ => none

/-- The keys of the object that is in a value under a path; none if there is no object. -/
def keysAt (path : List Text) (v : Json) : List Text :=
  match at? path v with
  | some (.obj fields) => Keyed.keys fields
  | _ => []

/-- A leaf of the value stands in the way of a path. -/
def Blocks (path : List Text) (v : Json) : Prop :=
  ∃ front, front <+: path ∧ front ≠ path ∧ ∃ leaf, at? front v = some leaf ∧ leaf.IsLeaf

/-- Inside of objects, the keys of each object are different. -/
inductive Distinct : Json → Prop
  | leaf {v : Json} : v.IsLeaf → Distinct v
  | obj {fields : Keyed Json} : (Keyed.keys fields).Nodup → (∀ e ∈ fields, Distinct e.2) →
      Distinct (.obj fields)

theorem not_isLeaf_obj (fields : Keyed Json) : ¬ (Json.obj fields).IsLeaf := fun h => h fields rfl

theorem isLeaf_or_exists (v : Json) : v.IsLeaf ∨ ∃ fields, v = .obj fields := by
  by_cases h : v.IsLeaf
  · exact .inl h
  · unfold IsLeaf at h
    push Not at h
    exact .inr h

theorem Distinct.nodup (h : (Json.obj lower).Distinct) : (Keyed.keys lower).Nodup := by
  cases h with
  | leaf h => exact absurd h (not_isLeaf_obj lower)
  | obj hkeys => exact hkeys

theorem Distinct.of_get? (h : (Json.obj lower).Distinct) (hv : Keyed.get? key lower = some v) :
    v.Distinct := by
  cases h with
  | leaf h => exact absurd h (not_isLeaf_obj lower)
  | obj _ hvalues => exact hvalues _ (Keyed.mem_of_get? hv)

/-- All values that are read from a text have different keys. -/
theorem distinct_of_read? {t : Text} (h : read? t = some v) : v.Distinct := by
  have hregular := regular_of_read? h
  clear h
  induction hregular with
  | obj hkeys _ ih => exact .obj hkeys ih
  | _ => exact .leaf fun fields => by simp

theorem at?_cons_of_isLeaf (h : v.IsLeaf) (key : Text) (path : List Text) :
    at? (key :: path) v = none := by
  cases v with
  | obj fields => exact absurd h (not_isLeaf_obj fields)
  | _ => rfl

theorem at?_cons_obj (key : Text) (path : List Text) (fields : Keyed Json) :
    at? (key :: path) (.obj fields) = (Keyed.get? key fields).bind (at? path) := rfl

/-! ## Ways that are blocked -/

theorem blocks_cons_of_isLeaf (h : v.IsLeaf) (key : Text) (path : List Text) :
    Blocks (key :: path) v :=
  ⟨[], List.nil_prefix, by simp, v, rfl, h⟩

/-- Whether a leaf is in the way is seen below the first key. -/
theorem blocks_cons_iff : Blocks (key :: path) (.obj upper) ↔
    ∃ v, Keyed.get? key upper = some v ∧ Blocks path v := by
  constructor
  · rintro ⟨front, hfront, hne, leaf, hat, hleaf⟩
    cases front with
    | nil =>
      cases hat
      exact absurd hleaf (not_isLeaf_obj upper)
    | cons key' front =>
      obtain ⟨rfl, hrest⟩ := List.cons_prefix_cons.1 hfront
      rw [at?_cons_obj, Option.bind_eq_some_iff] at hat
      obtain ⟨v, hv, hat⟩ := hat
      exact ⟨v, hv, front, hrest, fun h => hne (h ▸ rfl), leaf, hat, hleaf⟩
  · rintro ⟨v, hv, front, hfront, hne, leaf, hat, hleaf⟩
    refine ⟨key :: front, List.cons_prefix_cons.2 ⟨rfl, hfront⟩, fun h => hne (List.cons.inj h).2,
      leaf, ?_, hleaf⟩
    rw [at?_cons_obj, hv]
    exact hat

/-! ## One level -/

theorem overlay_of_isLeaf (h : v.IsLeaf) (base : Json) : overlay base v = v := by
  cases v with
  | obj fields => exact absurd h (not_isLeaf_obj fields)
  | _ => rfl

theorem overlay_obj (lower upper : Keyed Json) :
    overlay (.obj lower) (.obj upper) = .obj (overlayFields lower upper) := rfl

theorem overlay_obj_of_isLeaf (h : base.IsLeaf) (upper : Keyed Json) :
    overlay base (.obj upper) = .obj upper := by
  cases base with
  | obj fields => exact absurd h (not_isLeaf_obj fields)
  | _ => rfl

/-- A value laid over what is below, if anything is. -/
def laidOver (below : Option Json) (v : Json) : Json :=
  match below with
  | some base => overlay base v
  | none => v

@[simp] theorem laidOver_none : laidOver none = id := rfl

@[simp] theorem laidOver_some (base v : Json) : laidOver (some base) v = overlay base v := rfl

/-- What is under a key: the upper value laid over the lower one, or the lower one alone. -/
theorem get?_overlayFields_of_nodup (hupper : (Keyed.keys upper).Nodup) (lower : Keyed Json)
    (k : Text) :
    Keyed.get? k (overlayFields lower upper) =
      ((Keyed.get? k upper).map (laidOver (Keyed.get? k lower))).or (Keyed.get? k lower) := by
  induction upper generalizing lower with
  | nil => rfl
  | cons e upper ih =>
    obtain ⟨key, v⟩ := e
    obtain ⟨hnew, hupper⟩ : key ∉ Keyed.keys upper ∧ (Keyed.keys upper).Nodup :=
      List.nodup_cons.1 hupper
    rw [overlayFields, ih hupper, Keyed.get?_put, Keyed.get?]
    by_cases hk : key = k
    · -- the key does not come again
      subst hk
      rw [← Keyed.get?_isSome_iff, Option.not_isSome_iff_eq_none] at hnew
      rw [if_pos rfl, if_pos rfl, hnew]
      rfl
    · rw [if_neg hk, if_neg hk]

/-- The lower keys keep their order, and new ones come after them in theirs. -/
theorem keys_overlayFields (hupper : (Keyed.keys upper).Nodup) (lower : Keyed Json) :
    Keyed.keys (overlayFields lower upper) =
      Keyed.keys lower ++ (Keyed.keys upper).filter (· ∉ Keyed.keys lower) := by
  induction upper generalizing lower with
  | nil => exact (List.append_nil _).symm
  | cons e upper ih =>
    obtain ⟨key, v⟩ := e
    obtain ⟨hnew, hupper⟩ : key ∉ Keyed.keys upper ∧ (Keyed.keys upper).Nodup :=
      List.nodup_cons.1 hupper
    have hput : ∀ v, Keyed.keys (Keyed.put key v lower) =
        if key ∈ Keyed.keys lower then Keyed.keys lower else Keyed.keys lower ++ [key] :=
      fun v => Keyed.map_fst_put key v lower
    have hkeys : Keyed.keys ((key, v) :: upper) = key :: Keyed.keys upper := rfl
    rw [overlayFields, ih hupper, hput, hkeys, List.filter_cons]
    by_cases hk : key ∈ Keyed.keys lower
    · rw [if_pos hk, if_neg (by simpa using hk)]
    · -- a new key is not among those that are still to come
      have hrest : (Keyed.keys upper).filter (· ∉ Keyed.keys lower ++ [key]) =
          (Keyed.keys upper).filter (· ∉ Keyed.keys lower) := by
        refine List.filter_congr fun k hmem => ?_
        have hne : k ≠ key := fun h => hnew (h ▸ hmem)
        simp [hne]
      rw [if_neg hk, if_pos (by simpa using hk), hrest, List.append_assoc]
      rfl

theorem nodup_keys_overlayFields (hlower : (Keyed.keys lower).Nodup)
    (hupper : (Keyed.keys upper).Nodup) : (Keyed.keys (overlayFields lower upper)).Nodup := by
  rw [keys_overlayFields hupper, List.nodup_append]
  refine ⟨hlower, hupper.filter _, fun k hk l hl hkl => ?_⟩
  have hnot : l ∉ Keyed.keys lower := by simpa using (List.mem_filter.1 hl).2
  exact hnot (hkl ▸ hk)

/-! ## All levels -/

open Classical in
/-- What is under a path: what the upper value has there, laid over what the lower one has; and
what the lower one has there if the upper one has nothing and no leaf in the way. -/
theorem at?_overlay (hv : v.Distinct) (base : Json) (path : List Text) :
    at? path (overlay base v) = ((at? path v).map (laidOver (at? path base))).or
      (if Blocks path v then none else at? path base) := by
  induction path generalizing base v with
  | nil => rfl
  | cons key path ih =>
    -- a leaf above takes the place of what is below it, and one below has nothing under the key
    rcases isLeaf_or_exists v with hleaf | ⟨upper, rfl⟩
    · rw [overlay_of_isLeaf hleaf, at?_cons_of_isLeaf hleaf,
        if_pos (blocks_cons_of_isLeaf hleaf key path)]
      rfl
    rcases isLeaf_or_exists base with hleaf | ⟨lower, rfl⟩
    · rw [overlay_obj_of_isLeaf hleaf, at?_cons_of_isLeaf hleaf]
      simp
    rw [overlay_obj, at?_cons_obj, at?_cons_obj, at?_cons_obj, get?_overlayFields_of_nodup hv.nodup]
    cases hupper : Keyed.get? key upper with
    | none =>
      have hblocks : ¬ Blocks (key :: path) (.obj upper) := by
        rw [blocks_cons_iff, hupper]
        simp
      rw [if_neg hblocks]
      rfl
    | some v =>
      have hblocks : Blocks (key :: path) (.obj upper) ↔ Blocks path v := by
        rw [blocks_cons_iff, hupper]
        simp
      cases Keyed.get? key lower with
      | none => simp
      | some base =>
        simp only [hblocks]
        exact ih (hv.of_get? hupper) base

/-- A value laid over itself. -/
theorem overlay_self (hv : v.Distinct) : overlay v v = v := by
  induction hv with
  | leaf h => exact overlay_of_isLeaf h _
  | @obj fields hkeys _ ih =>
    have hnew : (Keyed.keys fields).filter (· ∉ Keyed.keys fields) = [] := by simp
    have hall : Keyed.keys (overlayFields fields fields) = Keyed.keys fields := by
      rw [keys_overlayFields hkeys, hnew, List.append_nil]
    rw [overlay_obj, Keyed.ext_of_get? (hall ▸ hkeys) hall fun k => ?_]
    rw [get?_overlayFields_of_nodup hkeys]
    cases hk : Keyed.get? k fields with
    | none => rfl
    | some v => exact congrArg some (ih _ (Keyed.mem_of_get? hk))

/-- A value that has been laid over another one changes nothing when it is laid over both. -/
theorem overlay_overlay (hv : v.Distinct) (hbase : base.Distinct) :
    overlay (overlay base v) v = overlay base v := by
  induction hv generalizing base with
  | leaf h => rw [overlay_of_isLeaf h, overlay_of_isLeaf h]
  | @obj upper hkeys hvalues ih =>
    rcases isLeaf_or_exists base with hleaf | ⟨lower, rfl⟩
    · rw [overlay_obj_of_isLeaf hleaf, overlay_self (.obj hkeys hvalues)]
    -- after the first time there is no new key
    have hnew : (Keyed.keys upper).filter (· ∉ Keyed.keys (overlayFields lower upper)) = [] := by
      rw [keys_overlayFields hkeys, List.filter_eq_nil_iff]
      intro k hk
      by_cases hold : k ∈ Keyed.keys lower <;> simp [hk, hold]
    have hall : Keyed.keys (overlayFields (overlayFields lower upper) upper) =
        Keyed.keys (overlayFields lower upper) := by
      rw [keys_overlayFields hkeys, hnew, List.append_nil]
    have hnodup := nodup_keys_overlayFields hbase.nodup hkeys
    rw [overlay_obj, overlay_obj, Keyed.ext_of_get? (hall ▸ hnodup) hall fun k => ?_]
    rw [get?_overlayFields_of_nodup hkeys, get?_overlayFields_of_nodup hkeys]
    cases hk : Keyed.get? k upper with
    | none => rfl
    | some v =>
      have hmem := Keyed.mem_of_get? hk
      cases hl : Keyed.get? k lower with
      | none => exact congrArg some (overlay_self (hvalues _ hmem))
      | some base => exact congrArg some (ih _ hmem (hbase.of_get? hl))

/-! ## Leaves and keys -/

/-- A value has the leaves of two others, those of the upper one first, and at each level their
keys, those of the lower one first. -/
structure IsLayered (lower upper v : Json) : Prop where
  leaf : ∀ path leaf, leaf.IsLeaf → (at? path v = some leaf ↔ at? path upper = some leaf ∨
    at? path lower = some leaf ∧ at? path upper = none ∧ ¬ Blocks path upper)
  keys : ∀ path fields, at? path v = some (.obj fields) → Keyed.keys fields =
    keysAt path lower ++ (keysAt path upper).filter (· ∉ keysAt path lower)

/-- What is under the keys of values with different keys has different keys. -/
theorem Distinct.of_at? (hv : v.Distinct) (h : at? path v = some w) : w.Distinct := by
  induction path generalizing v with
  | nil =>
    cases h
    exact hv
  | cons key path ih =>
    rcases isLeaf_or_exists v with hleaf | ⟨fields, rfl⟩
    · rw [at?_cons_of_isLeaf hleaf] at h
      cases h
    · rw [at?_cons_obj, Option.bind_eq_some_iff] at h
      obtain ⟨u, hu, h⟩ := h
      exact ih (hv.of_get? hu) h

theorem keysAt_of_none (h : at? path v = none) : keysAt path v = [] := by
  rw [keysAt, h]

theorem keysAt_of_isLeaf (h : at? path v = some w) (hw : w.IsLeaf) : keysAt path v = [] := by
  rw [keysAt, h]
  cases w with
  | obj fields => exact absurd hw (not_isLeaf_obj fields)
  | _ => rfl

theorem keysAt_of_obj (h : at? path v = some (.obj lower)) : keysAt path v = Keyed.keys lower := by
  rw [keysAt, h]

theorem laidOver_of_isLeaf (h : v.IsLeaf) (below : Option Json) : laidOver below v = v := by
  cases below with
  | none => rfl
  | some base => exact overlay_of_isLeaf h base

/-- An object laid over anything is an object, with the keys of what is below it coming first. -/
theorem exists_laidOver_obj (hupper : (Keyed.keys upper).Nodup) (path : List Text) (base : Json) :
    ∃ fields, laidOver (at? path base) (.obj upper) = .obj fields ∧ Keyed.keys fields =
      keysAt path base ++ (Keyed.keys upper).filter (· ∉ keysAt path base) := by
  cases hbase : at? path base with
  | none => exact ⟨upper, rfl, by simp [keysAt_of_none hbase]⟩
  | some b =>
    rcases isLeaf_or_exists b with hb | ⟨lower, rfl⟩
    · exact ⟨upper, overlay_obj_of_isLeaf hb upper, by simp [keysAt_of_isLeaf hbase hb]⟩
    · refine ⟨overlayFields lower upper, rfl, ?_⟩
      rw [keysAt_of_obj hbase, keys_overlayFields hupper]

theorem isLayered_overlay (hv : v.Distinct) (base : Json) : IsLayered base v (overlay base v) where
  leaf path leaf hleaf := by
    rw [at?_overlay hv]
    cases hat : at? path v with
    | none => by_cases hblocks : Blocks path v <;> simp [hblocks]
    | some u =>
      rcases isLeaf_or_exists u with hu | ⟨upper, rfl⟩
      · simp [laidOver_of_isLeaf hu]
      · obtain ⟨fields, hfields, -⟩ := exists_laidOver_obj (hv.of_at? hat).nodup path base
        have hne : ∀ fields, Json.obj fields ≠ leaf := fun fields h => hleaf fields h.symm
        simp [hfields, hne]
  keys path fields h := by
    rw [at?_overlay hv] at h
    cases hat : at? path v with
    | none =>
      -- the object is that of the lower value
      rw [hat] at h
      rw [keysAt_of_none hat, List.filter_nil, List.append_nil]
      by_cases hblocks : Blocks path v
      · simp [hblocks] at h
      · rw [keysAt_of_obj (by simpa [hblocks] using h)]
    | some u =>
      rw [hat] at h
      replace h : laidOver (at? path base) u = .obj fields := by simpa using h
      rcases isLeaf_or_exists u with hu | ⟨upper, rfl⟩
      · rw [laidOver_of_isLeaf hu] at h
        exact absurd h (hu fields)
      · obtain ⟨fields', hfields, hkeys⟩ := exists_laidOver_obj (hv.of_at? hat).nodup path base
        cases hfields.symm.trans h
        rw [keysAt_of_obj hat, hkeys]

/-- An object laid over another has the leaves and keys of both, as layers have them. Nothing
happens if one of them is empty or if they are the same, and the upper one laid a second time
changes nothing. -/
theorem isLayered_overlayFields (hlower : (Json.obj lower).Distinct)
    (hupper : (Json.obj upper).Distinct) :
    IsLayered (.obj lower) (.obj upper) (.obj (overlayFields lower upper)) ∧
    overlayFields lower [] = lower ∧ overlayFields [] lower = lower ∧
    overlayFields lower lower = lower ∧
    overlayFields (overlayFields lower upper) upper = overlayFields lower upper := by
  refine ⟨isLayered_overlay hupper (.obj lower), rfl, ?_, ?_, ?_⟩
  · have hkeys : Keyed.keys (overlayFields [] lower) = Keyed.keys lower := by
      rw [keys_overlayFields hlower.nodup]
      simp [Keyed.keys]
    refine Keyed.ext_of_get? (hkeys ▸ hlower.nodup) hkeys fun k => ?_
    rw [get?_overlayFields_of_nodup hlower.nodup]
    simp [Keyed.get?]
  · exact Json.obj.inj (overlay_self hlower)
  · exact Json.obj.inj (overlay_overlay hupper hlower)

/-! ## Two layers -/

/-- An object with a leaf and two objects in it. -/
def sampleLower : Keyed Json :=
  [(['a'], .int 1), (['b'], .obj [(['x'], .int 1), (['y'], .int 2)]),
    (['c'], .obj [(['z'], .int 3)])]

/-- An object with a new field, a leaf over an object, and objects over an object and a leaf. -/
def sampleUpper : Keyed Json :=
  [(['d'], .null), (['c'], .int 4), (['b'], .obj [(['w'], .int 5), (['y'], .int 6)]),
    (['a'], .obj [(['v'], .int 7)])]

theorem distinct_sampleLower : (Json.obj sampleLower).Distinct := by
  have hint : ∀ n, (Json.int n).Distinct := fun n => .leaf fun fields => by simp
  refine .obj (by decide) ?_
  simp only [sampleLower, List.forall_mem_cons]
  refine ⟨hint 1, .obj (by decide) ?_, .obj (by decide) ?_, fun _ h => absurd h List.not_mem_nil⟩
  · simp [hint]
  · simp [hint]

theorem distinct_sampleUpper : (Json.obj sampleUpper).Distinct := by
  have hint : ∀ n, (Json.int n).Distinct := fun n => .leaf fun fields => by simp
  refine .obj (by decide) ?_
  simp only [sampleUpper, List.forall_mem_cons]
  refine ⟨.leaf fun fields => by simp, hint 4, .obj (by decide) ?_, .obj (by decide) ?_,
    fun _ h => absurd h List.not_mem_nil⟩
  · simp [hint]
  · simp [hint]

/-- The lower leaf at `b.x` is kept, the one at `c.z` is blocked by a leaf, and the one at `a` has
an object in its stead. -/
theorem isLayered_overlayFields_sample :
    (Json.obj sampleLower).Distinct ∧ (Json.obj sampleUpper).Distinct ∧
    overlayFields sampleLower sampleUpper =
      [(['a'], .obj [(['v'], .int 7)]),
        (['b'], .obj [(['x'], .int 1), (['y'], .int 6), (['w'], .int 5)]),
        (['c'], .int 4), (['d'], .null)] ∧
    IsLayered (.obj sampleLower) (.obj sampleUpper)
      (.obj (overlayFields sampleLower sampleUpper)) ∧
    overlayFields (overlayFields sampleLower sampleUpper) sampleUpper =
      overlayFields sampleLower sampleUpper := by
  obtain ⟨hlayered, -, -, -, htwice⟩ :=
    isLayered_overlayFields distinct_sampleLower distinct_sampleUpper
  exact ⟨distinct_sampleLower, distinct_sampleUpper, rfl, hlayered, htwice⟩

end Json
end MarkerBoard
