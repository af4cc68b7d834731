import MarkerBoard.Checked.Read
import MarkerBoard.Proofs.Keyed
import MarkerBoard.Proofs.Moment.Iso
import Mathlib.Data.List.Forall2

/-!
# Readers of written values

A reader gives back what its writer was given. For a record this is shown field by field: a field is
looked up under its key and read by a reader of its own.

Main results:

* `Reader.required_record`, `Reader.optional_record` — the fields of a written record.
* `Reader.list_map`, `Reader.dictionary_dictionary` — written lists and dictionaries.
* `Reader.others_record` — a written record has no other fields.
* `Checked.seq_eq_valid_iff`, `Reader.list_eq_valid_iff`, `Reader.dictionary_eq_valid_iff`,
  `Reader.exists_of_optional` — what a value that is valid has been read from.
-/
namespace MarkerBoard

variable {α β : Type}

namespace Checked

@[simp] theorem map_valid (f : α → β) (a : α) : f <$> (valid a : Checked α) = valid (f a) := rfl

@[simp] theorem valid_seq (f : α → β) (a : α) :
    (valid f : Checked (α → β)) <*> valid a = valid (f a) := rfl

@[simp] theorem pure_eq (a : α) : (pure a : Checked α) = valid a := rfl

@[simp] theorem under_valid (step : Step) (a : α) : (valid a).under step = valid a := rfl

/-! ### Parts of a valid value -/

theorem map_eq_valid_iff {f : α → β} {x : Checked α} {b : β} :
    f <$> x = valid b ↔ ∃ a, x = valid a ∧ f a = b := by
  cases x with
  | valid a => simp
  | invalid issues =>
    constructor
    · intro h
      cases h
    · rintro ⟨a, h, -⟩
      cases h

/-- A record is valid if all its parts are. -/
theorem seq_eq_valid_iff {f : Checked (α → β)} {x : Checked α} {b : β} :
    f <*> x = valid b ↔ ∃ g, f = valid g ∧ ∃ a, x = valid a ∧ g a = b := by
  cases f with
  | valid g =>
    have hseq : (valid g : Checked (α → β)) <*> x = g <$> x := rfl
    rw [hseq, map_eq_valid_iff]
    constructor
    · exact fun h => ⟨g, rfl, h⟩
    · rintro ⟨_, hg, h⟩
      cases hg
      exact h
  | invalid issues =>
    constructor
    · intro h
      cases x <;> cases h
    · rintro ⟨g, h, -⟩
      cases h

theorem under_eq_valid_iff {step : Step} {x : Checked α} {a : α} :
    x.under step = valid a ↔ x = valid a := by
  cases x with
  | valid a => rfl
  | invalid issues =>
    constructor
    · intro h
      cases h
    · intro h
      cases h

end Checked

namespace Reader

/-! ## Single values -/

@[simp] theorem text_str (t : Text) : text (.str t) = .valid t := rfl

@[simp] theorem integer_int (n : Int) : integer (.int n) = .valid n := rfl

@[simp] theorem boolean_bool (b : Bool) : boolean (.bool b) = .valid b := rfl

@[simp] theorem moment_moment (m : Moment) : moment (.moment m) = .valid m := by
  rw [moment, Json.moment, moment?, Moment.ofText?_toIso]

theorem nullable_nullable {r : Reader α} {f : α → Json} (h : ∀ a, r (f a) = .valid a)
    (hnull : ∀ a, f a ≠ .null) (o : Option α) : nullable r (Json.nullable f o) = .valid o := by
  cases o with
  | none => rfl
  | some a =>
    rw [Json.nullable, nullable, h]
    · rfl
    · exact hnull a

@[simp] theorem nullable_moment (o : Option Moment) :
    nullable moment (Json.nullable .moment o) = .valid o :=
  nullable_nullable moment_moment (fun _ => by simp [Json.moment]) o

@[simp] theorem nullable_text (o : Option Text) :
    nullable text (Json.nullable .str o) = .valid o :=
  nullable_nullable text_str (fun _ => by simp) o

/-! ## Lists and dictionaries -/

section Lists

variable {r : Reader α} {v : Json} {as : List α}

/-- The elements of a list are valid if each of them is. -/
theorem elements_eq_valid_iff {index : Nat} {vs : List Json} : elements r index vs = .valid as ↔
    List.Forall₂ (fun v a => r v = .valid a) vs as := by
  induction vs generalizing index as with
  | nil =>
    rw [elements, Checked.pure_eq, Checked.valid.injEq, List.forall₂_nil_left_iff, eq_comm]
  | cons v vs ih =>
    simp only [elements, Checked.seq_eq_valid_iff, Checked.map_eq_valid_iff,
      Checked.under_eq_valid_iff, ih, List.forall₂_cons_left_iff]
    constructor
    · rintro ⟨_, ⟨a, hv, rfl⟩, as, hvs, rfl⟩
      exact ⟨a, as, hv, hvs, rfl⟩
    · rintro ⟨a, as, hv, hvs, rfl⟩
      exact ⟨_, ⟨a, hv, rfl⟩, as, hvs, rfl⟩

/-- A list is valid if each of its elements is. -/
theorem list_eq_valid_iff : list r v = .valid as ↔
    ∃ vs, v = .arr vs ∧ List.Forall₂ (fun u a => r u = .valid a) vs as := by
  constructor
  · intro h
    cases v with
    | arr vs => exact ⟨vs, rfl, elements_eq_valid_iff.1 h⟩
    | _ => cases h
  · rintro ⟨vs, rfl, h⟩
    exact elements_eq_valid_iff.2 h

/-- A written list is read back if its elements are. -/
theorem list_map {f : α → Json} (h : ∀ a ∈ as, r (f a) = .valid a) :
    list r (.arr (as.map f)) = .valid as :=
  list_eq_valid_iff.2 ⟨_, rfl, List.forall₂_map_left_iff.2 (List.forall₂_same.2 h)⟩

/-- An element that is read from a list is read from an element. -/
theorem exists_of_list (h : list r v = .valid as) :
    ∃ vs, v = .arr vs ∧ ∀ a ∈ as, ∃ u ∈ vs, r u = .valid a := by
  obtain ⟨vs, rfl, hvs⟩ := list_eq_valid_iff.1 h
  refine ⟨vs, rfl, ?_⟩
  clear h
  induction hvs with
  | nil => simp
  | @cons u a vs as hu _ ih =>
    refine List.forall_mem_cons.2 ⟨⟨u, List.mem_cons_self, hu⟩, fun b hb => ?_⟩
    obtain ⟨w, hw, hwb⟩ := ih b hb
    exact ⟨w, List.mem_cons_of_mem _ hw, hwb⟩

end Lists

section Dictionaries

variable {r : Reader α} {v : Json} {m : Keyed α}

/-- The entries of a dictionary are valid if the value of each of them is. -/
theorem entries_eq_valid_iff {fields : List (Text × Json)} : entries r fields = .valid m ↔
    List.Forall₂ (fun e entry => e.1 = entry.1 ∧ r e.2 = .valid entry.2) fields m := by
  induction fields generalizing m with
  | nil =>
    rw [entries, Checked.pure_eq, Checked.valid.injEq, List.forall₂_nil_left_iff, eq_comm]
  | cons e fields ih =>
    obtain ⟨k, v⟩ := e
    have hentries : entries r ((k, v) :: fields) =
        List.cons <$> (Prod.mk k <$> (r v).under (.key k)) <*> entries r fields := rfl
    simp only [hentries, Checked.seq_eq_valid_iff, Checked.map_eq_valid_iff,
      Checked.under_eq_valid_iff, ih, List.forall₂_cons_left_iff]
    constructor
    · rintro ⟨_, ⟨_, ⟨a, hv, rfl⟩, rfl⟩, m, hm, rfl⟩
      exact ⟨(k, a), m, ⟨rfl, hv⟩, hm, rfl⟩
    · rintro ⟨⟨_, a⟩, m, ⟨rfl, hv⟩, hm, rfl⟩
      exact ⟨_, ⟨_, ⟨a, hv, rfl⟩, rfl⟩, m, hm, rfl⟩

/-- A dictionary is valid if the value of each of its entries is. -/
theorem dictionary_eq_valid_iff : dictionary r v = .valid m ↔ ∃ fields, v = .obj fields ∧
    List.Forall₂ (fun e entry => e.1 = entry.1 ∧ r e.2 = .valid entry.2) fields m := by
  constructor
  · intro h
    cases v with
    | obj fields => exact ⟨fields, rfl, entries_eq_valid_iff.1 h⟩
    | _ => cases h
  · rintro ⟨fields, rfl, h⟩
    exact entries_eq_valid_iff.2 h

/-- A written dictionary is read back if its values are. -/
theorem dictionary_dictionary {f : α → Json} (h : ∀ a, r (f a) = .valid a) (m : Keyed α) :
    dictionary r (.dictionary f m) = .valid m :=
  dictionary_eq_valid_iff.2 ⟨_, rfl, List.forall₂_map_left_iff.2
    (List.forall₂_same.2 fun e _ => ⟨rfl, h e.2⟩)⟩

/-- A dictionary that is read has the keys of the object. -/
theorem exists_of_dictionary (h : dictionary r v = .valid m) :
    ∃ fields, v = .obj fields ∧ m.map Prod.fst = fields.map Prod.fst := by
  obtain ⟨fields, rfl, hentries⟩ := dictionary_eq_valid_iff.1 h
  refine ⟨fields, rfl, ?_⟩
  have hkeys : List.Forall₂ (· = ·) (fields.map Prod.fst) (m.map Prod.fst) := by
    rw [List.forall₂_map_left_iff, List.forall₂_map_right_iff]
    exact hentries.imp fun _ _ => And.left
  rw [List.forall₂_eq_eq_eq] at hkeys
  exact hkeys.symm

end Dictionaries

/-! ## Records -/

/-- A field that is read has its default or is read from a value of the record. -/
theorem exists_of_optional {key : String} {r : Reader α} {default a : α} {fields : Keyed Json}
    (h : optional key r default fields = .valid a) :
    a = default ∨ ∃ v, (key.toList, v) ∈ fields ∧ r v = .valid a := by
  rw [optional] at h
  split at h
  · next v hv => exact .inr ⟨v, Keyed.mem_of_get? hv, Checked.under_eq_valid_iff.1 h⟩
  · cases h
    exact .inl rfl

/-- The fields of a record, its keys given as strings. -/
def keyed (fields : List (String × Json)) : Keyed Json := fields.map fun e => (e.1.toList, e.2)

theorem get?_keyed_append (key : String) (fields : List (String × Json)) (more : Keyed Json) :
    Keyed.get? key.toList (keyed fields ++ more) =
      (fields.lookup key).or (Keyed.get? key.toList more) := by
  induction fields with
  | nil => rfl
  | cons e fields ih =>
    obtain ⟨k, v⟩ := e
    rw [keyed] at ih
    rw [keyed, List.map_cons, List.cons_append, Keyed.get?, ih, List.lookup_cons]
    by_cases hk : key = k
    · subst hk
      simp
    · have hlist : ¬ k.toList = key.toList := fun h => hk (String.toList_inj.1 h).symm
      rw [if_neg hlist, beq_eq_false_iff_ne.2 hk]

/-- A record is read field by field. -/
theorem record_record (f : Keyed Json → Checked α) (fields : List (String × Json)) :
    record f (.record fields) = f (keyed fields ++ []) := by
  rw [List.append_nil]
  rfl

/-- A field that has to be there is read from a written record. -/
theorem required_record (key : String) (r : Reader α) (fields : List (String × Json))
    (more : Keyed Json) :
    required key r (keyed fields ++ more) = match fields.lookup key with
      | some v => (r v).under (.key key.toList)
      | none => required key r more := by
  rw [required, get?_keyed_append]
  cases fields.lookup key <;> rfl

/-- A field with a default is read from a written record. -/
theorem optional_record (key : String) (r : Reader α) (default : α)
    (fields : List (String × Json)) (more : Keyed Json) :
    optional key r default (keyed fields ++ more) = match fields.lookup key with
      | some v => (r v).under (.key key.toList)
      | none => optional key r default more := by
  rw [optional, get?_keyed_append]
  cases fields.lookup key <;> rfl

/-- The other fields of a record are those that follow its own. -/
theorem others_record {keys : List String} {fields : List (String × Json)} {more : Keyed Json}
    (h : ∀ e ∈ fields, e.1 ∈ keys) (hmore : ∀ e ∈ more, e.1 ∉ keys.map String.toList) :
    others keys (keyed fields ++ more) = more := by
  rw [others, List.filter_append]
  have hown : (keyed fields).filter (fun e => !(keys.map String.toList).contains e.1) = [] := by
    rw [List.filter_eq_nil_iff]
    intro e he
    obtain ⟨f, hf, rfl⟩ := List.mem_map.1 he
    simpa using ⟨f.1, h f hf, rfl⟩
  have hothers : more.filter (fun e => !(keys.map String.toList).contains e.1) = more := by
    rw [List.filter_eq_self]
    intro e he
    simpa using hmore e he
  rw [hown, hothers, List.nil_append]

end Reader
end MarkerBoard
