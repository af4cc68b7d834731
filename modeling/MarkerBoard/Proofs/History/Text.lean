import Mathlib.Data.List.Nodup
import MarkerBoard.History.Store
import MarkerBoard.Proofs.Checked.Read
import MarkerBoard.Proofs.Json.RoundTrip

/-!
# Histories written and read

A history is written as a JSON value, and its readers give back what its writers were given. So a
history is read back from its text as it was, if its counts have one entry for each key. Only a
number in a field of another program that is not finite is written as null.

Main results:

* `History.read_toJson` — a history is read back from its value.
* `History.IsExact.exact_toJson` — the value is read back from its text.
* `History.ofText?_toText` — a history is read back from its text.
* `History.ofText?_toText_finite` — what is read back if there are numbers that are not finite.
-/
namespace MarkerBoard

/-! ## Values -/

namespace Json

mutual
/-- An exact value has only finite numbers. -/
theorem finite_of_exact : ∀ {v : Json}, v.Exact → v.finite = v
  | .null, _ => rfl
  | .bool _, _ => rfl
  | .int _, _ => rfl
  | .float (.finite ..), _ => rfl
  | .str _, _ => rfl
  | .arr _, h => congrArg Json.arr (finiteList_of_exact h)
  | .obj _, h => congrArg Json.obj (finiteFields_of_exact h.2)

theorem finiteList_of_exact : ∀ {vs : List Json}, ExactList vs → finiteList vs = vs
  | [], _ => rfl
  | _ :: _, h => by rw [finiteList, finite_of_exact h.1, finiteList_of_exact h.2]

theorem finiteFields_of_exact :
    ∀ {fields : List (Text × Json)}, ExactFields fields → finiteFields fields = fields
  | [], _ => rfl
  | (_, _) :: _, h => by rw [finiteFields, finite_of_exact h.1, finiteFields_of_exact h.2]
end

mutual
theorem finite_finite : ∀ v : Json, v.finite.finite = v.finite
  | .null => rfl
  | .bool _ => rfl
  | .int _ => rfl
  | .float .nan => rfl
  | .float (.infinite _) => rfl
  | .float (.finite ..) => rfl
  | .str _ => rfl
  | .arr vs => congrArg Json.arr (finiteList_finiteList vs)
  | .obj fields => congrArg Json.obj (finiteFields_finiteFields fields)

theorem finiteList_finiteList : ∀ vs : List Json, finiteList (finiteList vs) = finiteList vs
  | [] => rfl
  | v :: vs => by rw [finiteList, finiteList, finite_finite v, finiteList_finiteList vs]

theorem finiteFields_finiteFields :
    ∀ fields : List (Text × Json), finiteFields (finiteFields fields) = finiteFields fields
  | [] => rfl
  | (k, v) :: fields => by
    rw [finiteFields, finiteFields, finite_finite v, finiteFields_finiteFields fields]
end

theorem finiteList_eq_map (vs : List Json) : finiteList vs = vs.map finite := by
  induction vs with
  | nil => rfl
  | cons v vs ih => rw [finiteList, ih, List.map_cons]

theorem finiteFields_eq_map (fields : List (Text × Json)) :
    finiteFields fields = fields.map fun e => (e.1, e.2.finite) := by
  induction fields with
  | nil => rfl
  | cons e fields ih =>
    obtain ⟨k, v⟩ := e
    rw [finiteFields, ih, List.map_cons]

theorem finiteFields_append (fields more : List (Text × Json)) :
    finiteFields (fields ++ more) = finiteFields fields ++ finiteFields more := by
  simp only [finiteFields_eq_map, List.map_append]

theorem exact_str (t : Text) : (Json.str t).Exact := trivial

theorem exact_moment (m : Moment) : (Json.moment m).Exact := trivial

theorem exact_nullable {α : Type} {f : α → Json} (h : ∀ a, (f a).Exact) (o : Option α) :
    (nullable f o).Exact := by
  cases o with
  | none => trivial
  | some a => exact h a

theorem exact_arr_map {α : Type} {f : α → Json} {as : List α} (h : ∀ a ∈ as, (f a).Exact) :
    (Json.arr (as.map f)).Exact := by
  refine exactList_iff.2 fun v hv => ?_
  obtain ⟨a, ha, rfl⟩ := List.mem_map.1 hv
  exact h a ha

/-- A written record is exact if its values are, since its keys differ. -/
theorem exact_record {fields : List (String × Json)} (hkeys : (fields.map Prod.fst).Nodup)
    (h : ∀ e ∈ fields, e.2.Exact) : (record fields).Exact := by
  refine ⟨?_, exactFields_iff.2 fun e he => ?_⟩
  · have hfst : (fields.map fun e => (e.1.toList, e.2)).map Prod.fst =
        (fields.map Prod.fst).map String.toList := by
      rw [List.map_map, List.map_map]
      rfl
    rw [hfst]
    exact List.Nodup.map (fun _ _ hst => String.toList_inj.1 hst) hkeys
  · obtain ⟨f, hf, rfl⟩ := List.mem_map.1 he
    exact h f hf

/-- Written counts are exact if there is one for each key. -/
theorem exact_counts {m : Keyed Int} (h : (m.map Prod.fst).Nodup) :
    (dictionary .int m).Exact := by
  refine ⟨?_, exactFields_iff.2 fun e he => ?_⟩
  · rw [Keyed.mapValues, List.map_map]
    exact h
  · obtain ⟨f, -, rfl⟩ := List.mem_map.1 he
    trivial

end Json

theorem Priority.read_name (p : Priority) : Priority.read (.str p.name) = .valid p := by
  rw [Priority.read, Priority.ofName?_name]

/-! ## Tasks -/

namespace Task

theorem read_toJson (t : Task) : read t.toJson = .valid t := by
  rw [read, toJson, Reader.record_record]
  simp only [Reader.required_record, Reader.optional_record, List.lookup_cons, String.reduceBEq,
    Reader.text_str, Reader.integer_int, Reader.boolean_bool, Reader.nullable_moment,
    Reader.nullable_text, Priority.read_name, Checked.under_valid, Checked.map_valid,
    Checked.valid_seq]

theorem exact_toJson (t : Task) : t.toJson.Exact := by
  refine Json.exact_record (by simp) ?_
  simp only [List.forall_mem_cons, List.not_mem_nil, false_imp_iff, implies_true, and_true]
  exact ⟨trivial, trivial, trivial, trivial, trivial, trivial, trivial, trivial,
    Json.exact_nullable Json.exact_moment _, Json.exact_nullable Json.exact_str _, trivial⟩

end Task

/-! ## Snapshots -/

namespace Stats

/-- The counts have one entry for each key. -/
structure IsExact (s : Stats) : Prop where
  byStatus : (s.byStatus.map Prod.fst).Nodup
  byKeyword : (s.byKeyword.map Prod.fst).Nodup
  byPriority : (s.byPriority.map Prod.fst).Nodup

theorem counts_dictionary (m : Keyed Int) : counts (.dictionary .int m) = .valid m :=
  Reader.dictionary_dictionary Reader.integer_int m

theorem tasks_map (tasks : List Task) :
    Reader.list Task.read (.arr (tasks.map Task.toJson)) = .valid tasks :=
  Reader.list_map fun t _ => t.read_toJson

theorem read_toJson (s : Stats) : read s.toJson = .valid s := by
  rw [read, toJson, Reader.record_record]
  simp only [Reader.optional_record, List.lookup_cons, String.reduceBEq, Reader.integer_int,
    counts_dictionary, tasks_map, Checked.under_valid, Checked.map_valid, Checked.valid_seq]

theorem IsExact.exact_toJson {s : Stats} (h : s.IsExact) : s.toJson.Exact := by
  refine Json.exact_record (by simp) ?_
  simp only [List.forall_mem_cons, List.not_mem_nil, false_imp_iff, implies_true, and_true]
  exact ⟨trivial, Json.exact_counts h.byStatus, Json.exact_counts h.byKeyword,
    Json.exact_counts h.byPriority, Json.exact_arr_map fun t _ => t.exact_toJson⟩

end Stats

namespace Snapshot

theorem read_toJson (s : Snapshot) : read s.toJson = .valid s := by
  rw [read, toJson, Reader.record_record]
  simp only [Reader.required_record, Reader.optional_record, List.lookup_cons, String.reduceBEq,
    Reader.text_str, Reader.moment_moment, Stats.read_toJson, Checked.under_valid,
    Checked.map_valid, Checked.valid_seq]

theorem exact_toJson {s : Snapshot} (h : s.stats.IsExact) : s.toJson.Exact := by
  refine Json.exact_record (by simp) ?_
  simp only [List.forall_mem_cons, List.not_mem_nil, false_imp_iff, implies_true, and_true]
  exact ⟨trivial, trivial, trivial, trivial, trivial, h.exact_toJson⟩

end Snapshot

/-! ## Histories -/

namespace History

/-- The counts have one entry for each key, and the extra fields are exact and other than the
history's own. -/
structure IsExact (h : History) : Prop where
  byStatus : (h.byStatus.map Prod.fst).Nodup
  byKeyword : (h.byKeyword.map Prod.fst).Nodup
  byFile : (h.byFile.map Prod.fst).Nodup
  snapshots : ∀ s ∈ h.snapshots, s.stats.IsExact
  extra : (Json.obj h.extra).Exact
  extra_keys : ∀ e ∈ h.extra, e.1 ∉ ownKeys.map String.toList

/-- The history's own fields. -/
def ownFields (h : History) : List (String × Json) :=
  [("project_path", .str h.projectPath), ("last_scan_at", .moment h.lastScanAt),
    ("git_branch", .str h.branch), ("git_commit", .str h.commit),
    ("git_commit_short", .str h.commitShort), ("total_items", .int h.total),
    ("items_by_status", .dictionary .int h.byStatus),
    ("items_by_type", .dictionary .int h.byKeyword),
    ("items_by_file", .dictionary .int h.byFile),
    ("current_items", .arr (h.tasks.map Task.toJson)),
    ("branch_history", .arr (h.snapshots.map Snapshot.toJson)),
    ("created_at", .moment h.createdAt), ("updated_at", .moment h.updatedAt)]

theorem toJson_eq (h : History) : h.toJson = .obj (Reader.keyed h.ownFields ++ h.extra) := rfl

theorem map_fst_ownFields (h : History) : h.ownFields.map Prod.fst = ownKeys := rfl

/-- A history is read back from its value. -/
theorem read_toJson {h : History} (hextra : ∀ e ∈ h.extra, e.1 ∉ ownKeys.map String.toList) :
    read h.toJson = .valid h := by
  have hsnapshots : Reader.list Snapshot.read (.arr (h.snapshots.map Snapshot.toJson)) =
      .valid h.snapshots := Reader.list_map fun s _ => s.read_toJson
  have hothers : Reader.others ownKeys (Reader.keyed h.ownFields ++ h.extra) = h.extra := by
    refine Reader.others_record (fun e he => ?_) hextra
    rw [← h.map_fst_ownFields]
    exact List.mem_map_of_mem he
  rw [toJson_eq, read, Reader.record, hothers]
  simp only [ownFields, Reader.required_record, Reader.optional_record, List.lookup_cons,
    String.reduceBEq, Reader.text_str, Reader.integer_int, Reader.moment_moment,
    Stats.counts_dictionary, Stats.tasks_map, hsnapshots, Checked.under_valid, Checked.map_valid,
    Checked.valid_seq, Checked.pure_eq]

theorem IsExact.exact_toJson {h : History} (hx : h.IsExact) : h.toJson.Exact := by
  have hown : (Json.record h.ownFields).Exact := by
    refine Json.exact_record (by rw [h.map_fst_ownFields]; decide) ?_
    simp only [ownFields, List.forall_mem_cons, List.not_mem_nil, false_imp_iff, implies_true,
      and_true]
    exact ⟨trivial, trivial, trivial, trivial, trivial, trivial, Json.exact_counts hx.byStatus,
      Json.exact_counts hx.byKeyword, Json.exact_counts hx.byFile,
      Json.exact_arr_map fun t _ => t.exact_toJson,
      Json.exact_arr_map fun s hs => Snapshot.exact_toJson (hx.snapshots s hs), trivial, trivial⟩
  rw [toJson_eq]
  refine ⟨?_, Json.exactFields_iff.2 ?_⟩
  · rw [List.map_append, List.nodup_append]
    refine ⟨hown.1, hx.extra.1, fun k hk l hl hkl => ?_⟩
    obtain ⟨e, he, rfl⟩ := List.mem_map.1 hl
    refine hx.extra_keys e he ?_
    rw [← h.map_fst_ownFields, List.map_map, ← hkl]
    rwa [Reader.keyed, List.map_map] at hk
  · rw [List.forall_mem_append]
    exact ⟨Json.exactFields_iff.1 hown.2, Json.exactFields_iff.1 hx.extra.2⟩

/-- A history is read back from its text. -/
theorem ofText?_toText {h : History} (hx : h.IsExact) : ofText? h.toText = some h := by
  rw [ofText?, toText, Json.finite_of_exact hx.exact_toJson, Json.read?_print hx.exact_toJson,
    Option.bind_some, read_toJson hx.extra_keys]
  rfl

/-- The history with null for the numbers in its extra fields that are not finite. -/
def finite (h : History) : History := { h with extra := Json.finiteFields h.extra }

theorem toText_finite (h : History) : h.finite.toText = h.toText := by
  have hvalue : h.finite.toJson.finite = h.toJson.finite := by
    show Json.obj (Json.finiteFields (_ ++ Json.finiteFields h.extra)) =
      Json.obj (Json.finiteFields (_ ++ h.extra))
    rw [Json.finiteFields_append, Json.finiteFields_append, Json.finiteFields_finiteFields]
    rfl
  rw [toText, toText, hvalue]

/-- From the text of a history, the history with null for such numbers is read. -/
theorem ofText?_toText_finite {h : History} (hx : h.finite.IsExact) :
    ofText? h.toText = some h.finite := by
  rw [← toText_finite, ofText?_toText hx]

end History
end MarkerBoard
