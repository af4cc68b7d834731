import MarkerBoard.Proofs.History.Text
import MarkerBoard.Proofs.Json.Regular

/-!
# Histories that are read

Whatever text a history is read from, its counts have one entry for each key, because the objects
in the text have. So it can be written and read again, and is then as it was, but for the numbers
in its extra fields that are not finite.

Main results:

* `Json.Regular.exact_finite` — the same of any value that is read.
* `History.isExact_of_ofText?` — a history that is read can be written and read again.
-/
namespace MarkerBoard

/-- Without the numbers that are not finite, a regular value can be written and read. -/
theorem Json.Regular.exact_finite {v : Json} (h : v.Regular) : v.finite.Exact := by
  induction h with
  | null | bool | int | str => trivial
  | @float x hx =>
    cases x with
    | nan | infinite => trivial
    | finite => exact hx
  | arr _ ih =>
    refine exactList_iff.2 ?_
    rw [finiteList_eq_map, List.forall_mem_map]
    exact ih
  | obj hkeys _ ih =>
    refine ⟨?_, exactFields_iff.2 ?_⟩
    · rw [finiteFields_eq_map, List.map_map]
      exact hkeys
    · rw [finiteFields_eq_map, List.forall_mem_map]
      exact ih

namespace Stats

theorem nodup_of_counts {v : Json} (hv : v.Regular) {m : Keyed Int} (h : counts v = .valid m) :
    (m.map Prod.fst).Nodup := by
  obtain ⟨fields, rfl, hkeys⟩ := Reader.exists_of_dictionary h
  rw [hkeys]
  exact hv.fields.1

/-- Counts in a field of a record, with none by default. -/
theorem nodup_of_optional {key : String} {fields : Keyed Json} (hfields : Json.RegularFields fields)
    {m : Keyed Int} (h : Reader.optional key counts [] fields = .valid m) :
    (m.map Prod.fst).Nodup := by
  rcases Reader.exists_of_optional h with rfl | ⟨v, hv, h⟩
  · exact List.nodup_nil
  · exact nodup_of_counts (hfields.2 _ hv) h

theorem isExact_of_read {v : Json} (hv : v.Regular) {s : Stats} (h : read v = .valid s) :
    s.IsExact := by
  cases v with
  | obj fields =>
    simp only [read, Reader.record, Checked.seq_eq_valid_iff, Checked.map_eq_valid_iff] at h
    obtain ⟨_, ⟨_, ⟨_, ⟨_, ⟨total, -, rfl⟩, byStatus, hstatus, rfl⟩, byKeyword, hkeyword, rfl⟩,
      byPriority, hpriority, rfl⟩, tasks, -, rfl⟩ := h
    exact ⟨nodup_of_optional hv.fields hstatus, nodup_of_optional hv.fields hkeyword,
      nodup_of_optional hv.fields hpriority⟩
  | _ => cases h

end Stats

namespace Snapshot

theorem isExact_of_read {v : Json} (hv : v.Regular) {s : Snapshot} (h : read v = .valid s) :
    s.stats.IsExact := by
  cases v with
  | obj fields =>
    simp only [read, Reader.record, Checked.seq_eq_valid_iff, Checked.map_eq_valid_iff] at h
    obtain ⟨_, ⟨_, ⟨_, ⟨_, ⟨_, ⟨branch, -, rfl⟩, commit, -, rfl⟩, commitShort, -, rfl⟩, message, -,
      rfl⟩, time, -, rfl⟩, stats, hstats, rfl⟩ := h
    rcases Reader.exists_of_optional hstats with rfl | ⟨u, hu, hstats⟩
    · exact ⟨List.nodup_nil, List.nodup_nil, List.nodup_nil⟩
    · exact Stats.isExact_of_read (hv.fields.2 _ hu) hstats
  | _ => cases h

end Snapshot

namespace History

theorem isExact_of_read {v : Json} (hv : v.Regular) {h : History} (hread : read v = .valid h) :
    h.finite.IsExact := by
  cases v with
  | obj fields =>
    simp only [read, Reader.record, Checked.seq_eq_valid_iff, Checked.map_eq_valid_iff,
      Checked.pure_eq] at hread
    obtain ⟨_, ⟨_, ⟨_, ⟨_, ⟨_, ⟨_, ⟨_, ⟨_, ⟨_, ⟨_, ⟨_, ⟨_, ⟨_, ⟨projectPath, -, rfl⟩, lastScanAt, -,
      rfl⟩, branch, -, rfl⟩, commit, -, rfl⟩, commitShort, -, rfl⟩, total, -, rfl⟩, byStatus,
      hstatus, rfl⟩, byKeyword, hkeyword, rfl⟩, byFile, hfile, rfl⟩, tasks, -, rfl⟩, snapshots,
      hsnapshots, rfl⟩, createdAt, -, rfl⟩, updatedAt, -, rfl⟩, extra, hothers, rfl⟩ := hread
    cases hothers
    have hstats : ∀ s ∈ snapshots, s.stats.IsExact := by
      intro s hs
      rcases Reader.exists_of_optional hsnapshots with rfl | ⟨u, hu, hlist⟩
      · exact absurd hs List.not_mem_nil
      · obtain ⟨vs, rfl, hvs⟩ := Reader.exists_of_list hlist
        obtain ⟨w, hw, hs⟩ := hvs s hs
        exact Snapshot.isExact_of_read ((hv.fields.2 _ hu).elements w hw) hs
    -- the extra fields are those of the record that have other keys
    have hextra : (Json.obj (Reader.others ownKeys fields)).Regular := by
      refine .obj (hv.fields.1.sublist (List.filter_sublist.map _)) fun e he => ?_
      exact hv.fields.2 e (List.mem_of_mem_filter he)
    refine ⟨Stats.nodup_of_optional hv.fields hstatus, Stats.nodup_of_optional hv.fields hkeyword,
      Stats.nodup_of_optional hv.fields hfile, hstats, hextra.exact_finite, ?_⟩
    show ∀ e ∈ Json.finiteFields (Reader.others ownKeys fields), e.1 ∉ ownKeys.map String.toList
    rw [Json.finiteFields_eq_map, List.forall_mem_map]
    intro e he
    simpa using (List.mem_filter.1 he).2
  | _ => cases hread

/-- A history that is read can be written and read again, but for the numbers that are not
finite. -/
theorem isExact_of_ofText? {t : Text} {h : History} (hread : ofText? t = some h) :
    h.finite.IsExact := by
  rw [ofText?, Option.bind_eq_some_iff] at hread
  obtain ⟨v, hv, hread⟩ := hread
  cases hr : read v with
  | valid g =>
    rw [hr] at hread
    cases hread
    exact isExact_of_read (Json.regular_of_read? hv) hr
  | invalid issues =>
    rw [hr] at hread
    cases hread

end History
end MarkerBoard
