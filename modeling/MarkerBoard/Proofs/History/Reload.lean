import MarkerBoard.Proofs.History.Run

/-!
# A history written and loaded

A history that has been written is loaded as it was: its counts in their order, its moments with
their offsets, and the fields of other programs. So writing it again changes nothing in the file.

This rests on the text of the history (`History.ofText?_toText`) and on where a replaced file is
found. Of the world before, nothing is asked, not even what the name of the file stood for: a file,
a link or nothing.

Main results:

* `HistoryStore.has_of_replaced` — where the new file is, if the store still has its directory.
* `HistoryStore.load_of_write` — a history that has been written is loaded, and its bytes last.
-/
namespace MarkerBoard.HistoryStore

open Disk

variable {s : HistoryStore} {d' : Disk} {w w' : World} {h : History}

/-- A replaced file is in the directory of the store, if that still is one. -/
theorem has_of_replaced {keepMode : Bool} {bytes : List UInt8}
    (hrep : Action.replaced w s.file keepMode bytes = .ok d') (hdir : d'.isDir s.dir = true) :
    ∃ m, s.Has d' (some (.file bytes m)) := by
  obtain ⟨tp, tq, mode, hnone, hleads, hnot, rfl⟩ := Action.replaced_eq_ok hrep
  have hnew : (w.disk.put tq (.file bytes mode)).at? tq = some (.file bytes mode) :=
    at?_put_self (ne_nil_of_not_dir hnot)
  obtain ⟨dir, hway, hat⟩ := isDir_iff.1 hdir
  have hne : tq ≠ dir := by
    rintro rfl
    rw [hnew] at hat
    cases hat
  -- the way to the directory does not lead through files, so it was there before
  have hway₀ : Leads w.disk true linkLimit [] (w.disk.absolute s.dir).parts dir :=
    hway.of_put_file (Ne.symm hne)
  rw [at?_put_of_ne hne] at hat
  have hway₁ := hway₀.extend (extends_put_of_none (b := bytes) (m := mode) hnone)
    (by rw [hat]; simp)
  -- and the file has been put where the way of its own path ended, which is the same
  have hparts : (w.disk.absolute s.file).parts = (w.disk.absolute s.dir).parts ++ [fileName] := by
    rw [file_eq, absolute_filePath]
  rw [hparts] at hleads
  obtain ⟨dir', hdir', k, hlast⟩ := hleads.exists_of_append (by simp)
  have htq : tq = dir' ++ [fileName] := hlast.eq_of_entry (by decide)
  rw [hdir'.unique hway₁] at htq
  refine ⟨mode, dir, hway, ?_, ?_⟩
  · rwa [at?_put_of_ne hne]
  · rw [← htq, hnew]

/-- A history that has been written is loaded as it was, and nothing else is in the file. Whatever
is loaded then, now or in other surroundings, is written with the same bytes again.

The directory of the store is assumed to be there after the write. It goes with it only if its own
path leads through a link that the write replaces. -/
theorem load_of_write (hx : h.IsExact) (hwrite : s.write h w = (.ok (), w'))
    (hdir : w'.disk.isDir s.dir = true) :
    s.load w' = (.ok (some h), w') ∧ w'.disk.bytes s.file = .ok (Utf8.encode h.toText) ∧
      ∀ (o : Surroundings) (g : History) (w₁ w₂ : World),
        s.load (w'.within o) = (.ok (some g), w₁) → s.write g w₁ = (.ok (), w₂) →
          w₂.disk.bytes s.file = w'.disk.bytes s.file := by
  obtain ⟨d', hrep, rfl⟩ := exists_of_write hwrite
  obtain ⟨m, hhas⟩ := has_of_replaced hrep hdir
  refine ⟨load_of_has hx hhas, hhas.bytes, fun o g w₁ w₂ hload hagain => ?_⟩
  -- what is loaded is the history, so the same text is put in the place of the file
  have hsame : s.load (World.within { w with disk := d' } o) =
      (.ok (some h), World.within { w with disk := d' } o) :=
    load_of_has (w := World.within { w with disk := d' } o) hx hhas
  cases hsame.symm.trans hload
  obtain ⟨d'', hrep', rfl⟩ := exists_of_write hagain
  obtain ⟨m', hhas'⟩ :=
    Has.replace (w := World.within { w with disk := d' } o) hhas (by simp) hrep'
  exact hhas'.bytes.trans hhas.bytes.symm

/-! ## A history with all kinds of values -/

/-- A moment in a zone, to the microsecond. -/
def sampleMoment : Moment := ⟨2024, 2, 29, 23, 59, 58, 7, some (-330), by decide⟩

/-- A task that is done. -/
def sampleTask : Task where
  id := -3
  keyword := "TODO".toList
  title := "say \"ü\\\"\t".toList
  file := "a/b.py".toList
  line := 12
  status := "done".toList
  priority := .high
  isDone := true
  doneAt := some sampleMoment
  doneBy := some []
  hash := "0f".toList

/-- A history with counts in an order of their own, a snapshot, and a field of another program. -/
def sampleFull : History where
  projectPath := "/p\n".toList
  lastScanAt := sampleMoment
  branch := "main".toList
  commit := "0f".toList
  commitShort := []
  total := 10 ^ 30
  byStatus := [("b".toList, 2), ("a".toList, -1)]
  byKeyword := []
  byFile := [([], 0)]
  tasks := [sampleTask]
  snapshots := [⟨"main".toList, "0f".toList, [], "x".toList, .first,
    ⟨1, [("b".toList, 1), ("a".toList, 0)], [], [], [sampleTask]⟩⟩]
  createdAt := .first
  updatedAt := sampleMoment
  extra := [("note".toList, .obj [("z".toList, .arr [.null, .int 7, .bool true]),
    ("a".toList, .str "é".toList)])]

theorem isExact_sampleFull : sampleFull.IsExact := by
  refine ⟨by decide, by decide, by decide, ?_, ?_, by decide⟩
  · intro s hs
    rw [List.mem_singleton.1 hs]
    exact ⟨by decide, by decide, by decide⟩
  · refine ⟨by decide, ⟨by decide, ?_⟩, trivial⟩
    exact ⟨⟨trivial, trivial, trivial, trivial⟩, trivial, trivial⟩

theorem load_of_write_sampleFull :
    ∃ w', sampleStore.write sampleFull (sampleWorld none) = (.ok (), w') ∧
      sampleStore.load w' = (.ok (some sampleFull), w') ∧
      w'.disk.bytes sampleStore.file = .ok (Utf8.encode sampleFull.toText) ∧
      ∀ (o : Surroundings) (g : History) (w₁ w₂ : World),
        sampleStore.load (w'.within o) = (.ok (some g), w₁) →
          sampleStore.write g w₁ = (.ok (), w₂) →
            w₂.disk.bytes sampleStore.file = w'.disk.bytes sampleStore.file := by
  have hwrite : sampleStore.write sampleFull (sampleWorld none) =
      (.ok (), sampleWorld (some (Utf8.encode sampleFull.toText))) :=
    write_of_ok (replaced_sampleWorld none _)
  exact ⟨_, hwrite, load_of_write isExact_sampleFull hwrite (isDir_sampleWorld _)⟩

end MarkerBoard.HistoryStore
