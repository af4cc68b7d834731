import MarkerBoard.Proofs.Disk.Make

/-!
# Directories stay directories

On a disk on which only directories have entries, a path leads to an entry of a directory. So all
changes of the disk put their entries into directories, and none of them puts a file in the stead of
a directory: the disk stays such a disk.

Main results:

* `Disk.IsTree.put` — an entry that is put into a directory.
* `Disk.IsTree.makePath`, `Disk.IsTree.write`, `Disk.IsTree.replaced` — changes of the disk.
* `Disk.Grows.bytes` — a file keeps its bytes when entries are added.
-/
namespace MarkerBoard.Disk

variable {d d' : Disk} {lastToo : Bool} {n : Nat} {at_ p : Place} {names : List Text} {node : Node}

/-- A path leads to an entry of a directory. -/
theorem Leads.dir_dropLast (h : Leads d lastToo n at_ names p) (hd : d.IsTree)
    (hat : d.at? at_ = some .dir) : d.at? p.dropLast = some .dir := by
  induction h with
  | here n p => exact hd.dir_dropLast hat
  | up _ ih => exact ih (hd.dir_dropLast hat)
  | last n at_ _ _ _ =>
    rw [List.dropLast_concat]
    exact hat
  | enter _ hdir _ ih => exact ih hdir
  | @jump n at_ name rest p target _ _ _ _ ih => exact ih (at?_linkBase hat target)

/-- The disk stays a tree with an entry that is put into a directory, if it is not another
directory that goes for it. -/
theorem IsTree.put (hd : d.IsTree) (hp : p ≠ []) (hdir : d.at? p.dropLast = some .dir)
    (hnode : node = .dir ∨ d.at? p ≠ some .dir) : (d.put p node).IsTree := by
  intro q name hq
  by_cases hpq : p = q ++ [name]
  · have hne : p ≠ q := by
      intro heq
      have := congrArg List.length (heq.symm.trans hpq)
      simp at this
    rw [at?_put_of_ne hne]
    rwa [hpq, List.dropLast_concat] at hdir
  · rw [at?_put_of_ne hpq] at hq
    have hqdir := hd q name hq
    by_cases hpq' : p = q
    · -- what is there now is a directory as before
      subst hpq'
      rw [at?_put_self hp, hnode.resolve_right fun h => h hqdir]
    · rwa [at?_put_of_ne hpq']

theorem IsTree.put_of_leads (hd : d.IsTree) (h : Leads d lastToo n [] names p) (hp : p ≠ [])
    (hnode : node = .dir ∨ d.at? p ≠ some .dir) : (d.put p node).IsTree :=
  hd.put hp (h.dir_dropLast hd (at?_root d)) hnode

theorem IsTree.makeDir {path : Path} (hd : d.IsTree) (h : d.makeDir path = .ok d') :
    d'.IsTree := by
  obtain ⟨place, hway, hnone, rfl⟩ := makeDir_eq_put h
  exact hd.put_of_leads hway (ne_nil_of_at?_eq_none hnone) (.inl rfl)

/-- Making directories leaves the disk a tree. -/
theorem IsTree.makePath {refused : Path → Option Text} {path : Path} {r : Except Fault Unit}
    (hd : d.IsTree) (h : d.makePath refused path = (r, d')) : d'.IsTree :=
  of_makePath hd h fun _ _ _ hd h => hd.makeDir h

/-- Writing a file leaves the disk a tree. -/
theorem IsTree.write {path : Path} {bytes : List UInt8} (hd : d.IsTree)
    (h : d.write path bytes = .ok d') : d'.IsTree := by
  obtain ⟨place, m, hway, hdir, -, rfl⟩ := write_eq_put h
  exact hd.put_of_leads hway (ne_nil_of_not_dir hdir) (.inr hdir)

/-- Replacing a file leaves the disk a tree. -/
theorem IsTree.replaced {w : World} {target : Path} {keepMode : Bool} {old bytes : List UInt8}
    (hd : w.disk.IsTree) (hold : w.disk.bytes target = .ok old)
    (h : Action.replaced w target keepMode bytes = .ok d') : d'.IsTree := by
  obtain ⟨place, mode, hway, hdir, rfl⟩ := Action.replaced_eq_put hold h
  exact hd.put_of_leads hway (ne_nil_of_not_dir hdir) (.inr hdir)

/-- A file keeps its bytes when entries are added to the disk, but no links. -/
theorem Grows.bytes {new : Node → Prop} {path : Path} {b : List UInt8} (h : Grows new d d')
    (hnew : ∀ t, ¬ new (.link t)) (hb : d.bytes path = .ok b) : d'.bytes path = .ok b := by
  obtain ⟨place, m, hway, hat⟩ := Action.exists_of_bytes hb
  refine Action.bytes_of_leads ?_ (h.at?_of_some hat)
  rw [absolute, h.here]
  exact hway.extend (h.toExtends hnew) (by rw [hat]; simp)

end MarkerBoard.Disk
