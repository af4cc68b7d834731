import MarkerBoard.Proofs.Disk.Project
import MarkerBoard.Proofs.Disk.Tree

/-!
# Sound disks

On a sound disk, only directories have entries in them, each place has one entry, and no entry is
called by the two dots that lead upwards. So the names that lead from a directory to an entry below
it are a path to the entry, and all changes of the disk leave it sound.

Main results:

* `Disk.IsSound.leads` — the names of an entry lead to it.
* `Disk.IsSound.makePath`, `Disk.IsSound.write` — changes of the disk.
* `Disk.Leads.exists_dir` — a path with further names leads by way of a directory.
-/
namespace MarkerBoard.Disk

variable {d d' : Disk} {lastToo : Bool} {n k : Nat} {at_ p q : Place} {names rest : List Text}
  {node : Node}

/-- Entries are in directories, each place has one, and no name leads upwards. -/
structure IsSound (d : Disk) : Prop where
  tree : d.IsTree
  nodup : (d.entries.map Prod.fst).Nodup
  no_up : ∀ p, d.at? p ≠ none → ['.', '.'] ∉ p

/-- Looking at each entry tells whether a disk is sound. -/
theorem isSound_of_forall (hnodup : (d.entries.map Prod.fst).Nodup)
    (h : ∀ e ∈ d.entries, d.at? e.1.dropLast = some .dir ∧ ['.', '.'] ∉ e.1) : d.IsSound := by
  refine ⟨isTree_of_forall fun e he => (h e he).1, hnodup, fun p hp => ?_⟩
  obtain ⟨node, hnode⟩ := Option.ne_none_iff_exists'.1 hp
  by_cases hnil : p = []
  · rw [hnil]
    exact List.not_mem_nil
  · exact (h _ (mem_entries_of_at? hnode hnil)).2

/-! ## Names of entries -/

/-- The names of an entry below a directory lead to it. -/
theorem IsSound.leads (hd : d.IsSound) (k : Nat) (hat : d.at? (p ++ names) ≠ none) :
    Leads d false k p names (p ++ names) :=
  hd.tree.leads k (fun hmem => hd.no_up _ hat (List.mem_append_right p hmem)) hat

/-- The names of a directory lead to it. -/
theorem IsSound.leads_dir (hd : d.IsSound) (k : Nat) (lastToo : Bool)
    (hat : d.at? (p ++ names) = some .dir) : Leads d lastToo k p names (p ++ names) :=
  (hd.leads k (by rw [hat]; simp)).of_no_link (by rw [hat]; simp) lastToo

/-- The names of a directory are a path to it. -/
theorem IsSound.leads_of_dir (hd : d.IsSound) (hdir : d.at? p = some .dir) :
    Leads d true linkLimit [] (d.absolute ⟨['/'], p⟩).parts p :=
  hd.leads_dir (p := []) linkLimit true hdir

/-! ## Ways by directories -/

/-- A path with further names leads by way of a directory. -/
theorem Leads.exists_dir (hup : ∀ q, d.at? q = some .dir → d.at? q.dropLast = some .dir)
    (hat : d.at? at_ = some .dir) (h : Leads d lastToo n at_ (names ++ rest) p)
    (hrest : rest ≠ []) : ∃ q, d.at? q = some .dir ∧ Leads d true n at_ names q ∧
      ∃ k, Leads d lastToo k q rest p := by
  obtain ⟨q, hway, k, hlast⟩ := h.exists_of_append hrest
  refine ⟨q, ?_, hway, k, hlast⟩
  by_contra hdir
  exact hway.not_append hup hat hdir hrest h

/-- A path leads to a place whose names do not lead upwards. -/
theorem Leads.no_up (h : Leads d lastToo n at_ names p) (hat : ['.', '.'] ∉ at_) :
    ['.', '.'] ∉ p := by
  induction h with
  | here => exact hat
  | up _ ih => exact ih fun hmem => hat ((List.dropLast_sublist _).subset hmem)
  | last n at_ hname _ _ =>
    rw [List.mem_append, List.mem_singleton, not_or]
    exact ⟨hat, Ne.symm hname⟩
  | enter hname _ _ ih =>
    refine ih ?_
    rw [List.mem_append, List.mem_singleton, not_or]
    exact ⟨hat, Ne.symm hname⟩
  | @jump n at_ name rest p target _ _ _ _ ih =>
    refine ih ?_
    rw [linkBase]
    split
    · exact List.not_mem_nil
    · exact hat

/-! ## Changes -/

theorem nodup_putIn {es : List (Place × Node)} (h : (es.map Prod.fst).Nodup) :
    ((putIn p node es).map Prod.fst).Nodup := by
  by_cases hmem : ∃ e ∈ es, e.1 = p
  · rw [map_fst_putIn hmem]
    exact h
  · -- a new entry goes to the end
    have hnew : putIn p node es = es ++ [(p, node)] := by
      induction es with
      | nil => rfl
      | cons e es ih =>
        have he : e.1 ≠ p := fun he => hmem ⟨e, List.mem_cons_self, he⟩
        rw [putIn, if_neg he, ih (List.nodup_cons.1 h).2, List.cons_append]
        rintro ⟨e', he', hp⟩
        exact hmem ⟨e', List.mem_cons_of_mem _ he', hp⟩
    rw [hnew, List.map_append, List.map_singleton, List.nodup_append]
    refine ⟨h, List.nodup_singleton _, ?_⟩
    intro a ha b hb
    obtain ⟨e, he, rfl⟩ := List.mem_map.1 ha
    rw [List.mem_singleton.1 hb]
    exact fun heq => hmem ⟨e, he, heq⟩

/-- The disk stays sound with an entry that is put into a directory. -/
theorem IsSound.put (hd : d.IsSound) (hup : ['.', '.'] ∉ p) (hp : p ≠ [])
    (hdir : d.at? p.dropLast = some .dir) (hnode : node = .dir ∨ d.at? p ≠ some .dir) :
    (d.put p node).IsSound := by
  refine ⟨hd.tree.put hp hdir hnode, nodup_putIn hd.nodup, fun q hq => ?_⟩
  by_cases hpq : p = q
  · rwa [← hpq]
  · rw [at?_put_of_ne hpq] at hq
    exact hd.no_up q hq

/-- The disk stays sound with an entry where a path leads. -/
theorem IsSound.put_of_leads (hd : d.IsSound) (h : Leads d lastToo n [] names p) (hp : p ≠ [])
    (hnode : node = .dir ∨ d.at? p ≠ some .dir) : (d.put p node).IsSound :=
  hd.put (h.no_up List.not_mem_nil) hp (h.dir_dropLast hd.tree (at?_root d)) hnode

theorem IsSound.makeDir {path : Path} (hd : d.IsSound) (h : d.makeDir path = .ok d') :
    d'.IsSound := by
  obtain ⟨place, hway, hnone, rfl⟩ := makeDir_eq_put h
  exact hd.put_of_leads hway (ne_nil_of_at?_eq_none hnone) (.inl rfl)

/-- Making directories leaves the disk sound. -/
theorem IsSound.makePath {refused : Path → Option Text} {path : Path} {r : Except Fault Unit}
    (hd : d.IsSound) (h : d.makePath refused path = (r, d')) : d'.IsSound :=
  of_makePath hd h fun _ _ _ hd h => hd.makeDir h

/-- Writing a file leaves the disk sound. -/
theorem IsSound.write {path : Path} {bytes : List UInt8} (hd : d.IsSound)
    (h : d.write path bytes = .ok d') : d'.IsSound := by
  obtain ⟨place, m, hway, hdir, -, rfl⟩ := write_eq_put h
  exact hd.put_of_leads hway (ne_nil_of_not_dir hdir) (.inr hdir)

end MarkerBoard.Disk
