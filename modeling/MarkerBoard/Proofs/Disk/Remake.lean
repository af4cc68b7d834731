import MarkerBoard.Proofs.Disk.Sound

/-!
# Directories and files that are made again

What has been made is there, so that making it again does nothing. This could only fail for a
directory whose path goes through a link: a file that takes the place of the link leaves the path
with an end, or in the middle of nowhere, and then the directory can neither be found nor be made.
A directory that could not be made cannot be made again, though this may fail for another reason
once those above it are there.

Main results:

* `Disk.isDir_of_makePath_put` — a directory that can be made after a file has been put was there
  all the time.
* `Disk.makePath_again` — a directory that could not be made.
* `Disk.contains_of_write` — a file that has been written is there.
-/
namespace MarkerBoard.Disk

variable {d d' e : Disk} {n k : Nat} {at_ p q tq : Place} {names : List Text} {b : List UInt8}
  {m : Nat} {path : Path}

/-- A path to a directory does not go through a place at which a file is put, if it still leads to a
directory when further directories have been made. -/
theorem Leads.put_file_of_grows (h : Leads d true n at_ names p) (hp : d.at? p = some .dir)
    (hnil : tq ≠ []) (hnot : d.at? tq ≠ some .dir)
    (hgrows : Grows (· = .dir) (d.put tq (.file b m)) e) (hq : Leads e true k at_ names q)
    (hdir : e.at? q = some .dir) : Leads (d.put tq (.file b m)) true n at_ names p := by
  have hfile : e.at? tq = some (.file b m) := hgrows.at?_of_some (at?_put_self hnil)
  have hsame : ∀ {r : Place} {node : Node}, d.at? r = some node → r ≠ tq →
      (d.put tq (.file b m)).at? r = some node ∧ e.at? r = some node := by
    intro r node hr hne
    have hput : (d.put tq (.file b m)).at? r = some node := by rwa [at?_put_of_ne (Ne.symm hne)]
    exact ⟨hput, hgrows.at?_of_some hput⟩
  induction h generalizing k with
  | here n p => exact .here n p
  | up _ ih => exact .up (ih hp (leads_up_iff.1 hq))
  | last n at_ _ _ hnodir => exact absurd hp hnodir
  | enter hname hat _ ih =>
    obtain ⟨hput, hat'⟩ := hsame hat fun htq => hnot (htq ▸ hat)
    exact .enter hname hput (ih hp ((leads_enter_iff hname hat').1 hq))
  | @jump n at_ name rest p target hname hlink hrest _ ih =>
    by_cases htq : at_ ++ [name] = tq
    · -- the link has been replaced by the file, and there the way ends
      rw [← htq] at hfile
      obtain ⟨-, rfl⟩ := hq.eq_of_stop hname (by rw [hfile]; simp) (by rw [hfile]; simp)
      cases hfile.symm.trans hdir
    · obtain ⟨hput, hlink'⟩ := hsame hlink htq
      obtain ⟨k, -, hq⟩ := (leads_jump_iff hname hlink' hrest).1 hq
      exact .jump hname hput hrest (ih hp hq)

variable {refused : Path → Option Text}

/-- A directory that can be made after a file has been put somewhere was there before that, and then
it is there still. -/
theorem isDir_of_makePath_put (hisDir : d.isDir path = true) (hnil : tq ≠ [])
    (hnot : d.at? tq ≠ some .dir)
    (hmake : (d.put tq (.file b m)).makePath refused path = (.ok (), e)) :
    (d.put tq (.file b m)).isDir path = true := by
  obtain ⟨place, hway, hdir⟩ := isDir_iff.1 hisDir
  have hgrows := grows_makePath hmake
  obtain ⟨q, hq, hqdir⟩ := isDir_iff.1 (isDir_of_makePath hmake)
  have habsolute : e.absolute path = d.absolute path := by
    rw [absolute, absolute, hgrows.here]
    rfl
  rw [habsolute] at hq
  refine isDir_iff.2 ⟨place, hway.put_file_of_grows hdir hnil hnot hgrows hq hqdir, ?_⟩
  rw [at?_put_of_ne]
  · exact hdir
  · rintro rfl
    exact hnot hdir

/-! ## Directories that could not be made -/

theorem eq_of_makeDirHere_error {p : Path} {f : Fault}
    (h : d.makeDirHere refused p = (.error f, d')) : d' = d := by
  obtain ⟨d₁, -, heq⟩ | ⟨-, heq⟩ | ⟨f', -, heq⟩ := makeDirHere_cases refused d p
  · cases heq.symm.trans h
  · cases heq.symm.trans h
  · cases heq.symm.trans h
    rfl

/-- A path to a directory does not end in the middle of nowhere after a file has been put
somewhere: it leads to an entry still, or it is stuck at the file. -/
theorem Leads.follow_put_file (h : Leads d true n at_ names p) (hp : d.at? p = some .dir)
    (hnil : tq ≠ []) (hnot : d.at? tq ≠ some .dir) :
    (d.put tq (.file b m)).follow false n at_ names ≠ .error .missing := by
  induction h with
  | here n p => simp [follow]
  | up _ ih =>
    rw [follow, if_pos rfl]
    exact ih hp
  | last n at_ _ _ hnodir => exact absurd hp hnodir
  | enter hname hat _ ih =>
    have hne := fun htq => hnot ((congrArg d.at? htq).trans hat)
    rw [follow, if_neg hname, at?_put_of_ne hne, hat]
    exact ih hp
  | @jump n at_ name rest p target hname hlink hrest _ ih =>
    rw [follow, if_neg hname]
    by_cases htq : tq = at_ ++ [name]
    · rw [← htq, at?_put_self hnil]
      dsimp only
      split <;> simp
    · rw [at?_put_of_ne htq, hlink]
      dsimp only
      split
      · simp
      · exact ih hp

/-- When a directory is gone since a file has been put somewhere, trying to make it again makes
none of those above it. -/
theorem eq_of_makePath_put {f : Fault} (hisDir : d.isDir path = true) (hnil : tq ≠ [])
    (hnot : d.at? tq ≠ some .dir)
    (hmake : (d.put tq (.file b m)).makePath refused path = (.error f, e)) :
    e = d.put tq (.file b m) := by
  obtain ⟨place, hway, hdir⟩ := isDir_iff.1 hisDir
  have hstuck := hway.follow_put_file (b := b) (m := m) hdir hnil hnot
  rw [makePath] at hmake
  split at hmake
  · next q hmissing =>
    -- directories above it are made only if the path ends in the middle of nowhere
    refine absurd ?_ hstuck
    rw [makeDir, locateEntry] at hmissing
    show (d.put tq (.file b m)).follow false linkLimit []
      ((d.put tq (.file b m)).absolute path).parts = _
    cases hfollow : (d.put tq (.file b m)).follow false linkLimit []
        ((d.put tq (.file b m)).absolute path).parts with
    | error kind =>
      rw [hfollow] at hmissing
      cases hmissing
      rfl
    | ok place =>
      rw [hfollow] at hmissing
      dsimp only [Except.mapError, bind, Except.bind] at hmissing
      split at hmissing
      · cases hmissing
      · cases hmissing
  · exact eq_of_makeDirHere_error hmake

/-- A path that leads to an entry does so by way of a directory. -/
theorem isDir_of_leads_entry (hd : d.IsTree) {root : Path} {name : Text} {place : Place}
    (hway : Leads d lastToo linkLimit [] (d.absolute (filePath root [name])).parts place) :
    d.isDir root = true := by
  rw [absolute_filePath] at hway
  obtain ⟨dir, hdir, hway, -⟩ := hway.exists_dir (fun _ => hd.dir_dropLast) (at?_root d) (by simp)
  exact isDir_iff.2 ⟨dir, hway, hdir⟩

theorem filePath_parent {p : Path} (hp : p.parts ≠ []) :
    filePath p.parent [p.parts.getLast hp] = p := by
  rw [filePath, Path.parent, List.dropLast_append_getLast hp]

theorem isDir_parent_of_leads (hd : d.IsTree) {p : Path} (hp : p.parts ≠ []) {place : Place}
    (hway : Leads d lastToo linkLimit [] (d.absolute p).parts place) : d.isDir p.parent = true := by
  rw [← filePath_parent hp] at hway
  exact isDir_of_leads_entry hd hway

/-- Where there is no directory, none can be made in it. -/
theorem makeDirHere_of_parent (hd : d.IsTree) {p : Path} (hp : p.parts ≠ [])
    (hparent : d.isDir p.parent = false) : ∃ f, d.makeDirHere refused p = (.error f, d) := by
  obtain ⟨d', hmake, -⟩ | ⟨hdir, -⟩ | ⟨f, -, hf⟩ := makeDirHere_cases refused d p
  · rw [makeDir, Steps.except_bind_ok_iff] at hmake
    obtain ⟨place, hplace, -⟩ := hmake
    cases hparent.symm.trans (isDir_parent_of_leads hd hp (locateEntry_eq_ok_iff.1 hplace))
  · obtain ⟨place, hway, -⟩ := isDir_iff.1 hdir
    cases hparent.symm.trans (isDir_parent_of_leads hd hp hway)
  · exact ⟨f, hf⟩

/-- A directory that could not be made cannot be made now either, and nothing is made any more. -/
theorem makePath_again {f : Fault} (hd : d.IsTree)
    (h : d.makePath refused path = (.error f, d')) :
    ∃ f', d'.makePath refused path = (.error f', d') := by
  fun_induction makePath refused d path with
  | case1 p q hmake hnil =>
    cases h
    exact ⟨_, by rw [makePath, hmake]; exact dif_pos hnil⟩
  | case2 p q hmake hnil d₁ hparent ih =>
    -- those above it are there, and the directory itself still cannot be made
    have hdir := isDir_of_makePath hparent
    obtain rfl := eq_of_makeDirHere_error h
    rw [makePath]
    split
    · rw [dif_neg hnil, makePath_of_isDir hdir]
      exact ⟨f, h⟩
    · exact ⟨f, h⟩
  | case3 p q hmake hnil f₁ d₁ hparent ih =>
    cases h
    obtain ⟨f', hagain⟩ := ih hparent
    have hdir : d'.isDir p.parent = false := Bool.eq_false_iff.2 fun hdir => by
      cases (makePath_of_isDir hdir refused).symm.trans hagain
    rw [makePath]
    split
    · rw [dif_neg hnil, hagain]
      exact ⟨f', rfl⟩
    · exact makeDirHere_of_parent (hd.makePath hparent) hnil hdir
  | case4 p hmissing =>
    obtain rfl := eq_of_makeDirHere_error h
    rw [makePath]
    split
    · next q hmake => exact absurd hmake (hmissing q)
    · exact ⟨f, h⟩

/-- A file that has been written where no path led to anything is there. -/
theorem contains_of_write (hnew : d.contains path = false) (hwrite : d.write path b = .ok d') :
    d'.contains path = true := by
  obtain ⟨place, hway, hnone, rfl⟩ := exists_put_of_write hnew hwrite
  replace hway := hway.put_file (b := b) (m := newFileMode) (by rw [hnone]; simp)
    (by rw [hnone]; simp)
  rw [contains, node?_of_leads hway, at?_put_self (ne_nil_of_at?_eq_none hnone)]
  rfl

end MarkerBoard.Disk
