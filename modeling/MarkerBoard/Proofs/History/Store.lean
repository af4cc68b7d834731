import Mathlib
import MarkerBoard.Proofs.Disk.Make
import MarkerBoard.Proofs.Disk.Project
import MarkerBoard.Proofs.History.Record
import MarkerBoard.Proofs.Moment.Span
import MarkerBoard.Proofs.World

/-!
# The file of a history

What the operations on a store do to the disk: making the directory only adds entries, writing puts
the text of the history into the directory, and loading finds there the history that was written.

Main results:

* `HistoryStore.Has.replace` — writing puts the text where loading looks for it.
* `HistoryStore.load_of_has` — a history that was written is loaded.
* `HistoryStore.load_of_vacant` — without a history there is none to load.
* `HistoryStore.initialise_of_makePath` — making the directory, with the file beside it.
* `HistoryStore.cleanup_eq` — dropping old snapshots, with every outcome.
* `HistoryStore.exists_of_initialise`, `HistoryStore.exists_of_save`,
  `HistoryStore.exists_of_cleanup` — the steps of operations that succeed.
-/
namespace MarkerBoard.HistoryStore

open Disk

variable {s : HistoryStore} {d d' : Disk} {w w' : World} {h : History}

/-- The name of the file. -/
def fileName : Text := "items_history.json".toList

theorem file_eq (s : HistoryStore) : s.file = filePath s.dir [fileName] := by
  have hname : Path.ofText "items_history.json".toList = ⟨[], [fileName]⟩ := by decide
  rw [file, Path.child, hname]
  rfl

/-- The place of the history, read off the links on a disk. -/
def place (s : HistoryStore) (d : Disk) : Place := (d.resolve s.dir).parts ++ [fileName]

/-! ## What is in the directory -/

/-- The directory of the store is there, and in it an entry, or none, for the history. -/
def Has (s : HistoryStore) (d : Disk) (entry : Option Node) : Prop :=
  ∃ dir, Leads d true linkLimit [] (d.absolute s.dir).parts dir ∧ d.at? dir = some .dir ∧
    d.at? (dir ++ [fileName]) = entry

theorem Has.bytes {bytes : List UInt8} {m : Nat} (hs : s.Has d (some (.file bytes m))) :
    d.bytes s.file = .ok bytes := by
  obtain ⟨dir, hway, hdir, hat⟩ := hs
  obtain ⟨k, -, hk⟩ := hway.append_iff hdir
  refine Action.bytes_of_leads ?_ hat
  rw [file_eq, absolute_filePath, hk true _ _ (by simp)]
  exact .last k dir (by decide) (fun t ht => by rw [hat] at ht; cases ht) (by rw [hat]; simp)

/-- A disk that grows keeps what is there. -/
theorem Has.grows {new : Node → Prop} {n : Node} (hs : s.Has d (some n)) (hgrows : Grows new d d')
    (hnew : ∀ t, ¬ new (.link t)) : s.Has d' (some n) := by
  obtain ⟨dir, hway, hdir, hat⟩ := hs
  refine ⟨dir, ?_, hgrows.at?_of_some hdir, hgrows.at?_of_some hat⟩
  rw [absolute, hgrows.here]
  exact hway.extend (hgrows.toExtends hnew) (by rw [hdir]; simp)

/-- Writing puts the text where loading looks for it, unless there is a link. -/
theorem Has.replace {entry : Option Node} {keepMode : Bool} {bytes : List UInt8}
    (hs : s.Has w.disk entry) (hlink : ∀ t, entry ≠ some (.link t))
    (hrep : Action.replaced w s.file keepMode bytes = .ok d') :
    ∃ m, s.Has d' (some (.file bytes m)) := by
  obtain ⟨dir, hway, hdir, hat⟩ := hs
  obtain ⟨tp, tq, mode, hnone, hleads, hnot, rfl⟩ := Action.replaced_eq_ok hrep
  have htemp : Grows (∃ m, · = .file bytes m) w.disk (w.disk.put tp (.file bytes mode)) :=
    grows_put hnone ⟨mode, rfl⟩
  have hnolink : ∀ t, ¬ ∃ m, Node.link t = .file bytes m := by simp
  obtain ⟨k, -, hk⟩ := (hway.extend (htemp.toExtends hnolink) (by rw [hdir]; simp)).append_iff
    (htemp.at?_of_some hdir)
  -- the path led to the entry, and no link did
  have htq : tq = dir ++ [fileName] := by
    have hparts : (w.disk.absolute s.file).parts = (w.disk.absolute s.dir).parts ++ [fileName] := by
      rw [file_eq, absolute_filePath]
    rw [hparts, hk false _ _ (by simp)] at hleads
    refine hleads.eq_of_single (by decide) fun t ht => ?_
    rw [htemp.link_iff hnolink, hat] at ht
    exact hlink t ht
  subst htq
  -- putting the file there leaves the way to the directory
  have hext : Extends (w.disk.put (dir ++ [fileName]) (.file bytes mode)) w.disk := by
    refine extends_put (by simp) fun n hn => ?_
    cases n with
    | file b m => exact ⟨b, m, rfl⟩
    | dir => exact absurd (htemp.at?_of_some hn) hnot
    | link t => exact absurd (hat.symm.trans hn) (hlink t)
  refine ⟨mode, dir, ?_, hext.dir _ hdir, at?_put_self (by simp)⟩
  exact hway.extend hext (by rw [hdir]; simp)

/-! ## Loading -/

/-- A history that was written is loaded. -/
theorem load_of_has {m : Nat} (hx : h.IsExact)
    (hs : s.Has w.disk (some (.file (Utf8.encode h.toText) m))) :
    s.load w = (.ok (some h), w) := by
  rw [load, Steps.bind_of_ok (Action.readText_of_ok hs.bytes)]
  simp only [History.ofText?_toText hx]
  rfl

/-- The entries that making the directory adds. -/
def IsAdded (n : Node) : Prop := n = .dir ∨ ∃ m, n = .file (Utf8.encode ignoreText) m

theorem not_isAdded_link (t : Text) : ¬ IsAdded (.link t) := by
  rintro (h | ⟨m, h⟩)
  · cases h
  · cases h

/-- The path of the history leads to no file, unless to the one beside it. -/
def IsVacant (s : HistoryStore) (d : Disk) : Prop :=
  ∀ bytes, d.bytes s.file = .ok bytes → bytes = Utf8.encode ignoreText

/-- Without a history there is none to load. -/
theorem load_of_vacant (hs : s.IsVacant w.disk) :
    ∃ log, s.load w = (.ok none, { w with log }) := by
  cases hbytes : w.disk.bytes s.file with
  | error f =>
    rw [load, Steps.bind_of_ok (Action.readText_of_error hbytes)]
    rcases f with ⟨kind, path⟩ | _ | _
    · cases kind <;> exact ⟨_, rfl⟩
    · exact ⟨_, rfl⟩
    · exact ⟨_, rfl⟩
  | ok bytes =>
    rw [hs bytes hbytes] at hbytes
    have hnone : History.ofText? ignoreText = none := by cbv
    rw [load, Steps.bind_of_ok (Action.readText_of_ok hbytes)]
    simp only [hnone]
    exact ⟨_, rfl⟩

/-- If nothing is at the place of the history, there is no history, also after the directory has
been made. -/
theorem isVacant_of_grows (hplace : d.at? (s.place d) = none) (hgrows : Grows IsAdded d d') :
    s.IsVacant d' := by
  intro bytes hbytes
  obtain ⟨p, m, hway, hat⟩ := Action.exists_of_bytes hbytes
  rw [file_eq, absolute_filePath] at hway
  obtain ⟨dir, hdir, k, hlast⟩ := hway.exists_of_append (by simp)
  have hlinks := hgrows.link_iff not_isAdded_link
  have hresolve : s.place d = dir ++ [fileName] := by
    have habsolute : d'.absolute s.dir = d.absolute s.dir := by
      rw [absolute, absolute, hgrows.here]
    rw [place, resolve, ← habsolute, resolveFrom_of_leads hdir hlinks]
  rw [hresolve] at hplace
  -- so the path leads to that place, and what is there has been added
  have hp : p = dir ++ [fileName] := by
    refine hlast.eq_of_single (by decide) fun t ht => ?_
    rw [hlinks, hplace] at ht
    cases ht
  rw [← hp] at hplace
  rcases hgrows.old_or_new hat with hold | hdir | ⟨m', hfile⟩
  · cases hplace.symm.trans hold
  · cases hdir
  · cases hfile
    rfl

/-- If nothing is at the place of the history, there is none to load. -/
theorem load_of_place (hplace : w.disk.at? (s.place w.disk) = none) :
    ∃ log, s.load w = (.ok none, { w with log }) :=
  load_of_vacant (isVacant_of_grows hplace (.refl _ _))

/-! ## Operations that succeed -/

theorem initialise_of_makePath_error {f : Disk.Fault}
    (hmake : w.disk.makePath w.refusals.makeDirectory s.dir = (.error f, d)) :
    s.initialise w = (.error (.historyUnwritable s.dir f), { w with disk := d }) := by
  rw [initialise, Steps.bind_of_ok Steps.get_apply, hmake]
  dsimp only
  rw [Steps.bind_of_ok (Steps.modify_apply _)]
  rfl

/-- When the directories have been made, the ignore file is written, if it is missing. When that
fails the operation goes on. -/
theorem initialise_of_makePath
    (hmake : w.disk.makePath w.refusals.makeDirectory s.dir = (.ok (), d)) :
    s.initialise w = (.ok (), if d.contains s.ignoreFile then { w with disk := d } else
      match d.write s.ignoreFile (Utf8.encode ignoreText) with
      | .ok d' => { w with disk := d' }
      | .error _ => { w with disk := d, log := w.log ++ [.warning] }) := by
  rw [initialise, Steps.bind_of_ok Steps.get_apply, hmake]
  dsimp only
  rw [Steps.bind_of_ok (Steps.modify_apply _)]
  cases d.contains s.ignoreFile with
  | true => rfl
  | false => cases d.write s.ignoreFile (Utf8.encode ignoreText) <;> rfl

/-- Making the directory fails because that cannot be written, with those above it that have been
made, or the directories are made first, and then the ignore file, if it is missing. -/
theorem initialise_cases (s : HistoryStore) (w : World) :
    (∃ f d, s.initialise w = (.error (.historyUnwritable s.dir f), { w with disk := d }) ∧
      w.disk.makePath w.refusals.makeDirectory s.dir = (.error f, d)) ∨
    ∃ log d₁ d₂, s.initialise w = (.ok (), { w with disk := d₂, log }) ∧
      w.disk.makePath w.refusals.makeDirectory s.dir = (.ok (), d₁) ∧
      (d₂ = d₁ ∨ d₁.contains s.ignoreFile = false ∧
        d₁.write s.ignoreFile (Utf8.encode ignoreText) = .ok d₂) := by
  rcases hmake : w.disk.makePath w.refusals.makeDirectory s.dir with ⟨made, d₁⟩
  cases made with
  | error f => exact .inl ⟨f, d₁, initialise_of_makePath_error hmake, rfl⟩
  | ok _ =>
  refine .inr ?_
  rw [initialise_of_makePath hmake]
  cases hignore : d₁.contains s.ignoreFile with
  | true => exact ⟨w.log, d₁, d₁, rfl, rfl, .inl rfl⟩
  | false =>
    cases hwrite : d₁.write s.ignoreFile (Utf8.encode ignoreText) with
    | error f => exact ⟨_, d₁, d₁, rfl, rfl, .inl rfl⟩
    | ok d₂ => exact ⟨w.log, d₁, d₂, rfl, rfl, .inr ⟨hignore, hwrite⟩⟩

/-- Where the directory and the ignore file are there, nothing is made. -/
theorem initialise_of_isDir (hdir : w.disk.isDir s.dir = true)
    (hignore : w.disk.contains s.ignoreFile = true) : s.initialise w = (.ok (), w) := by
  rw [initialise_of_makePath (makePath_of_isDir hdir _), if_pos hignore]

/-- Making the directory only adds entries, and the directory is there then. -/
theorem exists_of_initialise (hinit : s.initialise w = (.ok (), w')) :
    ∃ log, w' = { w with disk := w'.disk, log } ∧ Grows IsAdded w.disk w'.disk ∧
      w'.disk.isDir s.dir = true := by
  rcases s.initialise_cases w with ⟨f, _, hf, -⟩ | ⟨log, d₁, d₂, hok, hmake, hrest⟩
  · cases hf.symm.trans hinit
  cases hok.symm.trans hinit
  have hdir := isDir_of_makePath hmake
  have hgrows : Grows IsAdded w.disk d₁ := (grows_makePath hmake).mono fun n hn => .inl hn
  rcases hrest with rfl | ⟨hmissing, hwrite⟩
  · exact ⟨log, rfl, hgrows, hdir⟩
  · have hfile : Grows IsAdded d₁ d₂ := (grows_write hmissing hwrite).mono fun n hn => .inr hn
    refine ⟨log, rfl, hgrows.trans hfile, ?_⟩
    obtain ⟨dir, hway, hat⟩ := isDir_iff.1 hdir
    refine isDir_iff.2 ⟨dir, ?_, hfile.at?_of_some hat⟩
    show Leads d₂ _ _ _ (d₂.absolute s.dir).parts dir
    rw [absolute, hfile.here]
    exact hway.extend (hfile.toExtends not_isAdded_link) (by rw [hat]; simp)

/-- If nothing is at the place of the history, no link is there after the directory has been
made. -/
theorem has_of_grows (hplace : d.at? (s.place d) = none) (hgrows : Grows IsAdded d d')
    (hdir : d'.isDir s.dir = true) :
    ∃ entry, s.Has d' entry ∧ ∀ t, entry ≠ some (.link t) := by
  obtain ⟨dir, hway, hat⟩ := isDir_iff.1 hdir
  refine ⟨_, ⟨dir, hway, hat, rfl⟩, fun t ht => ?_⟩
  have habsolute : d'.absolute s.dir = d.absolute s.dir := by
    rw [absolute, absolute, hgrows.here]
  have hlinks := hgrows.link_iff not_isAdded_link
  rw [place, resolve, ← habsolute, resolveFrom_of_leads hway hlinks] at hplace
  rw [hlinks, hplace] at ht
  cases ht

theorem exists_of_write (hwrite : s.write h w = (.ok (), w')) :
    ∃ d', Action.replaced w s.file false (Utf8.encode h.toText) = .ok d' ∧
      w' = { w with disk := d' } := by
  rw [write] at hwrite
  cases hrep : Action.replaced w s.file false (Utf8.encode h.toText) with
  | error f =>
    rw [Steps.bind_of_ok (Action.replace_of_error hrep)] at hwrite
    cases hwrite
  | ok d' =>
    rw [Steps.bind_of_ok (Action.replace_of_ok hrep)] at hwrite
    cases hwrite
    exact ⟨d', rfl, rfl⟩

/-- A scan of items, in a world, to be recorded. -/
def scanned (s : HistoryStore) (w : World) (items : List Item) (settings : Option Settings) :
    Scanned :=
  ⟨s.project.toText, w.utcNow, w.git, items, settings⟩

/-- Saving makes the directory, loads the history there is and writes the next one. -/
theorem exists_of_save {items : List Item} {settings : Option Settings}
    (hsave : s.save items settings w = (.ok h, w')) :
    ∃ w₁ old w₂, s.initialise w = (.ok (), w₁) ∧ s.load w₁ = (.ok old, w₂) ∧
      h = .record old (s.scanned w₁ items settings) ∧ s.write h w₂ = (.ok (), w') := by
  rw [save, Steps.bind_ok_iff] at hsave
  obtain ⟨_, w₁, hinit, hsave⟩ := hsave
  rw [Steps.bind_of_ok Steps.get_apply, Steps.bind_ok_iff] at hsave
  obtain ⟨old, w₂, hload, hsave⟩ := hsave
  rw [Steps.bind_ok_iff] at hsave
  obtain ⟨_, w₃, hwrite, hsave⟩ := hsave
  cases hsave
  exact ⟨w₁, old, w₂, hinit, hload, rfl, hwrite⟩

theorem write_of_ok (hrep : Action.replaced w s.file false (Utf8.encode h.toText) = .ok d') :
    s.write h w = (.ok (), { w with disk := d' }) := by
  rw [write, Steps.bind_of_ok (Action.replace_of_ok hrep)]
  rfl

theorem write_of_error {f : Disk.Fault}
    (hrep : Action.replaced w s.file false (Utf8.encode h.toText) = .error f) :
    s.write h w = (.error (.historyUnwritable s.file f), w) := by
  rw [write, Steps.bind_of_ok (Action.replace_of_error hrep)]
  rfl

/-- A scan is saved if the file can be replaced. -/
theorem save_of_ok {items : List Item} {settings : Option Settings} {w₁ w₂ : World}
    {old : Option History} (hinit : s.initialise w = (.ok (), w₁))
    (hload : s.load w₁ = (.ok old, w₂))
    (hrep : Action.replaced w₂ s.file false
      (Utf8.encode (History.record old (s.scanned w₁ items settings)).toText) = .ok d') :
    s.save items settings w =
      (.ok (.record old (s.scanned w₁ items settings)), { w₂ with disk := d' }) := by
  rw [save, Steps.bind_of_ok hinit, Steps.bind_of_ok Steps.get_apply, Steps.bind_of_ok hload]
  rw [scanned] at hrep
  rw [Steps.bind_of_ok (write_of_ok hrep)]
  rfl

/-- A scan is not saved if the file cannot be replaced. -/
theorem save_of_error {items : List Item} {settings : Option Settings} {w₁ w₂ : World}
    {old : Option History} {f : Disk.Fault} (hinit : s.initialise w = (.ok (), w₁))
    (hload : s.load w₁ = (.ok old, w₂))
    (hrep : Action.replaced w₂ s.file false
      (Utf8.encode (History.record old (s.scanned w₁ items settings)).toText) = .error f) :
    s.save items settings w = (.error (.historyUnwritable s.file f), w₂) := by
  rw [save, Steps.bind_of_ok hinit, Steps.bind_of_ok Steps.get_apply, Steps.bind_of_ok hload]
  rw [scanned] at hrep
  rw [Steps.bind_of_error (write_of_error hrep)]

/-! ## Dropping old snapshots -/

variable {days : Int} {n : Nat}

/-- If there are old snapshots, the file is replaced by what is left of the history, or the run
fails. If there are none, nothing happens. -/
theorem cleanup_eq (hload : s.load w = (.ok (some h), w)) (hreach : w.utcNow.Reaches days) :
    s.cleanup days w =
      if h.countOld (History.cutoff w.utcNow days) = 0 then (.ok 0, w)
      else match Action.replaced w s.file false
          (Utf8.encode (h.forget (History.cutoff w.utcNow days) w.utcNow).toText) with
        | .ok d => (.ok (h.countOld (History.cutoff w.utcNow days)), { w with disk := d })
        | .error f => (.error (.historyUnwritable s.file f), w) := by
  have hspan := hreach.natAbs_le
  obtain ⟨hfirst, hlast⟩ := hreach
  have hlength := h.length_forget (History.cutoff w.utcNow days) w.utcNow
  have hdropped : h.snapshots.length -
      (h.forget (History.cutoff w.utcNow days) w.utcNow).snapshots.length =
        h.countOld (History.cutoff w.utcNow days) := by omega
  unfold cleanup
  rw [Steps.bind_of_ok hload]
  dsimp only
  rw [Steps.bind_of_ok Steps.get_apply, if_neg (by omega), if_neg (by omega), hdropped]
  by_cases hnone : h.countOld (History.cutoff w.utcNow days) = 0
  · rw [if_neg (by omega), if_pos hnone, hnone]
    rfl
  · rw [if_pos hnone, if_neg hnone]
    split
    · next d hrep =>
      rw [Steps.bind_of_ok (write_of_ok hrep)]
      rfl
    · next f hrep => rw [Steps.bind_of_error (write_of_error hrep)]

/-- A run that succeeds has computed its cutoff. -/
theorem reaches_of_cleanup (hload : s.load w = (.ok (some h), w))
    (hclean : s.cleanup days w = (.ok n, w')) : w.utcNow.Reaches days := by
  unfold cleanup at hclean
  rw [Steps.bind_of_ok hload] at hclean
  dsimp only at hclean
  rw [Steps.bind_of_ok Steps.get_apply] at hclean
  split at hclean
  · cases hclean
  · split at hclean
    · cases hclean
    · next hdate =>
      unfold Moment.Reaches
      omega

/-- Old snapshots are dropped if the cutoff is a date and the file can be replaced. -/
theorem exists_cleanup (hload : s.load w = (.ok (some h), w)) (hreach : w.utcNow.Reaches days)
    (hrep : ∀ bytes, ∃ d', Action.replaced w s.file false bytes = .ok d') :
    ∃ n w', s.cleanup days w = (.ok n, w') := by
  rw [cleanup_eq hload hreach]
  split
  · exact ⟨_, _, rfl⟩
  · obtain ⟨d', hd⟩ := hrep _
    rw [hd]
    exact ⟨_, _, rfl⟩

/-- Dropping old snapshots loads the history, and writes what is left of it if that is less. -/
theorem exists_of_cleanup (hclean : s.cleanup days w = (.ok n, w')) :
    ∃ old w₁, s.load w = (.ok old, w₁) ∧
      ((w' = w₁ ∧ ∀ h ∈ old, (h.forget (History.cutoff w₁.utcNow days) w₁.utcNow).snapshots.length =
          h.snapshots.length) ∨
        ∃ h ∈ old, (h.forget (History.cutoff w₁.utcNow days) w₁.utcNow).snapshots.length ≠
            h.snapshots.length ∧
          s.write (h.forget (History.cutoff w₁.utcNow days) w₁.utcNow) w₁ = (.ok (), w')) := by
  rw [cleanup, Steps.bind_ok_iff] at hclean
  obtain ⟨old, w₁, hload, hclean⟩ := hclean
  refine ⟨old, w₁, hload, ?_⟩
  cases old with
  | none =>
    cases hclean
    exact .inl ⟨rfl, fun h hh => by cases hh⟩
  | some h =>
    -- there are never more snapshots than before, so another number is a smaller one
    have hle : (h.forget (History.cutoff w₁.utcNow days) w₁.utcNow).snapshots.length ≤
        h.snapshots.length := List.length_filter_le _ _
    dsimp only at hclean
    rw [Steps.bind_of_ok Steps.get_apply] at hclean
    split at hclean
    · cases hclean
    · split at hclean
      · cases hclean
      · split at hclean
        · next hdropped =>
          rw [Steps.bind_ok_iff] at hclean
          obtain ⟨_, w₂, hwrite, hclean⟩ := hclean
          cases hclean
          exact .inr ⟨h, rfl, by omega, hwrite⟩
        · next hdropped =>
          cases hclean
          refine .inl ⟨rfl, fun h' hh' => ?_⟩
          cases hh'
          omega

end MarkerBoard.HistoryStore
