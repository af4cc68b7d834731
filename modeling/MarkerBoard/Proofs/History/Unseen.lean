import MarkerBoard.Proofs.Disk.Unseen
import MarkerBoard.Proofs.History.Extra
import MarkerBoard.Proofs.History.Frame
import MarkerBoard.Proofs.Json.Lines
import MarkerBoard.Proofs.Scan
import MarkerBoard.Proofs.Session.Refine

/-!
# Scans do not see the history

The files of a history may be among those that a scan reads, unless their directory is excluded. No
line in them is a marker on any board: those of the history are lines of a written value, and those
of the ignore file have no colon. So the operations of a store change nothing that a scan finds.

They also make directories. A symbolic link may go up again from a name that does not exist, and
come to lead somewhere when a directory of that name is made. Only such a link can make a
difference.

Main results:

* `HistoryStore.isSilent_toText`, `HistoryStore.isSilent_ignoreText` — no line is a marker.
* `HistoryStore.Spares.afterSave`, `HistoryStore.Spares.afterCleanup` — what each operation leaves.
* `HistoryStore.scan_of_rewrites` — a scan finds the same items after any sequence of operations.
-/
namespace MarkerBoard

namespace HistoryStore

open Disk Grammar

variable {s : HistoryStore} {d d₀ d' : Disk} {w₀ w w' : World} {saved : Bool} {o : Surroundings}
  {h : History} {items : List Item} {settings : Option Settings} {days : Int} {n : Nat}
  {p : Project} {place : Place} {names : List Text} {text : Text}

/-! ## Files without markers -/

/-- The bytes are those of a history. -/
def IsWritten (bytes : List UInt8) : Prop := ∃ h : History, bytes = Utf8.encode h.toText

/-- No line of a history is a marker. -/
theorem isSilent_toText (h : History) : IsSilent h.toText := by
  have hvalue := Json.reads_printAt h.toJson.finite 0 (p := .blank) (by decide)
  exact isSilent_of_reads (hvalue.append (Line.reads_cons_iff.2 ⟨.blank, rfl, rfl⟩))

/-- No line of the ignore file is one. -/
theorem isSilent_ignoreText : IsSilent ignoreText := isSilent_of_no_colon (by decide)

theorem IsWritten.isSilentBytes {bytes : List UInt8} (h : IsWritten bytes) :
    IsSilentBytes bytes := by
  obtain ⟨h, rfl⟩ := h
  exact isSilentBytes_encode (isSilent_toText h)

/-! ## Where the history is put -/

/-- The history is put where its directory was on an earlier disk, if links have only become fewer
since and none has become a directory. -/
theorem exists_of_replaced {keepMode : Bool} {bytes : List UInt8} (hd : w.disk.IsTree)
    (hhere : w.disk.here = d₀.here)
    (hlink : ∀ q t, w.disk.at? q = some (.link t) → d₀.at? q = some (.link t))
    (hdir : ∀ q t, w.disk.at? q = some .dir → d₀.at? q ≠ some (.link t))
    (hrep : Action.replaced w s.file keepMode bytes = .ok d') :
    ∃ dir m, s.place d₀ = dir ++ [fileName] ∧ w.disk.at? dir = some .dir ∧
      w.disk.at? (s.place d₀) ≠ some .dir ∧ d' = w.disk.put (s.place d₀) (.file bytes m) := by
  obtain ⟨tp, tq, m, hnone, hleads, hnot, rfl⟩ := Action.replaced_eq_ok hrep
  -- the temporary file is neither a link nor a directory, and takes the place of nothing
  have htemp : Grows (∃ m, · = .file bytes m) w.disk (w.disk.put tp (.file bytes m)) :=
    grows_put hnone ⟨m, rfl⟩
  have hparts : (w.disk.absolute s.file).parts = (d₀.absolute s.dir).parts ++ [fileName] := by
    rw [file_eq, absolute_filePath, absolute, absolute, hhere]
  rw [hparts] at hleads
  have hup : ∀ q, (w.disk.put tp (.file bytes m)).at? q = some .dir →
      (w.disk.put tp (.file bytes m)).at? q.dropLast = some .dir :=
    fun q hq => htemp.at?_of_some (hd.dir_dropLast (at?_of_put_file hq (by simp)))
  obtain ⟨dir, hdirat, hway, k, hlast⟩ := hleads.exists_dir hup (at?_root _) (by simp)
  have hold : w.disk.at? dir = some .dir := at?_of_put_file hdirat (by simp)
  -- the last name stands for itself, since it is not followed if it is a link
  have htq : tq = dir ++ [fileName] := hlast.eq_of_entry (by decide)
  have hplace : s.place d₀ = dir ++ [fileName] := by
    rw [place, resolve, hway.resolveFrom_eq]
    · exact fun q t hq => hlink q t (at?_of_put_file hq (by simp))
    · rintro q (rfl | hq) t ht
      · exact absurd ht (hdir _ t hold)
      · exact absurd ht (hdir _ t (at?_of_put_file hq (by simp)))
  refine ⟨dir, m, hplace, hold, ?_, by rw [hplace, htq]⟩
  rw [hplace, ← htq]
  exact fun h => hnot (htemp.at?_of_some h)

/-! ## The invariant -/

/-- A disk is sound, and differs from an earlier one in what a scan does not see. Directories have
been made only if that of the store was missing. -/
structure Spares (s : HistoryStore) (d₀ d : Disk) : Prop where
  sound : d.IsSound
  hidden : Hidden IsSilentBytes (d₀.isDir s.dir = false) (s.place d₀) d₀ d

/-- Putting the history at its place, after new entries that a scan does not see. -/
theorem Spares.put {keepMode : Bool} {bytes : List UInt8} (hs : s.Spares d₀ d)
    (hgrows : Grows (IsFaint IsSilentBytes (d₀.isDir s.dir = false)) d w.disk)
    (hsound : w.disk.IsSound) (hbytes : IsSilentBytes bytes)
    (hrep : Action.replaced w s.file keepMode bytes = .ok d') : s.Spares d₀ d' := by
  have hlink : ∀ q t, w.disk.at? q = some (.link t) → d₀.at? q = some (.link t) :=
    fun q t hq => hs.hidden.link_of_link ((hgrows.link_iff not_isFaint_link q t).1 hq)
  have hdir : ∀ q t, w.disk.at? q = some .dir → d₀.at? q ≠ some (.link t) := by
    intro q t hq hold
    rcases hs.hidden.link_or_file hold with hat | ⟨b, m, hat⟩
    · cases hq.symm.trans (hgrows.at?_of_some hat)
    · cases hq.symm.trans (hgrows.at?_of_some hat)
  obtain ⟨dir, m, hplace, hat, hnot, rfl⟩ := exists_of_replaced hsound.tree
    (hgrows.here.trans hs.hidden.here) hlink hdir hrep
  have hne : s.place d₀ ≠ [] := by
    rw [hplace]
    simp
  have hup : ['.', '.'] ∉ s.place d₀ := by
    rw [hplace, List.mem_append, List.mem_singleton, not_or]
    exact ⟨hsound.no_up dir (by rw [hat]; simp), by decide⟩
  refine ⟨hsound.put hup hne ?_ (.inr hnot), hs.hidden.grows_put hgrows hne hbytes⟩
  rw [hplace, List.dropLast_concat]
  exact hat

/-- Making the directory adds entries that a scan does not see. -/
theorem Spares.initialise (hs : s.Spares d₀ w.disk) (hd : d₀.IsTree)
    (hidle : IsIdle IsSilentBytes d₀ (s.place d₀)) (hinit : s.initialise w = (.ok (), w')) :
    w'.disk.IsSound ∧
      Grows (IsFaint IsSilentBytes (d₀.isDir s.dir = false)) w.disk w'.disk := by
  rcases s.initialise_cases w with ⟨f, _, hf, -⟩ | ⟨log, d₁, d₂, hok, hmake, hrest⟩
  · cases hf.symm.trans hinit
  cases hok.symm.trans hinit
  have hdirs : Grows (IsFaint IsSilentBytes (d₀.isDir s.dir = false)) w.disk d₁ := by
    cases hisDir : d₀.isDir s.dir with
    | false => exact (grows_makePath hmake).mono fun node hn => .inl ⟨rfl, hn⟩
    | true =>
      -- the directory is still there, so none is made
      obtain ⟨dir, hway, hat⟩ := isDir_iff.1 hisDir
      have hstill : w.disk.isDir s.dir = true := by
        refine isDir_iff.2 ⟨dir, ?_, hs.hidden.at?_of_isLoud hidle hat trivial⟩
        rw [absolute, hs.hidden.here]
        exact hway.hidden hd hs.hidden hidle (at?_root d₀) hat trivial
      cases (makePath_of_isDir hstill _).symm.trans hmake
      exact .refl _ _
  have hd₁ := hs.sound.makePath hmake
  rcases hrest with rfl | ⟨hmissing, hwrite⟩
  · exact ⟨hd₁, hdirs⟩
  · have hfile : Grows (IsFaint IsSilentBytes (d₀.isDir s.dir = false)) d₁ d₂ := by
      refine (grows_write hmissing hwrite).mono ?_
      rintro node ⟨m, hn⟩
      exact .inr ⟨_, m, hn, isSilentBytes_encode isSilent_ignoreText⟩
    exact ⟨hd₁.write hwrite, hdirs.trans hfile⟩

/-- Saving a scan. -/
theorem Spares.afterSave (hs : s.Spares d₀ w.disk) (hd : d₀.IsTree)
    (hidle : IsIdle IsSilentBytes d₀ (s.place d₀))
    (hsave : s.save items settings w = (.ok h, w')) : s.Spares d₀ w'.disk := by
  obtain ⟨w₁, old, w₂, hinit, hload, -, hwrite⟩ := exists_of_save hsave
  obtain ⟨hsound, hgrows⟩ := hs.initialise hd hidle hinit
  obtain ⟨d', hrep, rfl⟩ := exists_of_write hwrite
  rw [← disk_of_load hload] at hsound hgrows
  exact hs.put hgrows hsound (isSilentBytes_encode (isSilent_toText h)) hrep

/-- Dropping old snapshots. -/
theorem Spares.afterCleanup (hs : s.Spares d₀ w.disk)
    (hclean : s.cleanup days w = (.ok n, w')) : s.Spares d₀ w'.disk := by
  obtain ⟨old, w₁, hload, hkept⟩ := exists_of_cleanup hclean
  rw [← disk_of_load hload] at hs
  rcases hkept with ⟨rfl, -⟩ | ⟨g, -, -, hwrite⟩
  · exact hs
  · obtain ⟨d', hrep, rfl⟩ := exists_of_write hwrite
    exact hs.put (.refl _ _) hs.sound (isSilentBytes_encode (isSilent_toText _)) hrep

/-- A sequence of operations preserves the invariant. -/
theorem Rewrites.spares (hrun : s.Rewrites w₀ saved w) (hd : w₀.disk.IsSound)
    (hidle : IsIdle IsSilentBytes w₀.disk (s.place w₀.disk)) : s.Spares w₀.disk w.disk := by
  induction hrun with
  | start => exact ⟨hd, .refl _ _ _ _⟩
  | @save saved w w' o items settings h _ hsave ih =>
    have hwithin : s.Spares w₀.disk (w.within o).disk := ih
    exact hwithin.afterSave hd.tree hidle hsave
  | @cleanup saved w w' o days n _ hclean ih =>
    have hwithin : s.Spares w₀.disk (w.within o).disk := ih
    exact hwithin.afterCleanup hclean

/-! ## Scans -/

/-- No directory has been made if that of the store was there. -/
theorem Spares.not_strays (hs : s.Spares d₀ d) (hisDir : d₀.isDir s.dir = true) {at_ : Place}
    {target : List Text} : ¬ Strays d₀ d at_ target := by
  refine Disk.not_strays fun q hq => ?_
  rcases hs.hidden.dir_of_dir hq with hold | ⟨hmade, -⟩
  · exact hold
  · cases hmade.symm.trans hisDir

/-- If the place of the history has no entry, or one that the store has written, a scan finds the
same items before and after any sequence of operations that succeed. The directory of the store has
to be there already, or else no link below the project may go up again from a directory that the
operations have made. -/
theorem scan_of_rewrites (hd : w.disk.IsSound) (hroot : w.disk.locate p.root = .ok place)
    (hdir : w.disk.at? place = some .dir)
    (hidle : IsIdle IsWritten w.disk (s.place w.disk)) (hrun : s.Rewrites w saved w')
    (hlinks : w.disk.isDir s.dir = true ∨
      ∀ names t, w.disk.at? (place ++ names) = some (.link t) →
        ¬ Strays w.disk w'.disk (linkBase t (place ++ names).dropLast) (Path.ofText t).parts)
    (hsettings : (p.settings (w'.within o)).1 = (p.settings (w.within o)).1) :
    (Action.scan p (w'.within o)).1 = (Action.scan p (w.within o)).1 := by
  have hsilent := hidle.mono fun _ hb => IsWritten.isSilentBytes hb
  have hs := hrun.spares hd hsilent
  have hway := locate_eq_ok_iff.1 hroot
  have hnostray : ∀ names t, w.disk.at? (place ++ names) = some (.link t) →
      ¬ Strays w.disk w'.disk (linkBase t (place ++ names).dropLast) (Path.ofText t).parts :=
    hlinks.elim (fun hisDir _ _ _ => hs.not_strays hisDir) id
  have hway' : Leads w'.disk true linkLimit [] (w'.disk.absolute p.root).parts place := by
    rw [absolute, hs.hidden.here]
    exact hway.hidden hd.tree hs.hidden hsilent (at?_root _) hdir trivial
  have hitems : ∀ (ctx : ScanContext) (ignored : List Ignore.Pattern),
      ctx.itemsOn w'.disk p.root ignored = ctx.itemsOn w.disk p.root ignored := by
    refine fun ctx ignored => Eq.symm (ctx.itemsOn_congr hd hs.sound hway hway' hdir
      (hs.hidden.at?_of_isLoud hsilent hdir trivial) (fun names text htext => ?_) ignored)
    exact hs.hidden.shows_iff hd hway hdir hsilent hs.sound hnostray
      fun b hb hsilent => htext (hsilent text hb)
  -- with the same settings, the items are read by the same context
  cases hresult : (p.settings (w.within o)).1 with
  | error f =>
    have hfails : ∀ w : World, (p.settings w).1 = .error f → (Action.scan p w).1 = .error f := by
      intro w hw
      rw [Action.scan, Steps.bind_of_error (Prod.ext hw rfl)]
    rw [hfails _ hresult, hfails _ (hsettings.trans hresult)]
  | ok settings =>
    obtain ⟨log, log', hscan⟩ := Action.scan_apply hresult
    obtain ⟨log₁, log₁', hscan'⟩ := Action.scan_apply (hsettings.trans hresult)
    have hcontext : (⟨settings, (w'.within o).git.currentUser (w'.within o).env,
        (w'.within o).localNow⟩ : ScanContext) =
        ⟨settings, (w.within o).git.currentUser (w.within o).env, (w.within o).localNow⟩ := rfl
    have hdisk : ∀ w : World, (w.within o).disk = w.disk := fun _ => rfl
    rw [hscan, hscan', hcontext]
    split
    · rfl
    · split
      · rfl
      · rw [hdisk, hdisk, hitems]

/-! ## A project with a link -/

/-- A world with a project of one file and a link, and with what a store has put there. -/
def sampleTreeWorld (target : Text) (stored : List (Place × Node)) : World where
  disk := ⟨⟨['/'], []⟩, [(["a.go".toList], .file (Utf8.encode "// TODO: a\n".toList) 0o644),
    (["b.go".toList], .link target)] ++ stored⟩
  env := []
  git := .silent
  localNow := .first
  utcNow := .first
  refusals := .none
  freshName := "t".toList
  log := []

/-- The project, with some names of directories excluded. -/
def sampleTree (excluded : List Text) : Project :=
  ⟨⟨['/'], []⟩, .fixed { ScanContext.sampleBoard with exclusions := ⟨excluded, []⟩ }⟩

/-- The store of a directory in the project. -/
def sampleTreeStore : HistoryStore := ⟨⟨['/'], [".kodo".toList]⟩, ⟨['/'], []⟩⟩

/-- The directory of the store with its ignore file. -/
def sampleMade : List (Place × Node) := [([".kodo".toList], .dir),
  ([".kodo".toList, ".gitignore".toList], .file (Utf8.encode ignoreText) newFileMode)]

/-- The world with a history in that directory. -/
def sampleSaved (target : Text) (bytes : List UInt8) : World :=
  sampleTreeWorld target (sampleMade ++
    [([".kodo".toList, fileName], .file bytes privateMode)])

theorem isSound_sampleTreeWorld (target : Text) : (sampleTreeWorld target []).disk.IsSound := by
  have hplaces : ([["a.go".toList], ["b.go".toList]] : List Place).Nodup := by decide
  refine isSound_of_forall hplaces fun e he => ?_
  rcases List.mem_cons.1 he with rfl | he
  · exact ⟨rfl, by decide⟩
  · have hup : ['.', '.'] ∉ ["b.go".toList] := by decide
    rw [List.mem_singleton.1 he]
    exact ⟨rfl, hup⟩

/-- A scan is saved for the first time. -/
theorem exists_rewrites_sampleTreeWorld (target : Text) :
    ∃ bytes, sampleTreeStore.Rewrites (sampleTreeWorld target []) true
      (sampleSaved target bytes) := by
  have hinit : sampleTreeStore.initialise (sampleTreeWorld target []) =
      (.ok (), sampleTreeWorld target sampleMade) := by cbv
  have hload : sampleTreeStore.load (sampleTreeWorld target sampleMade) =
      (.ok none, sampleTreeWorld target sampleMade) := by cbv
  have hrep : ∀ bytes, Action.replaced (sampleTreeWorld target sampleMade) sampleTreeStore.file
      false bytes = .ok (sampleSaved target bytes).disk := by
    intro bytes
    cbv
  have hsave := save_of_ok hinit hload (hrep (Utf8.encode
    (History.record none (sampleTreeStore.scanned (sampleTreeWorld target sampleMade) []
      none)).toText))
  exact ⟨_, .save (o := sampleSurroundings) .start hsave⟩

theorem scan_of_rewrites_sampleTree :
    ∃ bytes, sampleTreeStore.Rewrites (sampleTreeWorld "a.go".toList []) true
        (sampleSaved "a.go".toList bytes) ∧
      (Action.scan (sampleTree []) ((sampleSaved "a.go".toList bytes).within
          sampleSurroundings)).1 =
        (Action.scan (sampleTree []) ((sampleTreeWorld "a.go".toList []).within
          sampleSurroundings)).1 := by
  obtain ⟨bytes, hrun⟩ := exists_rewrites_sampleTreeWorld "a.go".toList
  have hd := isSound_sampleTreeWorld "a.go".toList
  have hroot : (sampleTreeWorld "a.go".toList []).disk.locate (sampleTree []).root = .ok [] := by
    cbv
  have hidle : IsIdle IsWritten (sampleTreeWorld "a.go".toList []).disk
      (sampleTreeStore.place (sampleTreeWorld "a.go".toList []).disk) := .none (by cbv)
  have hlinks : ∀ names t, (sampleTreeWorld "a.go".toList []).disk.at? ([] ++ names) =
        some (.link t) →
      ¬ Strays (sampleTreeWorld "a.go".toList []).disk (sampleSaved "a.go".toList bytes).disk
        (linkBase t ([] ++ names).dropLast) (Path.ofText t).parts := by
    intro names t hat hs
    have hnil : names ≠ [] := by
      rintro rfl
      cases (at?_root _).symm.trans hat
    have hentry := mem_entries_of_at? hat hnil
    rcases List.mem_cons.1 hentry with heq | hentry
    · cases heq
    · -- the only link leads straight to the file
      cases List.mem_singleton.1 hentry
      have hparts : (Path.ofText "a.go".toList).parts = ["a.go".toList] := by decide
      have hbase : linkBase "a.go".toList ([] ++ ["b.go".toList]).dropLast = [] := by decide
      have hfile : (sampleTreeWorld "a.go".toList []).disk.at? ([] ++ ["a.go".toList]) =
          some (.file (Utf8.encode "// TODO: a\n".toList) 0o644) := rfl
      rw [hparts, hbase] at hs
      obtain ⟨t, ht, -⟩ := hs.exists_link hd (by rw [hfile]; simp)
      cases ht.symm.trans hfile
  exact ⟨bytes, hrun, scan_of_rewrites hd hroot (at?_root _) hidle hrun (.inr hlinks) rfl⟩

/-- A link goes up again from the missing directory of the store, and leads to the file as soon as
the directory is made. Then a scan finds the item of the file twice. -/
theorem exists_scan_ne_sampleTree :
    ∃ bytes, sampleTreeStore.Rewrites (sampleTreeWorld ".kodo/../a.go".toList []) true
        (sampleSaved ".kodo/../a.go".toList bytes) ∧
      (sampleTreeWorld ".kodo/../a.go".toList []).disk.at?
        (sampleTreeStore.place (sampleTreeWorld ".kodo/../a.go".toList []).disk) = none ∧
      (Action.scan (sampleTree [".kodo".toList]) ((sampleSaved ".kodo/../a.go".toList bytes).within
          sampleSurroundings)).1 ≠
        (Action.scan (sampleTree [".kodo".toList])
          ((sampleTreeWorld ".kodo/../a.go".toList []).within sampleSurroundings)).1 := by
  obtain ⟨bytes, hrun⟩ := exists_rewrites_sampleTreeWorld ".kodo/../a.go".toList
  refine ⟨bytes, hrun, by cbv, fun heq => ?_⟩
  have hbefore : (Action.scan (sampleTree [".kodo".toList])
      ((sampleTreeWorld ".kodo/../a.go".toList []).within sampleSurroundings)).1.toOption.map
        List.length = some 1 := by
    cbv
  have hafter : (Action.scan (sampleTree [".kodo".toList])
      ((sampleSaved ".kodo/../a.go".toList bytes).within sampleSurroundings)).1.toOption.map
        List.length = some 2 := by
    cbv
  rw [heq, hbefore] at hafter
  cases hafter

end HistoryStore
end MarkerBoard
