import MarkerBoard.Proofs.Board.Load
import MarkerBoard.Proofs.Command.Move

/-!
# A move on the command line that fails

Before a move begins the options are read and the variables of the project are loaded, and neither
touches the disk. So a command line that exits with a failure has left the disk as it was, or it has
moved the item completely and failed afterwards.

Main results:

* `EnvFile.keeps_loadProject` — loading variables leaves the disk.
* `Command.runIn_move_cases` — what a move leaves behind that exits with a failure.
* `Command.runIn_of_record_error` — a move that cannot be recorded exits with 1 and stays.
-/
namespace MarkerBoard

open Steps

/-! ## Variables -/

namespace EnvFile

theorem keeps_bound (p : Path) : Keeps World.disk (bound p) := by
  refine (keeps_get _).bind fun w => ?_
  split
  · refine ((Action.logsOnly_readText p).keeps fun _ _ => rfl).bind fun r => ?_
    split
    · exact keeps_pure _ _
    · exact keeps_throw _ _
    · exact keeps_pure _ _
  · exact keeps_pure _ _

theorem keeps_setVariable (name value : Text) : Keeps World.disk (setVariable name value) := by
  unfold setVariable
  split
  · exact keeps_throw _ _
  · split
    · exact keeps_throw _ _
    · exact fun _ => rfl

theorem keeps_fill (bindings : Keyed Text) : Keeps World.disk (fill bindings) := by
  induction bindings with
  | nil => exact keeps_pure _ _
  | cons e bindings ih =>
    obtain ⟨name, value⟩ := e
    refine (keeps_get _).bind fun w => ?_
    split
    · exact ih
    · exact (keeps_setVariable name value).bind fun _ => ih.bind fun _ => keeps_pure _ _

theorem keeps_load (ps : List Path) : Keeps World.disk (load ps) := by
  induction ps with
  | nil => exact keeps_pure _ _
  | cons p ps ih =>
    exact (keeps_bound p).bind fun _ => (keeps_fill _).bind fun _ => ih.bind fun _ => keeps_pure _ _

/-- Loading the variables of a project leaves the disk. -/
theorem keeps_loadProject (project : Path) : Keeps World.disk (loadProject project) :=
  keeps_load _

end EnvFile

/-! ## The steps of a command line -/

namespace Command

variable {g : Globals} {w w₁ : World} {args margs : List Text} {names : List Text} {id : Int}
  {column : Text} {save : Bool} {σ : Session} {j : Item}

/-- A request for a move, or for help about it. -/
theorem readRequest_move {args : List Text} {r : Request}
    (h : readRequest "move".toList args = some r) : r = .help ∨ ∃ id column save,
      r = .move id column save := by
  have hread : readRequest "move".toList args =
      (readArguments moveRules true args).bind readMove := rfl
  rw [hread, Option.bind_eq_some_iff] at h
  obtain ⟨a, -, h⟩ := h
  unfold readMove at h
  split at h
  · cases h
    exact .inl rfl
  · split at h
    · rw [Option.map_eq_some_iff] at h
      obtain ⟨id, -, rfl⟩ := h
      exact .inr ⟨id, _, _, rfl⟩
    · cases h

theorem act_eq {r : Except Failure (List Text)} {root : Path}
    (h : EnvFile.loadProject root w = (r, w₁)) :
    Activity.act (EnvFile.loadProject root) (.start w) = (r, .start w₁) := by
  rw [Activity.act_apply, show (Session.start w).world = w from rfl, h]
  rfl

/-- The variables of the project are loaded first, and then the request is read and performed. -/
theorem runNamed_of_ok
    (h : EnvFile.loadProject (workplace w.disk [] g).root w = (.ok names, w₁)) :
    runNamed g "move".toList margs ⟨.start w, [], []⟩ =
      (match readRequest "move".toList margs with
      | none => (throw Stop.usage : Command Unit)
      | some r => perform (workplace w.disk w₁.env g) r) ⟨.start w₁, [], []⟩ := by
  have hact : act (EnvFile.loadProject (workplace w.disk [] g).root) ⟨.start w, [], []⟩ =
      (.ok names, ⟨.start w₁, [], []⟩) := attempt_of_ok (act_eq h)
  have hrun : runNamed g "move".toList margs ⟨.start w, [], []⟩ =
      (act (EnvFile.loadProject (workplace w.disk [] g).root) >>= fun _ => (do
        let c ← get
        match readRequest "move".toList margs with
        | none => throw .usage
        | some r => perform (workplace w.disk c.session.world.env g) r : Command Unit))
          ⟨.start w, [], []⟩ := by
    unfold runNamed
    rw [Steps.bind_of_ok Steps.get_apply]
    rfl
  rw [hrun, Steps.bind_of_ok hact, Steps.bind_of_ok Steps.get_apply]
  cases readRequest "move".toList margs with
  | none => rfl
  | some r => rfl

theorem exists_runNamed_of_error (margs : List Text) {f : Failure}
    (h : EnvFile.loadProject (workplace w.disk [] g).root w = (.error f, w₁)) :
    ∃ stop c', runNamed g "move".toList margs ⟨.start w, [], []⟩ = (.error stop, c') ∧
      c'.session = .start w₁ := by
  obtain ⟨stop, c', hstop, hsession, -⟩ : ∃ stop c',
      act (EnvFile.loadProject (workplace w.disk [] g).root) ⟨.start w, [], []⟩ =
        (.error stop, c') ∧ c'.session = .start w₁ ∧ stop.IsFault :=
    exists_attempt_of_error (act_eq h)
  refine ⟨stop, c', ?_, hsession⟩
  unfold runNamed
  rw [Steps.bind_of_ok Steps.get_apply]
  exact Steps.bind_of_error hstop

theorem runNamed_move_cases (g : Globals) (margs : List Text) (w : World) :
    ∃ r c', runNamed g "move".toList margs ⟨.start w, [], []⟩ = (r, c') ∧
      (r = .ok () ∨ c'.session.world.disk = w.disk ∨
        ∃ names w₁ id column save, readRequest "move".toList margs = some (.move id column save) ∧
          EnvFile.loadProject (workplace w.disk [] g).root w = (.ok names, w₁) ∧
          w₁.disk = w.disk ∧ FailsAfterwards (workplace w.disk w₁.env g) id column save w₁
            c'.session.world.disk) := by
  have hkept := EnvFile.keeps_loadProject (workplace w.disk [] g).root w
  rcases hload : EnvFile.loadProject (workplace w.disk [] g).root w with ⟨r, w₁⟩
  rw [hload] at hkept
  replace hkept : w₁.disk = w.disk := hkept
  cases r with
  | error f =>
    obtain ⟨stop, c', hstop, hsession⟩ := exists_runNamed_of_error margs hload
    refine ⟨_, c', hstop, .inr (.inl ?_)⟩
    rw [hsession]
    exact hkept
  | ok names =>
  rw [runNamed_of_ok hload]
  cases hread : readRequest "move".toList margs with
  | none => exact ⟨.error .usage, ⟨.start w₁, [], []⟩, rfl, .inr (.inl hkept)⟩
  | some r =>
  rcases readRequest_move hread with rfl | ⟨id, column, save, rfl⟩
  · exact ⟨.ok (), ⟨.start w₁, [], []⟩, rfl, .inl rfl⟩
  · obtain ⟨r, c', hr, hcases⟩ := move_cases (workplace w.disk w₁.env g) id column save w₁ [] []
    refine ⟨r, c', hr, ?_⟩
    rcases hcases with rfl | hdisk | hfails
    · exact .inl rfl
    · exact .inr (.inl (hdisk.trans hkept))
    · exact .inr (.inr ⟨names, w₁, id, column, save, rfl, rfl, hkept, hfails⟩)

/-- The command is run, unless help is asked for or there is no project. -/
theorem run_cases {a : Arguments} (w : World)
    (hargs : readArguments globalRules false args = some a)
    (hwords : a.words = "move".toList :: margs) :
    run args ⟨.start w, [], []⟩ = (if a.has "help" then (throw Stop.finished : Command Unit)
      else if (a.value? "project").any fun p => w.disk.isFile (Path.ofText p) then throw .usage
      else runNamed ⟨a.value? "project", a.value? "config"⟩ "move".toList margs)
        ⟨.start w, [], []⟩ := by
  have hne : args.isEmpty = false := by
    cases args with
    | nil =>
      rw [readArguments] at hargs
      cases hargs
      cases hwords
    | cons => rfl
  have hcommand : command? a.words = some ("move".toList, margs) := by
    rw [hwords]
    rfl
  unfold run
  rw [hne, hargs, if_neg (by simp)]
  dsimp only
  rw [Steps.bind_of_ok Steps.get_apply, hcommand]
  rfl

/-! ## How a command line ends -/

/-- If a move on the command line exits with a failure, then the disk is as it was, or the move was
carried out completely and then something else failed. -/
theorem runIn_move_cases {a : Arguments} {w' : World} {o : Outcome}
    (hargs : readArguments globalRules false args = some a)
    (hwords : a.words = "move".toList :: margs) (hrun : runIn args w = (o, w'))
    (hcode : o.exitCode ≠ 0) :
    w'.disk = w.disk ∨ ∃ names w₁ id column save,
      readRequest "move".toList margs = some (.move id column save) ∧
      EnvFile.loadProject (workplace w.disk [] ⟨a.value? "project", a.value? "config"⟩).root w =
        (.ok names, w₁) ∧ w₁.disk = w.disk ∧
      FailsAfterwards (workplace w.disk w₁.env ⟨a.value? "project", a.value? "config"⟩) id column
        save w₁ w'.disk := by
  rcases hr : run args ⟨.start w, [], []⟩ with ⟨r, c'⟩
  obtain ⟨hw, hok, hstop⟩ := runIn_of_run hr
  rw [hrun] at hw hok hstop
  obtain rfl : w' = c'.session.world := hw
  rw [run_cases w hargs hwords] at hr
  split at hr
  · cases hr
    exact absurd ((hstop _ rfl).2 rfl) hcode
  split at hr
  · cases hr
    exact .inl rfl
  obtain ⟨r', c'', hr', hcases⟩ := runNamed_move_cases _ margs w
  cases hr.symm.trans hr'
  rcases hcases with rfl | hdisk | hfails
  · exact absurd (hok rfl) hcode
  · exact .inl hdisk
  · exact .inr hfails

/-- If the new state cannot be recorded, the command exits with 1, and the item stays moved. -/
theorem runIn_of_record_error {a : Arguments} {f : Failure} {σ₂ : Session}
    (hargs : readArguments globalRules false args = some a)
    (hwords : a.words = "move".toList :: margs) (hhelp : a.has "help" = false)
    (hproject : a.value? "project" = none)
    (hload : EnvFile.loadProject (workplace w.disk [] ⟨none, a.value? "config"⟩).root w =
      (.ok names, w₁))
    (hread : readRequest "move".toList margs = some (.move id column save))
    (hmoved : moveOnly (workplace w.disk w₁.env ⟨none, a.value? "config"⟩) id column (.start w₁) =
      (.ok j, σ))
    (hrecord : recordMoved (workplace w.disk w₁.env ⟨none, a.value? "config"⟩) save σ =
      (.error f, σ₂)) :
    (runIn args w).1.exitCode = 1 ∧ (runIn args w).2 = σ₂.world := by
  obtain ⟨stop, c', hstop, hsession, hfault⟩ :=
    exists_move_of_record_error [] [] hmoved hrecord
  have hr : run args ⟨.start w, [], []⟩ = (.error stop, c') := by
    rw [run_cases w hargs hwords, hhelp, hproject, if_neg (by simp), if_neg (by simp),
      runNamed_of_ok hload, hread]
    exact hstop
  obtain ⟨hw, -, hexit⟩ := runIn_of_run hr
  exact ⟨(hexit stop rfl).1 hfault, by rw [hw, hsession]⟩

/-! ## A project without a directory for the board -/

/-- A project with one item. A file stands where the directory of the board should be. -/
def sampleBlocked : World := { Action.sampleWorld with
  disk := ⟨⟨['/'], ["p".toList]⟩, [(["p".toList], .dir),
    (["p".toList, "a.py".toList], .file (Utf8.encode "#TODO: a".toList) 0o644),
    (["p".toList, ".kodo".toList], .file [] 0o644)]⟩ }

/-- A move of that item. -/
def sampleArguments : List Text := ["move".toList, "1".toList, "done".toList]

/-- Where the move works. -/
def samplePlace : Workplace := ⟨⟨['/'], ["p".toList]⟩, ⟨['/'], ["p".toList, ".kodo".toList]⟩⟩

theorem readArguments_sample :
    readArguments globalRules false sampleArguments = some (.ofWords sampleArguments) := by
  cbv

theorem workplace_sampleBlocked : workplace sampleBlocked.disk [] ⟨none, none⟩ = samplePlace := by
  cbv

theorem loadProject_sampleBlocked :
    EnvFile.loadProject samplePlace.root sampleBlocked = (.ok [], sampleBlocked) := by
  cbv

theorem readRequest_sample : readRequest "move".toList ["1".toList, "done".toList] =
    some (.move 1 "done".toList true) := by
  cbv

/-- The project of that place with its settings, which are the defaults. -/
def sampleSettled : Project := ⟨samplePlace.root, .fixed (Settings.defaultIn [])⟩

theorem settings_sampleBlocked {w : World} (hdisk : w.disk = sampleBlocked.disk)
    (henv : w.env = []) : samplePlace.project.settings w = sampleSettled.settings w := by
  have hnone : sampleBlocked.disk.contains (ConfigDir.settingsFile samplePlace.dir) = false := by
    cbv
  rw [← hdisk] at hnone
  have hload : samplePlace.project.settings w = (.ok (Settings.defaultIn w.env), w) :=
    Settings.load_of_missing hnone
  rw [hload, henv]
  rfl

/-- Scanning and moving with the settings of the project. -/
def sampleMoved : Except Failure Item × Session :=
  (do
    let _ ← Activity.scan sampleSettled
    Activity.update sampleSettled 1 "done".toList : Activity Item) (.start sampleBlocked)

theorem moveOnly_sampleBlocked :
    moveOnly samplePlace 1 "done".toList (.start sampleBlocked) = sampleMoved := by
  have hscan : Activity.scan samplePlace.project (.start sampleBlocked) =
      Activity.scan sampleSettled (.start sampleBlocked) :=
    Activity.scan_congr rfl (settings_sampleBlocked rfl rfl)
  have hkept := Activity.keeps_scan (fun w => (w.disk, w.env)) sampleSettled
    (fun _ _ => rfl) (.start sampleBlocked)
  unfold moveOnly sampleMoved
  rcases h : Activity.scan sampleSettled (.start sampleBlocked) with ⟨r, σ⟩
  rw [h] at hscan hkept
  obtain ⟨hdisk, henv⟩ := Prod.mk.inj hkept
  cases r with
  | error f => rw [Steps.bind_of_error hscan, Steps.bind_of_error h]
  | ok items =>
    rw [Steps.bind_of_ok hscan, Steps.bind_of_ok h]
    exact Activity.update_congr rfl (settings_sampleBlocked hdisk henv)

theorem sampleMoved_eq : (sampleMoved.1.toBool,
    sampleMoved.2.world.disk.isFile samplePlace.dir,
    decide (sampleMoved.2.world.disk.at? ["p".toList, "a.py".toList] =
      sampleBlocked.disk.at? ["p".toList, "a.py".toList])) = (true, true, false) := by
  cbv

theorem runIn_sampleBlocked : (runIn sampleArguments sampleBlocked).1.exitCode = 1 ∧
    (runIn sampleArguments sampleBlocked).2.disk = sampleMoved.2.world.disk := by
  obtain ⟨hok, hrest⟩ := Prod.mk.inj sampleMoved_eq
  obtain ⟨hblocked, -⟩ := Prod.mk.inj hrest
  obtain ⟨j, hj⟩ := Steps.exists_of_toBool hok
  -- a file is in the way of the directory
  obtain ⟨b, m, hfile⟩ : ∃ b m, sampleMoved.2.world.disk.node? samplePlace.dir =
      some (.file b m) := by
    rw [Disk.isFile] at hblocked
    split at hblocked
    · next b m hfile => exact ⟨b, m, hfile⟩
    · cases hblocked
  obtain ⟨f', σ₂, hrecord, hdisk⟩ :=
    recordMoved_of_makePath (Disk.makePath_of_node? hfile (by simp) _)
  have hload : EnvFile.loadProject (workplace sampleBlocked.disk [] ⟨none, none⟩).root
      sampleBlocked = (.ok [], sampleBlocked) := by
    rw [workplace_sampleBlocked]
    exact loadProject_sampleBlocked
  have hmoved : moveOnly (workplace sampleBlocked.disk [] ⟨none, none⟩) 1 "done".toList
      (.start sampleBlocked) = (.ok j, sampleMoved.2) := by
    rw [workplace_sampleBlocked]
    exact moveOnly_sampleBlocked.trans hj
  rw [← workplace_sampleBlocked] at hrecord
  obtain ⟨hcode, hworld⟩ := runIn_of_record_error readArguments_sample rfl rfl rfl hload
    readRequest_sample hmoved hrecord
  exact ⟨hcode, by rw [hworld, hdisk]⟩

/-- A move that cannot be recorded exits with 1 and leaves the item moved. -/
theorem runIn_move_cases_sampleBlocked :
    ∃ o w', runIn sampleArguments sampleBlocked = (o, w') ∧ o.exitCode ≠ 0 ∧
      (w'.disk = sampleBlocked.disk ∨ ∃ names w₁ id column save,
        readRequest "move".toList ["1".toList, "done".toList] = some (.move id column save) ∧
        EnvFile.loadProject (workplace sampleBlocked.disk [] ⟨none, none⟩).root sampleBlocked =
          (.ok names, w₁) ∧ w₁.disk = sampleBlocked.disk ∧
        FailsAfterwards (workplace sampleBlocked.disk w₁.env ⟨none, none⟩) id column save w₁
          w'.disk) := by
  have hcode := runIn_sampleBlocked.1
  rcases hrun : runIn sampleArguments sampleBlocked with ⟨o, w'⟩
  rw [hrun] at hcode
  replace hcode : o.exitCode ≠ 0 := by
    intro h
    cases hcode.symm.trans h
  have hcases := runIn_move_cases readArguments_sample rfl hrun hcode
  exact ⟨o, w', rfl, hcode, hcases⟩

/-- So a file outside the directory of the board has changed although the command has failed. -/
theorem exists_changed_sampleBlocked :
    (runIn sampleArguments sampleBlocked).1.exitCode ≠ 0 ∧
      ∃ q, ¬ (workplace sampleBlocked.disk [] ⟨none, none⟩).dir.parts <+: q ∧
        (∃ b m, sampleBlocked.disk.at? q = some (.file b m)) ∧
        (runIn sampleArguments sampleBlocked).2.disk.at? q ≠ sampleBlocked.disk.at? q := by
  obtain ⟨-, hrest⟩ := Prod.mk.inj sampleMoved_eq
  obtain ⟨-, hchanged⟩ := Prod.mk.inj hrest
  obtain ⟨hcode, hdisk⟩ := runIn_sampleBlocked
  rw [hcode, hdisk, workplace_sampleBlocked]
  exact ⟨by decide, ["p".toList, "a.py".toList], by decide, ⟨_, _, rfl⟩,
    of_decide_eq_false hchanged⟩

end Command
end MarkerBoard
