import MarkerBoard.Proofs.Command.Console
import MarkerBoard.Proofs.History.Frame
import MarkerBoard.Proofs.Session.InPlace

/-!
# Moving an item by a command

The command scans, moves the item, records the new state and tells the user, in this order. What
fails before the item is moved leaves the disk as it was. What fails afterwards does not take the
move back: the file of the item is then as after a move that succeeds, and nothing else has changed
but the history and what is made for it.

Main results:

* `Activity.keeps_scan` — a scan leaves the disk.
* `Command.scanAndMove_of_ok`, `Command.scanAndMove_of_error` — how far scanning, moving and
  recording get.
* `Command.move_cases` — what the command leaves behind.
-/
namespace MarkerBoard

open Steps

/-! ## Scanning and moving -/

namespace Activity

variable {p : Project} {σ σ' : Session}

theorem keeps_act {α γ : Type} {part : World → γ} {a : Action α} (h : Keeps part a) :
    Keeps (fun σ => part σ.world) (act a) :=
  fun σ => h σ.world

/-- A scan leaves all of the world but the log. -/
theorem keeps_scan {γ : Type} (part : World → γ) (p : Project)
    (hpart : ∀ w log, part { w with log } = part w) :
    Keeps (fun σ => part σ.world) (scan p) :=
  (keeps_act ((Action.logsOnly_scan p).keeps hpart)).bind fun _ =>
    Keeps.bind (fun _ => rfl) fun _ => keeps_pure _ _

end Activity

/-! ## Settings that are known -/

section Congr

variable {p p' : Project} {id : Int} {column : Text} {σ : Session}

theorem Activity.scan_congr (hroot : p.root = p'.root)
    (h : p.settings σ.world = p'.settings σ.world) : Activity.scan p σ = Activity.scan p' σ := by
  have hscan : Action.scan p σ.world = Action.scan p' σ.world := by
    unfold Action.scan
    rw [hroot]
    exact bind_congr h
  unfold Activity.scan
  refine bind_congr ?_
  rw [act_apply, act_apply, hscan]

theorem Activity.update_congr (hroot : p.root = p'.root)
    (h : p.settings σ.world = p'.settings σ.world) :
    update p id column σ = update p' id column σ := by
  unfold update
  rcases hitem : item id σ with ⟨r, σ₁⟩
  have hσ : σ₁ = σ := by
    rw [item_apply] at hitem
    split at hitem
    · cases hitem
      rfl
    · cases hitem
      rfl
  subst hσ
  cases r with
  | error f => rw [Steps.bind_of_error hitem, Steps.bind_of_error hitem]
  | ok i =>
    rw [Steps.bind_of_ok hitem, Steps.bind_of_ok hitem, Steps.bind_of_ok Steps.get_apply,
      Steps.bind_of_ok Steps.get_apply]
    unfold moveItem
    rw [hroot]
    refine bind_congr ?_
    rw [act_apply, act_apply, h]

end Congr

namespace Command

variable {place : Workplace} {id : Int} {column : Text} {save : Bool} {σ σ' : Session} {j : Item}

/-- Scanning and moving, without recording. -/
def moveOnly (place : Workplace) (id : Int) (column : Text) : Activity Item := do
  let _ ← Activity.scan place.project
  Activity.update place.project id column

/-- Recording the state after a move, if that is asked for. -/
def recordMoved (place : Workplace) (save : Bool) : Activity Unit := do
  if save then
    let settings ← Activity.act place.project.settings
    let _ ← Activity.act (place.history.save (← get).items settings)

/-- Scanning or moving that fails leaves the disk, and then nothing is recorded. -/
theorem scanAndMove_of_error (save : Bool) {f : Failure}
    (h : moveOnly place id column σ = (.error f, σ')) :
    scanAndMove place id column save σ = (.error f, σ') ∧ σ'.world.disk = σ.world.disk := by
  have hscan := Activity.keeps_scan World.disk place.project (fun _ _ => rfl) σ
  unfold scanAndMove moveOnly at *
  rcases h₁ : Activity.scan place.project σ with ⟨r, σ₁⟩
  rw [h₁] at hscan
  cases r with
  | error f =>
    rw [Steps.bind_of_error h₁] at h ⊢
    cases h
    exact ⟨rfl, hscan⟩
  | ok items =>
    rw [Steps.bind_of_ok h₁] at h ⊢
    -- a move that fails changes nothing but the log
    obtain ⟨log, rfl, -⟩ := Activity.exists_of_update_error h
    exact ⟨Steps.bind_of_error h, hscan⟩

/-- Once the item is moved the new state is recorded, and nothing else can fail. -/
theorem scanAndMove_of_ok {r : Except Failure Unit} {σ₂ : Session}
    (h : moveOnly place id column σ = (.ok j, σ')) (hrecord : recordMoved place save σ' = (r, σ₂)) :
    scanAndMove place id column save σ = (r.map fun _ => j, σ₂) := by
  unfold moveOnly at h
  rw [Steps.bind_ok_iff] at h
  obtain ⟨items, σ₁, hscan, hupdate⟩ := h
  unfold scanAndMove
  rw [Steps.bind_of_ok hscan, Steps.bind_of_ok hupdate]
  -- what is left are the steps of the recording, but for the result
  cases save with
  | false =>
    cases hrecord
    rfl
  | true =>
  unfold recordMoved at hrecord
  rw [if_pos rfl] at hrecord ⊢
  rcases hsettings : Activity.act place.project.settings σ' with ⟨r', σ₃⟩
  cases r' with
  | error f =>
    rw [Steps.bind_of_error hsettings] at hrecord ⊢
    cases hrecord
    rfl
  | ok settings =>
  rw [Steps.bind_of_ok hsettings, Steps.bind_of_ok Steps.get_apply] at hrecord ⊢
  rcases hsave : Activity.act (place.history.save σ₃.items settings) σ₃ with ⟨r', σ₄⟩
  cases r' with
  | error f =>
    rw [Steps.bind_of_error hsave] at hrecord ⊢
    cases hrecord
    rfl
  | ok h =>
    rw [Steps.bind_of_ok hsave] at hrecord ⊢
    cases hrecord
    rfl

/-- Recording, whether or not it succeeds, keeps all entries but that of the history. -/
theorem at?_of_recordMoved {r : Except Failure Unit} (h : recordMoved place save σ = (r, σ'))
    {q : Place} (hq : σ.world.disk.at? q ≠ none)
    (hne : q ≠ place.history.place σ.world.disk) :
    σ'.world.disk.at? q = σ.world.disk.at? q := by
  cases save with
  | false =>
    cases h
    rfl
  | true =>
  unfold recordMoved at h
  rw [if_pos rfl] at h
  -- loading the settings leaves the disk, so only saving can have changed it
  obtain ⟨log, hsettings⟩ := Activity.exists_act_settings place.project σ
  rcases hload : (place.project.settings σ.world).1 with f | settings
  · rw [hload] at hsettings
    rw [Steps.bind_of_error hsettings] at h
    cases h
    rfl
  rw [hload] at hsettings
  rw [Steps.bind_of_ok hsettings, Steps.bind_of_ok Steps.get_apply] at h
  rcases hsave : place.history.save σ.items settings { σ.world with log } with ⟨r', w'⟩
  have hact : Activity.act (place.history.save σ.items settings)
      { σ with world := { σ.world with log } } = (r', { σ with world := w' }) := by
    rw [Activity.act_apply, hsave]
  have hkept : w'.disk.at? q = σ.world.disk.at? q :=
    HistoryStore.at?_of_save (w := { σ.world with log }) hsave hq hne
  cases r' with
  | error f =>
    rw [Steps.bind_of_error hact] at h
    cases h
    exact hkept
  | ok h' =>
    rw [Steps.bind_of_ok hact] at h
    cases h
    exact hkept

/-! ## A move that fails -/

/-- Where the directory of the board cannot be made, nor any above it, nothing is recorded, and the
disk stays as it is. -/
theorem recordMoved_of_makePath {f : Disk.Fault}
    (h : σ.world.disk.makePath σ.world.refusals.makeDirectory place.dir =
      (.error f, σ.world.disk)) :
    ∃ f σ', recordMoved place true σ = (.error f, σ') ∧ σ'.world.disk = σ.world.disk := by
  unfold recordMoved
  rw [if_pos rfl]
  obtain ⟨log, hsettings⟩ := Activity.exists_act_settings place.project σ
  rcases hload : (place.project.settings σ.world).1 with f | settings
  · rw [hload] at hsettings
    exact ⟨f, _, Steps.bind_of_error hsettings, rfl⟩
  rw [hload] at hsettings
  rw [Steps.bind_of_ok hsettings, Steps.bind_of_ok Steps.get_apply]
  have hinit : place.history.initialise { σ.world with log } =
      (.error (.historyUnwritable place.dir f), { σ.world with log }) :=
    HistoryStore.initialise_of_makePath_error (w := { σ.world with log }) h
  have hsave : Activity.act (place.history.save σ.items settings)
      { σ with world := { σ.world with log } } =
      (.error (.historyUnwritable place.dir f), { σ with world := { σ.world with log } }) := by
    rw [Activity.act_apply]
    unfold HistoryStore.save
    rw [Steps.bind_of_error hinit]
  exact ⟨_, _, Steps.bind_of_error hsave, rfl⟩

/-- What the user is told about a move. -/
def movedText (item : Item) (column : Text) : Text :=
  "[green]Moved[/green] ".toList ++ Markup.escape item.fullTitle ++ " [dim](".toList ++
    location item.file item.line ++ ")[/dim] → [bold]".toList ++ column ++ "[/bold]".toList

/-- The move itself was carried out before something else failed. Scanning and moving succeeded and
put a new file in the stead of that of the item. All other entries are as they were, but for that
of the history. And the new state could not be recorded, or the user not be told. -/
def FailsAfterwards (place : Workplace) (id : Int) (column : Text) (save : Bool) (w : World)
    (d' : Disk) : Prop :=
  ∃ j σ q new m, moveOnly place id column (.start w) = (.ok j, σ) ∧
    Disk.Leads w.disk false Disk.linkLimit []
      (w.disk.absolute (place.root.join (Path.ofText j.file))).parts q ∧
    σ.world.disk = w.disk.put q (.file new m) ∧
    (∀ r, σ.world.disk.at? r ≠ none → r ≠ place.history.place σ.world.disk →
      d'.at? r = σ.world.disk.at? r) ∧
    ((∃ f σ', recordMoved place save σ = (.error f, σ')) ∨
      ∃ inside, Markup.shown (movedText j column) = .error inside)

/-- Moving an item puts a new file in the stead of that of the item. -/
theorem exists_of_moveOnly (h : moveOnly place id column σ = (.ok j, σ')) :
    ∃ q new m, Disk.Leads σ.world.disk false Disk.linkLimit []
        (σ.world.disk.absolute (place.root.join (Path.ofText j.file))).parts q ∧
      σ'.world.disk = σ.world.disk.put q (.file new m) := by
  unfold moveOnly at h
  rw [Steps.bind_ok_iff] at h
  obtain ⟨items, σ₁, hscan, h⟩ := h
  have hkept := Activity.keeps_scan World.disk place.project (fun _ _ => rfl) σ
  rw [hscan] at hkept
  obtain ⟨scan, i, hmoved⟩ := Activity.exists_moveItem_of_update h
  obtain ⟨q, -, -, new, m, hq, -, -, -, hput⟩ := Activity.exists_put_of_moveItem hmoved
  dsimp only at hkept
  rw [hkept] at hq hput
  exact ⟨q, new, m, hq, hput⟩

theorem move_eq (place : Workplace) (id : Int) (column : Text) (save : Bool) :
    move place id column save = attempt (fun f => concernsItem f || concernsHistory f)
      (scanAndMove place id column save) >>= fun item => say (movedText item column) := rfl

/-- If the new state cannot be recorded, that is a fault. The item is moved all the same. -/
theorem exists_move_of_record_error (out err : Text) {w : World} {f : Failure} {σ₂ : Session}
    (h : moveOnly place id column (.start w) = (.ok j, σ))
    (hrecord : recordMoved place save σ = (.error f, σ₂)) :
    ∃ stop c', move place id column save ⟨.start w, out, err⟩ = (.error stop, c') ∧
      c'.session = σ₂ ∧ stop.IsFault := by
  obtain ⟨stop, c', hstop, hrest⟩ := exists_attempt_of_error (c := ⟨.start w, out, err⟩)
    (scanAndMove_of_ok h hrecord)
  exact ⟨stop, c', Steps.bind_of_error hstop, hrest⟩

/-- The command succeeds, or leaves the disk, or fails after the move. -/
theorem move_cases (place : Workplace) (id : Int) (column : Text) (save : Bool) (w : World)
    (out err : Text) : ∃ r c', move place id column save ⟨.start w, out, err⟩ = (r, c') ∧
      (r = .ok () ∨ c'.session.world.disk = w.disk ∨
        FailsAfterwards place id column save w c'.session.world.disk) := by
  rcases hmoved : moveOnly place id column (.start w) with ⟨r, σ₁⟩
  cases r with
  | error f =>
    obtain ⟨hall, hdisk⟩ := scanAndMove_of_error save hmoved
    obtain ⟨stop, c', hstop, rfl, -⟩ := exists_attempt_of_error (c := ⟨.start w, out, err⟩) hall
    exact ⟨_, c', Steps.bind_of_error hstop, .inr (.inl hdisk)⟩
  | ok j =>
  obtain ⟨q, new, m, hq, hput⟩ := exists_of_moveOnly hmoved
  rcases hrecord : recordMoved place save σ₁ with ⟨r, σ₂⟩
  have hkept : ∀ r, σ₁.world.disk.at? r ≠ none →
      r ≠ place.history.place σ₁.world.disk → σ₂.world.disk.at? r = σ₁.world.disk.at? r :=
    fun r hr hne => at?_of_recordMoved hrecord hr hne
  cases r with
  | error f =>
    obtain ⟨stop, c', hstop, rfl, -⟩ := exists_move_of_record_error out err hmoved hrecord
    exact ⟨_, c', hstop, .inr (.inr
      ⟨j, σ₁, q, new, m, hmoved, hq, hput, hkept, .inl ⟨f, _, hrecord⟩⟩)⟩
  | ok _ =>
    rw [move_eq, Steps.bind_of_ok
      (attempt_of_ok (c := ⟨.start w, out, err⟩) (scanAndMove_of_ok hmoved hrecord))]
    rcases say_cases (movedText j column) ⟨σ₂, out, err⟩ with ⟨c', hsay⟩ | ⟨inside, hin, hsay⟩
    · exact ⟨_, c', hsay, .inl rfl⟩
    · exact ⟨_, _, hsay, .inr (.inr
        ⟨j, σ₁, q, new, m, hmoved, hq, hput, hkept, .inr ⟨inside, hin⟩⟩)⟩

end Command
end MarkerBoard
