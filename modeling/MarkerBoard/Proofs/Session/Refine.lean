import MarkerBoard.Proofs.Disk.Project
import MarkerBoard.Proofs.Project
import MarkerBoard.Proofs.Session.Moved

/-!
# Sessions refine the files

After a scan, a session follows its own moves without reading the files again. Its items show what
a new scan would show, through any number of moves that succeed or fail.

The invariant is `Session.Agrees`: the items of the session have the entries that a scan of the disk
would give, and all texts are in a form in which a move and a scan agree on where comments end.

Main results:

* `Activity.update_cases`, `Activity.exists_of_update`, `Activity.exists_of_update_error`,
  `Activity.session_of_update` — what a request to move an item does.
* `Disk.IsProject.exists_of_move` — what a move does to the files of a project.
* `Session.Agrees.afterMove` — one move preserves the invariant.
* `Session.preserved_of_request` — what moves preserve, requests preserve.
* `Session.Moves.agrees` — so does any sequence of requests.
* `Session.scan_of_moves` — a new scan after any sequence of requests shows the items of the
  session.
-/
namespace MarkerBoard

/-- A request to move an item to a column, made in some surroundings. -/
structure MoveRequest where
  around : Surroundings
  id : Int
  column : Text

/-- The user can sign a note, the year has four digits, and a scan can read the move back if there
is such a column. -/
structure MoveRequest.IsReadable (r : MoveRequest) (s : Settings) : Prop where
  signer : Comment.Signer r.around.user
  year : 1000 ≤ r.around.localNow.year
  target : ∀ c, s.column? r.column = some c → s.IsTarget c

/-- The user of the request has a name on one line. -/
def MoveRequest.IsOneLine (r : MoveRequest) : Prop :=
  '\n' ∉ r.around.user ∧ '\r' ∉ r.around.user

/-! ## Requests -/

namespace Activity

variable {p : Project} {σ σ' : Session} {id : Int} {column : Text}

theorem act_apply {α : Type} (a : Action α) (σ : Session) :
    act a σ = ((a σ.world).1, { σ with world := (a σ.world).2 }) := rfl

theorem exists_of_act {α : Type} {a : Action α} {r : Except Failure α} (h : act a σ = (r, σ')) :
    ∃ w', a σ.world = (r, w') ∧ σ' = { σ with world := w' } := by
  obtain ⟨hr, hσ⟩ := Prod.mk.inj h
  exact ⟨_, Prod.ext hr rfl, hσ.symm⟩

/-- Loading the settings changes nothing but the log. -/
theorem exists_act_settings (p : Project) (σ : Session) :
    ∃ log, act p.settings σ =
      ((p.settings σ.world).1, { σ with world := { σ.world with log } }) := by
  obtain ⟨log, hlog⟩ := p.logsOnly_settings σ.world
  exact ⟨log, by rw [act_apply, hlog]⟩

theorem item_apply (id : Int) (σ : Session) :
    item id σ = match σ.items.find? (·.id = id) with
      | some i => (.ok i, σ)
      | none => (.error (.unknownItem id), σ) := by
  rw [item, Steps.bind_of_ok Steps.get_apply]
  cases σ.items.find? (·.id = id) <;> rfl

/-- There is no such item, the settings cannot be loaded, or the item is moved. The session is the
same after a failure, but for the log. -/
theorem update_cases (p : Project) (id : Int) (column : Text) (σ : Session) :
    (σ.items.find? (·.id = id) = none ∧
      update p id column σ = (.error (.unknownItem id), σ)) ∨
    ∃ i log, σ.items.find? (·.id = id) = some i ∧
      ((∃ f, (p.settings σ.world).1 = .error f ∧
          update p id column σ = (.error f, { σ with world := { σ.world with log } })) ∨
        ∃ s, (p.settings σ.world).1 = .ok s ∧
          ((∃ f w', Action.move p.root s i column { σ.world with log } = (.error f, w') ∧
              update p id column σ = (.error f, { σ with world := { σ.world with log } })) ∨
            ∃ moved w', Action.move p.root s i column { σ.world with log } = (.ok moved, w') ∧
              update p id column σ = (.ok moved.item,
                Session.afterMove { σ with world := w' } σ.scanNumber moved))) := by
  have hitem := item_apply id σ
  rw [update]
  cases hfind : σ.items.find? (·.id = id) with
  | none =>
    rw [hfind] at hitem
    exact .inl ⟨rfl, Steps.bind_of_error hitem⟩
  | some i =>
  rw [hfind] at hitem
  obtain ⟨log, hsettings⟩ := exists_act_settings p σ
  refine .inr ⟨i, log, rfl, ?_⟩
  rw [Steps.bind_of_ok hitem, Steps.bind_of_ok Steps.get_apply, moveItem]
  cases hs : (p.settings σ.world).1 with
  | error f =>
    rw [hs] at hsettings
    exact .inl ⟨f, rfl, Steps.bind_of_error hsettings⟩
  | ok s =>
  rw [hs] at hsettings
  refine .inr ⟨s, rfl, ?_⟩
  rw [Steps.bind_of_ok hsettings]
  rcases hmove : Action.move p.root s i column { σ.world with log } with ⟨f | moved, w'⟩
  · refine .inl ⟨f, w', rfl, Steps.bind_of_error ?_⟩
    rw [act_apply, hmove, Action.eq_of_move_error hmove]
  · exact .inr ⟨moved, w', rfl, Steps.bind_of_ok (by rw [act_apply, hmove])⟩

/-- A request that fails changes nothing but the log. There is no such item, the settings cannot be
loaded, or the move fails. -/
theorem exists_of_update_error {f : Failure} (h : update p id column σ = (.error f, σ')) :
    ∃ log, σ' = { σ with world := { σ.world with log } } ∧
      (f = .unknownItem id ∨ (p.settings σ.world).1 = .error f ∨
        ∃ i ∈ σ.items, ∃ s w', (p.settings σ.world).1 = .ok s ∧
          Action.move p.root s i column { σ.world with log } = (.error f, w')) := by
  rcases update_cases p id column σ with ⟨-, hid⟩ | ⟨i, log, hfind, ⟨f', hs, hload⟩ |
    ⟨s, hs, ⟨f', w', hmove, hfault⟩ | ⟨moved, w', -, hok⟩⟩⟩
  · cases hid.symm.trans h
    exact ⟨σ.world.log, rfl, .inl rfl⟩
  · cases hload.symm.trans h
    exact ⟨log, rfl, .inr (.inl hs)⟩
  · cases hfault.symm.trans h
    exact ⟨log, rfl, .inr (.inr ⟨i, List.mem_of_find?_eq_some hfind, s, w', hs, hmove⟩)⟩
  · cases hok.symm.trans h

/-- A request that succeeds has moved an item of the session on the disk, and the session has
followed. -/
theorem exists_of_update {j : Item} (h : update p id column σ = (.ok j, σ')) :
    ∃ i ∈ σ.items, ∃ s log moved w', (p.settings σ.world).1 = .ok s ∧
      Action.move p.root s i column { σ.world with log } = (.ok moved, w') ∧
      σ' = Session.afterMove { σ with world := w' } σ.scanNumber moved := by
  rcases update_cases p id column σ with ⟨-, hid⟩ | ⟨i, log, hfind, ⟨f', -, hload⟩ |
    ⟨s, hs, ⟨f', w', -, hfault⟩ | ⟨moved, w', hmove, hok⟩⟩⟩
  · cases hid.symm.trans h
  · cases hload.symm.trans h
  · cases hfault.symm.trans h
  · cases hok.symm.trans h
    exact ⟨i, List.mem_of_find?_eq_some hfind, s, log, moved, w', hs, hmove, rfl⟩

/-- The session after a request: only the log has changed, or the session has followed a move of one
of its items. -/
theorem session_of_update (p : Project) (id : Int) (column : Text) (σ : Session) :
    (∃ log, (update p id column σ).2 = { σ with world := { σ.world with log } }) ∨
      ∃ i ∈ σ.items, ∃ s log moved w', (p.settings σ.world).1 = .ok s ∧
        Action.move p.root s i column { σ.world with log } = (.ok moved, w') ∧
        (update p id column σ).2 = Session.afterMove { σ with world := w' } σ.scanNumber moved := by
  rcases hupdate : update p id column σ with ⟨f | j, σ'⟩
  · obtain ⟨log, rfl, -⟩ := exists_of_update_error hupdate
    exact .inl ⟨log, rfl⟩
  · exact .inr (exists_of_update hupdate)

end Activity

/-- A move of an item that a scan has read replaces the text of its file, and what else a scan reads
stays the same. -/
theorem Disk.IsProject.exists_of_move {p : Project} {s : Settings} {place : Place}
    {ignored : List Ignore.Pattern} {w w' : World} (h : w.disk.IsProject p.root place) {i : Item}
    {names : List Text} {text : Text} (hfile : i.file = Text.join ['/'] names)
    (hnames : names ∈
      Walk.files w.disk p.root s.exclusions.directories (Ignore.ignores ignored))
    (htext : w.disk.text? (Disk.filePath p.root names) = some text) {column : Text} {moved : Moved}
    (hmove : Action.move p.root s i column w = (.ok moved, w')) :
    ∃ c new front back, s.column? column = some c ∧
      i.movedLines s c w.localNow (w.git.currentUser w.env) (Line.split text) = .ok new ∧
      moved = ⟨i.moved s c w.localNow (w.git.currentUser w.env),
        new.length - (Line.split text).length⟩ ∧
      w'.disk.IsProject p.root place ∧
      (∀ e ∈ front ++ back, e.1 ≠ i.file) ∧
      w.disk.sources p.root s.exclusions.directories ignored = front ++ (i.file, text) :: back ∧
      w'.disk.sources p.root s.exclusions.directories ignored =
        front ++ (i.file, new.flatten) :: back := by
  obtain ⟨c, text', new, d', hcol, htext', hnew, hrep, rfl, rfl⟩ := Action.exists_of_move hmove
  obtain ⟨hne, b, m, hat⟩ := h.exists_of_mem_files hnames
  have hisName := h.isName names (by rw [hat]; simp)
  -- the item's file is the file of the project that the scan has read
  have hpath : p.root.join (Path.ofText i.file) = Disk.filePath p.root names := by
    rw [hfile, Path.join_ofText_join _ hne hisName]
    rfl
  rw [hpath, htext] at htext'
  cases htext'
  -- and it is the file that the move has replaced
  obtain ⟨old, hold⟩ := Action.exists_bytes_of_text? htext
  rw [hpath] at hrep
  obtain ⟨q, mode, hleads, -, rfl⟩ := Action.replaced_eq_put hold hrep
  rw [h.leads_iff false (by rw [hat]; simp) hne] at hleads
  subst hleads
  obtain ⟨front, back, hother, hsources, hput⟩ := h.exists_sources_put hnames htext
  rw [← hfile] at hother hsources
  refine ⟨c, new, front, back, hcol, hnew, rfl, h.put hat, hother, hsources, ?_⟩
  rw [hfile]
  exact hput new.flatten mode

/-! ## The invariant -/

namespace Session

variable {p : Project} {s : Settings} {σ σ' : Session} {place : Place}
  {ignored : List Ignore.Pattern}

/-- All texts that a scan reads are in a form in which a move and a scan agree on where comments
end, and on where lines do. -/
def OwnTexts (s : Settings) (d : Disk) (root : Path) (ignored : List Ignore.Pattern) : Prop :=
  ∀ e ∈ d.sources root s.exclusions.directories ignored,
    e.2.getLast? ≠ some '\r' ∧ Grammar.OwnSyntax (Comment.openerFor e.1) (Line.split e.2)

/-- The items of the session show what a scan of the disk would show, and the scan can read moves
back. -/
structure Agrees (p : Project) (s : Settings) (place : Place) (ignored : List Ignore.Pattern)
    (σ : Session) : Prop where
  project : σ.world.disk.IsProject p.root place
  texts : OwnTexts s σ.world.disk p.root ignored
  entries : σ.items.map Entry.ofItem =
    ((ScanContext.base s).itemsOn σ.world.disk p.root ignored).map Entry.ofItem

theorem Agrees.of_eq (h : Agrees p s place ignored σ) (hdisk : σ'.world.disk = σ.world.disk)
    (hitems : σ'.items = σ.items) : Agrees p s place ignored σ' := by
  obtain ⟨hproject, htexts, hentries⟩ := h
  constructor
  · rwa [hdisk]
  · rwa [hdisk]
  · rwa [hdisk, hitems]

/-- An item of the session is one that a scan reads from the text of its file. -/
theorem Agrees.exists_source (h : Agrees p s place ignored σ) {i : Item} (hi : i ∈ σ.items) :
    ∃ names text, i.file = Text.join ['/'] names ∧
      names ∈ Walk.files σ.world.disk p.root s.exclusions.directories (Ignore.ignores ignored) ∧
      σ.world.disk.text? (Disk.filePath p.root names) = some text ∧
      ∃ j ∈ (ScanContext.base s).itemsOn σ.world.disk p.root ignored,
        Entry.ofItem j = Entry.ofItem i := by
  have hentry := List.mem_map_of_mem (f := Entry.ofItem) hi
  rw [h.entries, List.mem_map] at hentry
  obtain ⟨j, hj, hji⟩ := hentry
  obtain ⟨f, hf, hfile⟩ := ScanContext.exists_file_of_mem_itemsOfFiles hj
  obtain ⟨names, hnames, hname, htext⟩ := Disk.IsProject.exists_of_mem_sources hf
  exact ⟨names, f.2, (congrArg Entry.file hji).symm.trans (hfile.trans hname), hnames, htext, j,
    hj, hji⟩

theorem afterMove_scanNumber (σ : Session) (w : World) (moved : Moved) :
    afterMove { σ with world := w } σ.scanNumber moved =
      { σ with world := w, items := (putItem moved.item σ.items).map (shift moved) } := by
  simp [Session.afterMove, scanNumber]

/-- A successful move of an item of the session preserves the invariant. -/
theorem Agrees.afterMove (h : Agrees p s place ignored σ) (hs : (Grammar.ofSettings s).Plain)
    {i : Item} (hi : i ∈ σ.items) {w w' : World} (hw : w.disk = σ.world.disk)
    {column : Text} (hc : ∀ c, s.column? column = some c → s.IsTarget c)
    (hm : 1000 ≤ w.localNow.year) (hu : Comment.Signer (w.git.currentUser w.env)) {moved : Moved}
    (hmove : Action.move p.root s i column w = (.ok moved, w')) :
    Agrees p s place ignored (Session.afterMove { σ with world := w' } σ.scanNumber moved) := by
  obtain ⟨names, text, hfile, hnames, htext, j, hj, hji⟩ := h.exists_source hi
  have hproject : w.disk.IsProject p.root place := hw ▸ h.project
  rw [← hw] at hnames htext
  obtain ⟨c, new, front, back, hcol, hnew, rfl, hproject', hother, hsources, hsources'⟩ :=
    hproject.exists_of_move hfile hnames htext hmove
  rw [hw] at hsources
  have htarget := hc c hcol
  have hform := h.texts (i.file, text) (by rw [hsources]; simp)
  have htexts := (ScanContext.base s).form_moved hs hform.1 hform.2 htarget hm hu hnew
  rw [afterMove_scanNumber]
  refine ⟨hproject', ?_, ?_⟩
  -- the other texts are as they were, and the edited one has the form of the old one
  · intro e he
    rw [hsources'] at he
    rcases List.mem_append.1 he with he | he
    · exact h.texts e (by rw [hsources]; exact List.mem_append_left _ he)
    · rcases List.mem_cons.1 he with rfl | he
      · exact htexts
      · exact h.texts e (by rw [hsources]; simp [he])
  · rw [ScanContext.itemsOn_base, hsources] at hj
    show ((putItem _ σ.items).map (shift _)).map Entry.ofItem = _
    rw [map_entry_afterMove, h.entries, ScanContext.itemsOn_base, ScanContext.itemsOn_base,
      hsources, hsources']
    exact ((ScanContext.base s).map_entry_itemsOfFiles_moved hs hform.1 hform.2 htarget hm hu
      hnew hother hj hji).symm

/-! ## Sequences of requests -/

/-- The session in other surroundings. -/
def within (σ : Session) (o : Surroundings) : Session := { σ with world := σ.world.within o }

/-- The session after a request, whether it succeeds or fails. -/
def request (p : Project) (σ : Session) (r : MoveRequest) : Session :=
  (Activity.update p r.id r.column (σ.within r.around)).2

/-- A finite sequence of requests, at each of which the project has the same settings. -/
inductive Moves (p : Project) (s : Settings) (σ : Session) : Session → Prop
  | none : Moves p s σ σ
  | step {σ' : Session} (r : MoveRequest) : Moves p s σ σ' → r.IsReadable s →
      (p.settings (σ'.world.within r.around)).1 = .ok s → Moves p s σ (σ'.request p r)

/-- A finite sequence of requests of any users with names on one line, at each of which the project
has the same settings. -/
inductive Requests (p : Project) (s : Settings) (σ : Session) : Session → Prop
  | none : Requests p s σ σ
  | step {σ' : Session} (r : MoveRequest) : Requests p s σ σ' → r.IsOneLine →
      (p.settings (σ'.world.within r.around)).1 = .ok s → Requests p s σ (σ'.request p r)

theorem Moves.requests (hm : Moves p s σ σ') : Requests p s σ σ' := by
  induction hm with
  | none => exact .none
  | step r _ hr hsettings ih => exact ih.step r ⟨hr.signer.not_lf, hr.signer.not_cr⟩ hsettings

/-- A request preserves what depends on the disk and the items alone, if each move of an item that
succeeds does. -/
theorem preserved_of_request {P : Session → Prop}
    (heq : ∀ {σ σ' : Session}, P σ → σ'.world.disk = σ.world.disk → σ'.items = σ.items → P σ')
    {r : MoveRequest} (hsettings : (p.settings (σ.world.within r.around)).1 = .ok s) (h : P σ)
    (hmove : ∀ i ∈ σ.items, ∀ log moved w',
      Action.move p.root s i r.column { σ.world.within r.around with log } = (.ok moved, w') →
        P (Session.afterMove { σ with world := w' } σ.scanNumber moved)) :
    P (σ.request p r) := by
  rw [Session.request]
  rcases Activity.session_of_update p r.id r.column (σ.within r.around) with ⟨log, hsession⟩ |
    ⟨i, hi, s', log, moved, w', hs', hmoved, hsession⟩
  · rw [hsession]
    exact heq h rfl rfl
  · cases hsettings.symm.trans hs'
    rw [hsession]
    exact hmove i hi log moved w' hmoved

/-- A request preserves the invariant, whether it succeeds or fails. -/
theorem Agrees.request (h : Agrees p s place ignored σ) (hs : (Grammar.ofSettings s).Plain)
    {r : MoveRequest} (hr : r.IsReadable s)
    (hsettings : (p.settings (σ.world.within r.around)).1 = .ok s) :
    Agrees p s place ignored (σ.request p r) :=
  preserved_of_request Agrees.of_eq hsettings h fun _ hi log _ _ hmove =>
    h.afterMove (w := { σ.world.within r.around with log }) hs hi rfl hr.target hr.year hr.signer
      hmove

/-- Any sequence of requests preserves the invariant. -/
theorem Moves.agrees (hm : Moves p s σ σ') (hs : (Grammar.ofSettings s).Plain)
    (h : Agrees p s place ignored σ) : Agrees p s place ignored σ' := by
  induction hm with
  | none => exact h
  | step r _ hr hsettings ih => exact ih.request hs hr hsettings

/-- A session without items has none to move. -/
theorem Requests.items_eq_nil (hm : Requests p s σ σ') (h : σ.items = []) : σ'.items = [] := by
  induction hm with
  | none => exact h
  | step r _ _ hsettings ih =>
    refine preserved_of_request (P := fun σ => σ.items = []) (fun hnil _ hitems => hitems.trans hnil)
      hsettings ih fun i hi => ?_
    rw [ih] at hi
    exact absurd hi List.not_mem_nil

end Session

/-! ## Scans -/

namespace Action

variable {p : Project} {s : Settings} {w w' : World}

/-- What a scan finds with given settings: nothing on a board without keywords, else the items of
the files that are not ignored. -/
theorem scan_apply (hs : (p.settings w).1 = .ok s) : ∃ log log',
    (scan p w) = if (Grammar.ofSettings s).isMute then (.ok [], { w with log := log' })
      else match Ignore.patterns s.exclusions.files with
        | .error pattern => (.error (.badPattern pattern), { w with log })
        | .ok ignored => (.ok ((⟨s, w.git.currentUser w.env, w.localNow⟩ : ScanContext).itemsOn
            w.disk p.root ignored), { w with log }) := by
  obtain ⟨log, hlog⟩ := p.logsOnly_settings w
  refine ⟨log, log ++ [.warning], ?_⟩
  rw [scan, Steps.bind_of_ok (Prod.ext hs hlog), Steps.bind_of_ok Steps.get_apply]
  dsimp only
  split
  · rfl
  · cases Ignore.patterns s.exclusions.files <;> rfl

theorem logsOnly_scan (p : Project) : LogsOnly (scan p) := by
  refine p.logsOnly_settings.bind fun s => logsOnly_get.bind fun w => ?_
  dsimp only
  split
  · exact (logsOnly_note _).bind fun _ => logsOnly_pure _
  · split
    · exact logsOnly_throw _
    · exact logsOnly_pure _

/-- Every item that a scan finds comes from a marker and the lines after it. -/
theorem exists_of_mem_scan {items : List Item} {i : Item} (hs : (p.settings w).1 = .ok s)
    (h : scan p w = (.ok items, w')) (hi : i ∈ items) :
    ∃ (ctx : ScanContext) (first : Column) (file : Text) (id : Int) (n : Nat) (m : MarkerLine)
      (lines : List Text), ctx.settings = s ∧ s.firstColumn? = some first ∧
      i = ctx.item first file id n m ((Grammar.ofSettings s).block lines) := by
  obtain ⟨log, log', hscan⟩ := scan_apply hs
  rw [hscan] at h
  split at h
  · cases h
    exact absurd hi List.not_mem_nil
  · split at h
    · cases h
    · cases h
      obtain ⟨first, file, id, n, m, lines, hfirst, rfl⟩ := ScanContext.exists_of_mem_itemsOn hi
      exact ⟨_, first, file, id, n, m, lines, rfl, hfirst, rfl⟩

end Action

/-- What a session has after a scan: no items on a board without keywords, else those of the files
that are not ignored. -/
theorem Activity.exists_of_scan {p : Project} {s : Settings} {start scanned : Session}
    (hs : (p.settings start.world).1 = .ok s) {items : List Item}
    (hscan : Activity.scan p start = (.ok items, scanned)) :
    scanned.world.disk = start.world.disk ∧ (scanned.items = [] ∨
      ∃ ignored, Ignore.patterns s.exclusions.files = .ok ignored ∧
        ∃ ctx : ScanContext, ctx.settings = s ∧
          scanned.items = ctx.itemsOn start.world.disk p.root ignored) := by
  rw [Activity.scan, Steps.bind_ok_iff] at hscan
  obtain ⟨found, σ₁, hact, hscan⟩ := hscan
  obtain ⟨w₁, hw₁, rfl⟩ := Activity.exists_of_act hact
  obtain ⟨-, rfl⟩ := Prod.mk.inj hscan
  obtain ⟨log, log', hfirst⟩ := Action.scan_apply hs
  rw [hw₁] at hfirst
  split at hfirst
  · cases hfirst
    exact ⟨rfl, .inl rfl⟩
  · split at hfirst
    · cases hfirst
    · next ignored hignored =>
      cases hfirst
      exact ⟨rfl, .inr ⟨ignored, hignored, _, rfl, rfl⟩⟩

namespace Session

variable {p : Project} {s : Settings} {start scanned σ : Session} {place : Place}

/-- After a scan and any sequence of requests, a new scan finds items with the entries that the
session shows, in the same order. -/
theorem scan_of_moves (hs : (Grammar.ofSettings s).Plain)
    (hproject : start.world.disk.IsProject p.root place)
    (htexts : ∀ ignored, Ignore.patterns s.exclusions.files = .ok ignored →
      OwnTexts s start.world.disk p.root ignored)
    (hsettings : (p.settings start.world).1 = .ok s) {items : List Item}
    (hscan : Activity.scan p start = (.ok items, scanned)) (hmoves : Moves p s scanned σ)
    (o : Surroundings) (ho : (p.settings (σ.world.within o)).1 = .ok s) :
    ∃ fresh w, Action.scan p (σ.world.within o) = (.ok fresh, w) ∧
      fresh.map Entry.ofItem = σ.items.map Entry.ofItem := by
  rw [Activity.scan, Steps.bind_ok_iff] at hscan
  obtain ⟨found, σ₁, hact, hscan⟩ := hscan
  obtain ⟨w₁, hw₁, rfl⟩ := Activity.exists_of_act hact
  obtain ⟨-, rfl⟩ := Prod.mk.inj hscan
  obtain ⟨log, log', hfirst⟩ := Action.scan_apply hsettings
  obtain ⟨log₂, log₂', hagain⟩ := Action.scan_apply ho
  rw [hw₁] at hfirst
  rw [hagain]
  -- both scans have the same settings, so they find nothing, fail or read the files together
  cases hmute : (Grammar.ofSettings s).isMute with
  | true =>
    rw [hmute, if_pos rfl] at hfirst
    obtain ⟨hfound, rfl⟩ := Prod.mk.inj hfirst
    cases hfound
    refine ⟨[], _, if_pos rfl, ?_⟩
    rw [hmoves.requests.items_eq_nil rfl]
  | false =>
    rw [hmute, if_neg (by simp)] at hfirst
    cases hignored : Ignore.patterns s.exclusions.files with
    | error pattern =>
      rw [hignored] at hfirst
      cases hfirst
    | ok ignored =>
      rw [hignored] at hfirst
      obtain ⟨hfound, rfl⟩ := Prod.mk.inj hfirst
      cases hfound
      -- what the first scan has found agrees with the disk, and the requests keep it so
      have hagrees : Agrees p s place ignored σ := by
        refine hmoves.agrees hs ⟨hproject, htexts ignored hignored, ?_⟩
        exact ScanContext.map_entry_itemsOfFiles_base _ 1
      refine ⟨_, _, if_neg (by simp), ?_⟩
      rw [hagrees.entries]
      exact ScanContext.map_entry_itemsOfFiles_base _ 1

end Session

/-! ## Two requests in a small project -/

namespace Session

/-- A file with two items, whose last line has no end. -/
def sampleText : Text := "#TODO: a\n#FIXME: b".toList

/-- A project of that file alone. -/
def sampleProject : Project := ⟨⟨['/'], ["p".toList]⟩, .fixed ScanContext.sampleBoard⟩

/-- A session on a disk with the project, before any scan. -/
def sampleStart : Session := start { Action.sampleWorld with
  disk := ⟨⟨['/'], []⟩, [(["p".toList], .dir),
    (["p".toList, "a.py".toList], .file (Utf8.encode sampleText) 0o644)]⟩ }

/-- The session after a scan. -/
def sampleScanned : Session := (Activity.scan sampleProject sampleStart).2

/-- Surroundings with a user and a year that notes can bear. -/
def sampleSurroundings : Surroundings where
  env := []
  git := { Git.silent with userName := some "ann".toList }
  localNow := Action.sampleWorld.localNow
  utcNow := .first
  refusals := .none
  freshName := "t".toList

/-- A request to move the first item. -/
def sampleRequest : MoveRequest := ⟨sampleSurroundings, 1, "done".toList⟩

/-- A request to move an item that there is not. -/
def sampleRefusedRequest : MoveRequest := ⟨sampleSurroundings, 9, "done".toList⟩

/-- The session after the scan and both requests. -/
def sampleMoved : Session :=
  (sampleScanned.request sampleProject sampleRequest).request sampleProject sampleRefusedRequest

theorem isReadable_done (id : Int) :
    MoveRequest.IsReadable ⟨sampleSurroundings, id, "done".toList⟩ ScanContext.sampleBoard := by
  have hsigner : Comment.Signer sampleSurroundings.user :=
    ⟨by decide, by decide, by decide, by decide⟩
  have hyear : 1000 ≤ sampleSurroundings.localNow.year := by decide
  refine ⟨hsigner, hyear, ?_⟩
  · have hcolumn : ScanContext.sampleBoard.column? "done".toList =
        some ⟨"done".toList, "DONE".toList, [], none⟩ := by decide
    intro c hc
    cases hcolumn.symm.trans hc
    rw [Settings.IsTarget, if_neg (by decide)]
    cbv

set_option maxRecDepth 4000 in
theorem scan_of_moves_sampleMoved :
    sampleMoved.items.map Entry.ofItem =
      [⟨1, "a.py".toList, 1, "TODO".toList, "a".toList, "done".toList, true⟩,
        ⟨2, "a.py".toList, 3, "FIXME".toList, "b".toList, "todo".toList, false⟩] ∧
    ∃ fresh w, Action.scan sampleProject (sampleMoved.world.within sampleSurroundings) =
        (.ok fresh, w) ∧
      fresh.map Entry.ofItem = sampleMoved.items.map Entry.ofItem := by
  refine ⟨by cbv, ?_⟩
  have hproject : sampleStart.world.disk.IsProject sampleProject.root ["p".toList] :=
    Disk.isProject_of_forall (by cbv) (by decide) (by decide) (by decide)
  have hsources : sampleStart.world.disk.sources sampleProject.root [] [] =
      [("a.py".toList, sampleText)] := by cbv
  have htexts : ∀ ignored, Ignore.patterns [] = .ok ignored →
      OwnTexts ScanContext.sampleBoard sampleStart.world.disk sampleProject.root ignored := by
    intro ignored hignored
    cases hignored
    intro e he
    rw [show ScanContext.sampleBoard.exclusions.directories = [] from rfl, hsources,
      List.mem_singleton] at he
    subst he
    exact ⟨by decide, by unfold Grammar.OwnSyntax; decide⟩
  have hok : (Activity.scan sampleProject sampleStart).1.toBool = true := by cbv
  obtain ⟨items, hscan⟩ := Steps.exists_of_toBool hok
  exact scan_of_moves ⟨by decide, by decide, by decide, by decide, by decide, by decide⟩ hproject
    htexts rfl hscan
    ((Moves.none.step sampleRequest (isReadable_done 1) rfl).step
      sampleRefusedRequest (isReadable_done 9) rfl) sampleSurroundings rfl

end Session
end MarkerBoard
