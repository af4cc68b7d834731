import MarkerBoard.Proofs.Block.Marker
import MarkerBoard.Proofs.Session.Refine

/-!
# Sessions keep finding their items

A session knows the items of its latest scan by their files and lines, and moves them without
reading the other files again. The lines stay right through any number of its own moves: whatever a
move writes, the marker of each item is where the session says, and no request fails because it is
not.

Nothing is asked of the board or of the files that would make a scan read the moves back. A note
may be a marker, and the comments of a file may be in several syntaxes.

Main results:

* `Grammar.Finds.edited` — an edit of one file keeps all markers found.
* `Session.Located.request` — so does a request, whether it succeeds or fails.
* `Session.located_of_requests` — after a scan and any sequence of requests, all items are found.
-/
namespace MarkerBoard

/-- What an item is found by: its file and line, and what its marker says there. -/
structure Spot where
  id : Int
  file : Text
  line : Int
  keyword : Text
  title : Text

namespace Spot

/-- The spot of an item. -/
def ofItem (i : Item) : Spot := ⟨i.id, i.file, i.line, i.keyword, i.title⟩

/-- Where it is. -/
def place (x : Spot) : Text × Int := (x.file, x.line)

/-- The spot after a file has grown below a line. -/
def grown (file : Text) (line growth : Int) (x : Spot) : Spot :=
  if x.file = file ∧ line < x.line then { x with line := x.line + growth } else x

variable {file : Text} {line growth : Int} {x : Spot}

theorem grown_of_below (hfile : x.file = file) (hline : line < x.line) :
    x.grown file line growth = { x with line := x.line + growth } := if_pos ⟨hfile, hline⟩

theorem grown_of_ne (h : x.file ≠ file) : x.grown file line growth = x := if_neg fun ha => h ha.1

theorem grown_of_le (h : x.line ≤ line) : x.grown file line growth = x :=
  if_neg fun ha => absurd ha.2 (by omega)

@[simp] theorem grown_id : (x.grown file line growth).id = x.id := by
  rw [grown]
  split <;> rfl

@[simp] theorem grown_file : (x.grown file line growth).file = x.file := by
  rw [grown]
  split <;> rfl

/-- Spots that share a place after a file has grown have shared one before, if nothing below the
line has passed it. -/
theorem place_eq_of_grown {y : Spot} (hx : x.file = file → line < x.line → line < x.line + growth)
    (hy : y.file = file → line < y.line → line < y.line + growth)
    (h : (x.grown file line growth).place = (y.grown file line growth).place) :
    x.place = y.place := by
  obtain ⟨hfiles, hlines⟩ := Prod.mk.inj h
  rw [grown_file, grown_file] at hfiles
  have hsame : x.line = y.line := by
    by_cases hx' : x.file = file ∧ line < x.line <;> by_cases hy' : y.file = file ∧ line < y.line
    · rw [grown_of_below hx'.1 hx'.2, grown_of_below hy'.1 hy'.2] at hlines
      simpa using hlines
    · -- one that has moved is still below the line, the other is not
      rw [grown_of_below hx'.1 hx'.2, grown, if_neg hy'] at hlines
      exact absurd ⟨hfiles ▸ hx'.1, hlines ▸ hx hx'.1 hx'.2⟩ hy'
    · rw [grown_of_below hy'.1 hy'.2, grown, if_neg hx'] at hlines
      exact absurd ⟨hfiles ▸ hy'.1, hlines ▸ hy hy'.1 hy'.2⟩ hx'
    · rwa [grown, grown, if_neg hx', if_neg hy'] at hlines
  rw [place, place, hfiles, hsame]

theorem ofItem_moved {i : Item} {s : Settings} {c : Column} {time : Moment} {user : Text}
    (hc : c ∈ s.columns) : ofItem (i.moved s c time user) = ofItem i := by
  have hentry : Entry.ofItem (i.moved s c time user) = _ := Item.ofItem_moved hc
  simp only [Entry.ofItem, Entry.mk.injEq] at hentry
  simp only [ofItem, hentry]

end Spot

/-! ## Files -/

namespace Grammar

/-- In the given files there are the markers of all spots, which are different. -/
structure Finds (g : Grammar) (files : List (Text × Text)) (spots : List Spot) : Prop where
  ids : (spots.map Spot.id).Nodup
  places : (spots.map Spot.place).Nodup
  marker : ∀ x ∈ spots, ∃ text, (x.file, text) ∈ files ∧
    g.MarkerAt (Line.split text) x.line x.keyword x.title

variable {g : Grammar} {opener note file text : Text} {number : Int}
  {expected : Option (Text × Text)} {new : List Text} {front back : List (Text × Text)}
  {spots : List Spot}

/-- The markers of the spots of one file are in its text. -/
theorem Finds.markerAt (h : g.Finds (front ++ (file, text) :: back) spots)
    (hother : ∀ e ∈ front ++ back, e.1 ≠ file) {x : Spot} (hx : x ∈ spots) (hfile : x.file = file) :
    g.MarkerAt (Line.split text) x.line x.keyword x.title := by
  obtain ⟨text', hmem, hat⟩ := h.marker x hx
  have hname : (x.file, text') = (file, text) ∨ (x.file, text') ∈ front ++ back := by
    simp only [List.mem_append, List.mem_cons] at hmem ⊢
    tauto
  rcases hname with heq | hmem
  · rwa [(Prod.mk.inj heq).2] at hat
  · exact absurd hfile (hother _ hmem)

/-- An edit of one file keeps all markers found, those of the file below its line as many lines
further down as the file has grown. -/
theorem Finds.edited (h : g.Finds (front ++ (file, text) :: back) spots)
    (hother : ∀ e ∈ front ++ back, e.1 ≠ file) (hcr : text.getLast? ≠ some '\r')
    (hn : '\n' ∉ note ∧ '\r' ∉ note)
    (hedit : g.edit opener note expected number (Line.split text) = .ok new) :
    g.Finds (front ++ (file, new.flatten) :: back)
      (spots.map (Spot.grown file number (new.length - (Line.split text).length))) := by
  set growth : Int := new.length - (Line.split text).length with hgrowth
  refine ⟨?_, ?_, ?_⟩
  · -- the numbers are the same
    have hsame : Spot.id ∘ Spot.grown file number growth = Spot.id := funext fun _ => Spot.grown_id
    rw [List.map_map, hsame]
    exact h.ids
  · -- the places still differ, as no line passes the edited one
    have hbelow : ∀ x ∈ spots, x.file = file → number < x.line → number < x.line + growth :=
      fun x hx hfile hline => (((h.markerAt hother hx hfile).edited hcr hn hedit).2 hline).1
    rw [List.map_map, List.Nodup, List.pairwise_map]
    refine (List.pairwise_map.1 h.places).imp_of_mem fun {x y} hx hy hne heq => hne ?_
    exact Spot.place_eq_of_grown (hbelow x hx) (hbelow y hy) heq
  · -- in the edited file the markers have moved with their lines, the other files are as before
    intro x' hx'
    obtain ⟨x, hx, rfl⟩ := List.mem_map.1 hx'
    by_cases hfile : x.file = file
    · have hedited := (h.markerAt hother hx hfile).edited hcr hn hedit
      refine ⟨new.flatten, by simp [hfile], ?_⟩
      by_cases hline : number < x.line
      · rw [Spot.grown_of_below hfile hline]
        exact (hedited.2 hline).2
      · rw [Spot.grown_of_le (by omega)]
        exact hedited.1 (by omega)
    · obtain ⟨text', hmem, hat⟩ := h.marker x hx
      rw [Spot.grown_of_ne hfile]
      refine ⟨text', ?_, hat⟩
      simp only [List.mem_append, List.mem_cons, Prod.mk.injEq] at hmem ⊢
      tauto

end Grammar

/-! ## Scans -/

namespace ScanContext

variable {ctx : ScanContext} {file : Text} {i : Item}

theorem nodup_places_itemsOfFiles {files : List (Text × Text)} (h : (files.map Prod.fst).Nodup)
    (id : Int) :
    (((ctx.itemsOfFiles id files).flatten.map Spot.ofItem).map Spot.place).Nodup := by
  induction files generalizing id with
  | nil => exact List.nodup_nil
  | cons e files ih =>
    rw [List.map_cons, List.nodup_cons] at h
    rw [itemsOfFiles, List.flatten_cons, List.map_append, List.map_append, List.nodup_append]
    refine ⟨?_, ih h.2 _, ?_⟩
    · -- within a file the lines increase
      rw [List.map_map, List.Nodup, List.pairwise_map]
      refine (ctx.pairwise_line_items e.1 id e.2).imp fun {i j} hlt heq => ?_
      have hline : i.line = j.line := congrArg Prod.snd heq
      omega
    · -- the items of the other files are in other files
      intro x hx y hy heq
      obtain ⟨_, hx', rfl⟩ := List.mem_map.1 hx
      obtain ⟨i, hi, rfl⟩ := List.mem_map.1 hx'
      obtain ⟨_, hy', rfl⟩ := List.mem_map.1 hy
      obtain ⟨j, hj, rfl⟩ := List.mem_map.1 hy'
      have hfile : i.file = j.file := congrArg Prod.fst heq
      rw [file_of_mem_items hi] at hfile
      obtain ⟨e', he', hjfile⟩ := exists_file_of_mem_itemsOfFiles hj
      exact h.1 (hfile.trans hjfile ▸ List.mem_map_of_mem he')

/-- The items of a scan are found. -/
theorem finds_itemsOfFiles (ctx : ScanContext) {files : List (Text × Text)}
    (h : (files.map Prod.fst).Nodup) :
    (Grammar.ofSettings ctx.settings).Finds files
      ((ctx.itemsOfFiles 1 files).flatten.map Spot.ofItem) := by
  refine ⟨?_, nodup_places_itemsOfFiles h 1, ?_⟩
  · rw [List.map_map]
    show ((ctx.itemsOfFiles 1 files).flatten.map Item.id).Nodup
    rw [map_id_itemsOfFiles]
    exact nodup_numbersFrom ..
  · intro x hx
    obtain ⟨i, hi, rfl⟩ := List.mem_map.1 hx
    obtain ⟨id, e, he, hie⟩ := exists_of_mem_itemsOfFiles hi
    have hfile : i.file = e.1 := file_of_mem_items hie
    exact ⟨e.2, by rwa [Spot.ofItem, hfile], markerAt_of_mem_items hie⟩

end ScanContext

/-! ## Sessions -/

/-- What a move to a column with a name on one line writes stands on one line. -/
theorem Column.noteFor_oneLine {c : Column} {opener user : Text} (time : Moment)
    (ho : opener ∈ Comment.openers) (hc : '\n' ∉ c.name ∧ '\r' ∉ c.name)
    (hu : '\n' ∉ user ∧ '\r' ∉ user) :
    '\n' ∉ c.noteFor opener time user ∧ '\r' ∉ c.noteFor opener time user := by
  rw [noteFor]
  split
  · simp
  · exact Line.forall_isEol_iff.1 (Comment.isEol_of_mem_note time ho
      (Line.forall_isEol_iff.2 hc) (Line.forall_isEol_iff.2 hu))

namespace Session

variable {p : Project} {s : Settings} {σ σ' : Session} {place : Place}
  {ignored : List Ignore.Pattern} {i : Item}

/-- The spots of a session after a move. -/
theorem map_spot_afterMove {items : List Item} {moved : Moved} (hids : (items.map Item.id).Nodup)
    (hi : i ∈ items) (hsame : Spot.ofItem moved.item = Spot.ofItem i) :
    ((putItem moved.item items).map (shift moved)).map Spot.ofItem =
      (items.map Spot.ofItem).map (Spot.grown i.file i.line moved.growth) := by
  rw [putItem, List.map_map, List.map_map, List.map_map]
  refine List.map_congr_left fun j hj => ?_
  simp only [Function.comp]
  have hfile : moved.item.file = i.file := congrArg Spot.file hsame
  have hline : moved.item.line = i.line := congrArg Spot.line hsame
  by_cases hid : j.id = moved.item.id
  · -- the number tells that it is the moved item, which is not below itself
    have hji : j = i := List.inj_on_of_nodup_map hids hj hi (hid.trans (congrArg Spot.id hsame))
    rw [if_pos hid, hji, shift, if_neg fun h => absurd h.2 (by omega), hsame]
    exact (Spot.grown_of_le (Int.le_refl i.line)).symm
  · rw [if_neg hid, shift, Spot.grown, hfile, hline]
    by_cases hbelow : j.file = i.file ∧ i.line < j.line
    · rw [if_pos hbelow]
      exact (if_pos hbelow).symm
    · rw [if_neg hbelow]
      exact (if_neg hbelow).symm

/-- The session finds its items in the texts of a project, none of which ends in a carriage
return. -/
structure Located (p : Project) (s : Settings) (place : Place) (ignored : List Ignore.Pattern)
    (σ : Session) : Prop where
  project : σ.world.disk.IsProject p.root place
  texts : ∀ e ∈ σ.world.disk.sources p.root s.exclusions.directories ignored,
    e.2.getLast? ≠ some '\r'
  finds : (Grammar.ofSettings s).Finds
    (σ.world.disk.sources p.root s.exclusions.directories ignored) (σ.items.map Spot.ofItem)

theorem Located.of_eq (h : Located p s place ignored σ) (hdisk : σ'.world.disk = σ.world.disk)
    (hitems : σ'.items = σ.items) : Located p s place ignored σ' := by
  obtain ⟨hproject, htexts, hfinds⟩ := h
  constructor
  · rwa [hdisk]
  · rwa [hdisk]
  · rwa [hdisk, hitems]

/-- The marker of an item is in the text of its file, at its line. -/
theorem Located.exists_markerAt (h : Located p s place ignored σ) (hi : i ∈ σ.items) :
    ∃ text, (i.file, text) ∈ σ.world.disk.sources p.root s.exclusions.directories ignored ∧
      σ.world.disk.text? (p.root.join (Path.ofText i.file)) = some text ∧
      (Grammar.ofSettings s).MarkerAt (Line.split text) i.line i.keyword i.title := by
  obtain ⟨text, hmem, hat⟩ := h.finds.marker (Spot.ofItem i) (List.mem_map_of_mem hi)
  exact ⟨text, hmem, h.project.text?_of_mem_sources hmem, hat⟩

/-- No move of an item fails because its marker is not where the session says. -/
theorem Located.move_ne_stale (h : Located p s place ignored σ) (hi : i ∈ σ.items) {w w' : World}
    (hw : w.disk = σ.world.disk) {column path : Text} {line : Int} {count : Nat}
    {fault : LineFault} :
    Action.move p.root s i column w ≠ (.error (.staleLine path line count fault), w') := by
  intro hmove
  -- such a failure is one of the edit, which succeeds where the marker is
  obtain ⟨c, text, -, htext, hfault⟩ := Action.exists_of_move_stale hmove
  obtain ⟨text', -, htext', hat⟩ := h.exists_markerAt hi
  rw [hw, htext'] at htext
  cases htext
  obtain ⟨new, hnew⟩ := Grammar.exists_edit_iff.2 hat
  rw [Item.movedLines] at hfault
  cases hfault.symm.trans hnew

/-- A successful move of an item of the session preserves the invariant. -/
theorem Located.afterMove (h : Located p s place ignored σ)
    (hnames : ∀ c ∈ s.columns, '\n' ∉ c.name ∧ '\r' ∉ c.name) (hi : i ∈ σ.items) {w w' : World}
    (hw : w.disk = σ.world.disk) {column : Text}
    (hu : '\n' ∉ w.git.currentUser w.env ∧ '\r' ∉ w.git.currentUser w.env) {moved : Moved}
    (hmove : Action.move p.root s i column w = (.ok moved, w')) :
    Located p s place ignored (Session.afterMove { σ with world := w' } σ.scanNumber moved) := by
  obtain ⟨text, hmem, -, -⟩ := h.exists_markerAt hi
  have hproject : w.disk.IsProject p.root place := hw ▸ h.project
  rw [← hw] at hmem
  obtain ⟨names, hfiles, hname, htext⟩ := Disk.IsProject.exists_of_mem_sources hmem
  obtain ⟨c, new, front, back, hcol, hnew, rfl, hproject', hother, hsources, hsources'⟩ :=
    hproject.exists_of_move hname hfiles htext hmove
  rw [hw] at hsources
  have hc : c ∈ s.columns := List.mem_of_find?_eq_some hcol
  have hnote := Column.noteFor_oneLine w.localNow (Comment.openerFor_mem i.file) (hnames c hc) hu
  have hcr := h.texts (i.file, text) (by rw [hsources]; simp)
  rw [Item.movedLines] at hnew
  have hfinds := h.finds
  rw [hsources] at hfinds
  have hids : (σ.items.map Item.id).Nodup := by
    have := h.finds.ids
    rwa [List.map_map] at this
  rw [afterMove_scanNumber]
  refine ⟨hproject', ?_, ?_⟩
  · -- the new text does not end in a carriage return either
    intro e he
    rw [hsources'] at he
    simp only [List.mem_append, List.mem_cons] at he
    have hkept : e ∈ front ++ back → e.2.getLast? ≠ some '\r' := by
      intro hold
      refine h.texts e ?_
      rw [hsources]
      simp only [List.mem_append, List.mem_cons] at hold ⊢
      tauto
    rcases he with he | rfl | he
    · exact hkept (List.mem_append_left _ he)
    · obtain ⟨before, marker, own, after, m, hat, -, rfl⟩ := Grammar.edit_eq_ok_iff.1 hnew
      exact ScanContext.getLast?_edited hcr hnote hat
    · exact hkept (List.mem_append_right _ he)
  · -- the session shifts its items as the file has grown
    show (Grammar.ofSettings s).Finds _ (((putItem _ σ.items).map (shift _)).map Spot.ofItem)
    rw [map_spot_afterMove hids hi (Spot.ofItem_moved hc), hsources']
    exact hfinds.edited hother hcr hnote hnew

/-! ## Sequences of requests -/

/-- A request preserves the invariant, whether it succeeds or fails. -/
theorem Located.request (h : Located p s place ignored σ)
    (hnames : ∀ c ∈ s.columns, '\n' ∉ c.name ∧ '\r' ∉ c.name) {r : MoveRequest}
    (hr : r.IsOneLine) (hsettings : (p.settings (σ.world.within r.around)).1 = .ok s) :
    Located p s place ignored (σ.request p r) :=
  preserved_of_request Located.of_eq hsettings h fun _ hi log _ _ hmove =>
    h.afterMove (w := { σ.world.within r.around with log }) hnames hi rfl hr hmove

/-- Any sequence of requests preserves the invariant. -/
theorem Requests.located (hm : Requests p s σ σ')
    (hnames : ∀ c ∈ s.columns, '\n' ∉ c.name ∧ '\r' ∉ c.name)
    (h : Located p s place ignored σ) : Located p s place ignored σ' := by
  induction hm with
  | none => exact h
  | step r _ hr hsettings ih => exact ih.request hnames hr hsettings

/-- A request to a session does not fail because of a line, unless a move of one of its items
does. -/
theorem update_ne_stale {id : Int} {column path : Text} {line : Int} {count : Nat}
    {fault : LineFault} (hsettings : (p.settings σ.world).1 = .ok s)
    (h : ∀ i ∈ σ.items, ∀ log w', Action.move p.root s i column { σ.world with log } ≠
      (.error (.staleLine path line count fault), w')) :
    (Activity.update p id column σ).1 ≠ .error (.staleLine path line count fault) := by
  intro hfault
  obtain ⟨log, -, hcause⟩ := Activity.exists_of_update_error (Prod.ext hfault rfl)
  rcases hcause with hid | hload | ⟨i, hi, s', w', hs', hmove⟩
  · cases hid
  · cases hsettings.symm.trans hload
  · cases hsettings.symm.trans hs'
    exact h i hi log w' hmove

/-- After a scan and any sequence of requests, the marker of every item of the session is in its
file at its line, no two items are at one line, and no further request fails because of a line. -/
theorem located_of_requests {start scanned : Session}
    (hnames : ∀ c ∈ s.columns, '\n' ∉ c.name ∧ '\r' ∉ c.name)
    (hproject : start.world.disk.IsProject p.root place)
    (htexts : ∀ ignored, Ignore.patterns s.exclusions.files = .ok ignored →
      ∀ e ∈ start.world.disk.sources p.root s.exclusions.directories ignored,
        e.2.getLast? ≠ some '\r')
    (hsettings : (p.settings start.world).1 = .ok s) {items : List Item}
    (hscan : Activity.scan p start = (.ok items, scanned)) (hrequests : Requests p s scanned σ) :
    (∀ i ∈ σ.items, ∃ text,
      σ.world.disk.text? (p.root.join (Path.ofText i.file)) = some text ∧
        1 ≤ i.line ∧ i.line ≤ (Line.split text).length ∧
        (Grammar.ofSettings s).MarkerAt (Line.split text) i.line i.keyword i.title) ∧
    (σ.items.map fun i => (i.file, i.line)).Nodup ∧
    ∀ r : MoveRequest, (p.settings (σ.world.within r.around)).1 = .ok s →
      ∀ path line count fault, (Activity.update p r.id r.column (σ.within r.around)).1 ≠
        .error (.staleLine path line count fault) := by
  obtain ⟨hdisk, hnil | ⟨ignored, hignored, ctx, rfl, hitems⟩⟩ :=
    Activity.exists_of_scan hsettings hscan
  · -- where there are no items, there will be none
    have hnone := hrequests.items_eq_nil hnil
    refine ⟨by simp [hnone], by simp [hnone], fun r hr path line count fault => ?_⟩
    refine update_ne_stale hr fun i hi => ?_
    have hi : i ∈ σ.items := hi
    rw [hnone] at hi
    exact absurd hi List.not_mem_nil
  · have hscanned : Located p ctx.settings place ignored scanned := by
      constructor
      · rwa [hdisk]
      · rw [hdisk]
        exact htexts ignored hignored
      · rw [hdisk, hitems]
        exact ctx.finds_itemsOfFiles (hproject.nodup_sources _ _)
    have hlocated := hrequests.located hnames hscanned
    refine ⟨fun i hi => ?_, ?_, fun r hr path line count fault => ?_⟩
    · obtain ⟨text, -, htext, hat⟩ := hlocated.exists_markerAt hi
      exact ⟨text, htext, hat.1, hat.le_length, hat⟩
    · have hplaces := hlocated.finds.places
      rwa [List.map_map] at hplaces
    · exact update_ne_stale hr fun i hi log w' =>
        hlocated.move_ne_stale (w := { σ.world.within r.around with log }) hi rfl

/-! ## Notes that are markers -/

/-- A board with a column whose notes are markers of the first column. -/
def sampleMarkerBoard : Settings :=
  { ScanContext.sampleBoard with
    columns := ScanContext.sampleBoard.columns ++ [⟨"fix".toList, "FIXME: c".toList, [], none⟩] }

/-- The sample project with that board. -/
def sampleMarkerProject : Project := ⟨sampleProject.root, .fixed sampleMarkerBoard⟩

/-- The session after a scan with that board. -/
def sampleMarkerScanned : Session := (Activity.scan sampleMarkerProject sampleStart).2

/-- A request to move the first item into that column. -/
def sampleMarkerRequest : MoveRequest := ⟨sampleSurroundings, 1, "fix".toList⟩

/-- The session after two such requests. The file has four markers then, two of them notes. -/
def sampleMarkerMoved : Session :=
  (sampleMarkerScanned.request sampleMarkerProject sampleMarkerRequest).request
    sampleMarkerProject sampleMarkerRequest

set_option maxRecDepth 4000 in
theorem located_of_requests_sampleMarkerMoved :
    sampleMarkerMoved.items.map (fun i => (i.file, i.line)) =
      [("a.py".toList, 1), ("a.py".toList, 4)] ∧
    (∀ i ∈ sampleMarkerMoved.items, ∃ text,
      sampleMarkerMoved.world.disk.text? (sampleMarkerProject.root.join (Path.ofText i.file)) =
          some text ∧
        1 ≤ i.line ∧ i.line ≤ (Line.split text).length ∧
        (Grammar.ofSettings sampleMarkerBoard).MarkerAt (Line.split text) i.line i.keyword
          i.title) ∧
    (sampleMarkerMoved.items.map fun i => (i.file, i.line)).Nodup ∧
    ∀ r : MoveRequest,
      (sampleMarkerProject.settings (sampleMarkerMoved.world.within r.around)).1 =
        .ok sampleMarkerBoard →
      ∀ path line count fault,
        (Activity.update sampleMarkerProject r.id r.column (sampleMarkerMoved.within r.around)).1 ≠
          .error (.staleLine path line count fault) := by
  refine ⟨by cbv, ?_⟩
  have hproject : sampleStart.world.disk.IsProject sampleMarkerProject.root ["p".toList] :=
    Disk.isProject_of_forall (by cbv) (by decide) (by decide) (by decide)
  have hsources : sampleStart.world.disk.sources sampleMarkerProject.root [] [] =
      [("a.py".toList, sampleText)] := by cbv
  have htexts : ∀ ignored, Ignore.patterns [] = .ok ignored →
      ∀ e ∈ sampleStart.world.disk.sources sampleMarkerProject.root [] ignored,
        e.2.getLast? ≠ some '\r' := by
    intro ignored hignored e he
    cases hignored
    rw [hsources, List.mem_singleton] at he
    subst he
    decide
  have hline : sampleMarkerRequest.IsOneLine := ⟨by decide, by decide⟩
  have hok : (Activity.scan sampleMarkerProject sampleStart).1.toBool = true := by cbv
  obtain ⟨items, hscan⟩ := Steps.exists_of_toBool hok
  exact located_of_requests (by decide) hproject htexts rfl hscan
    ((Requests.none.step sampleMarkerRequest hline rfl).step sampleMarkerRequest hline rfl)

end Session
end MarkerBoard
