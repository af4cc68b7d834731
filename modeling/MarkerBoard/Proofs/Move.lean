import MarkerBoard.Proofs.Block.Reread
import MarkerBoard.Proofs.Disk.Replace
import MarkerBoard.Proofs.World
import MarkerBoard.Scan

/-!
# What a move writes

A move that succeeds has read the text of its file and replaced it by the text of the edited lines.
The next scan reads the new text, and finds the item with its new status at the same line.

Main results:

* `Item.reread_movedLines` — the item that is read from the lines of a moved one.
* `Action.move_cases` — a move fails for one of four reasons, or all of its steps succeed.
* `Action.exists_of_move` — the steps of a move that succeeds.
* `Action.exists_of_move_stale` — the cause of a move that fails because of a line.
* `Action.reread_move` — what the next scan reads after a move.
-/
namespace MarkerBoard

/-! ## Lines -/

namespace Item

variable {i : Item} {s : Settings} {c : Column} {time : Moment} {user text : Text}
  {new : List Text} {later : ScanContext}

theorem note_eol {opener : Text} (time : Moment) (hs : (Grammar.ofSettings s).Plain)
    (ho : opener ∈ Comment.openers)
    (hn : c.name ∈ (Grammar.ofSettings s).names) (hu : Comment.Signer user) :
    '\n' ∉ Comment.note opener c.name time user ∧ '\r' ∉ Comment.note opener c.name time user :=
  Line.forall_isEol_iff.1
    (Comment.isEol_of_mem_note time ho (hs.isEol_of_mem_name hn) hu.isEol_of_mem)

/-- After a move to a column without a keyword, a scan of the new lines finds the item at its line
in that column. Its history is the move alone, and its comment has no other note. -/
theorem reread_movedLines (hs : (Grammar.ofSettings s).Plain) (hcr : text.getLast? ≠ some '\r')
    (hown : Grammar.OwnSyntax (Comment.openerFor i.file) (Line.split text))
    (hc : s.columnNamed? c.name = some c) (hk : c.isKeywordEntered = false)
    (hm : 1000 ≤ time.year) (hu : Comment.Signer user)
    (h : i.movedLines s c time user (Line.split text) = .ok new) (hl : later.settings = s)
    (id : Int) :
    (∃ j ∈ later.items i.file id new.flatten, j.line = i.line ∧ j.keyword = i.keyword ∧
      j.title = i.title ∧ j.status = c.id ∧
      j.history = [⟨c.id, time.toMinute, Text.trim user⟩]) ∧
    ∃ close, ((Grammar.ofSettings s).block
        ((Line.split new.flatten).drop i.line.toNat)).filterMap BlockLine.note? =
      [⟨Comment.openerFor i.file, c.name, time.toMinuteText, Text.trim user, close⟩] := by
  subst hl
  have hmem := Settings.mem_of_columnNamed? hc
  have hn := Settings.mem_names hmem hk
  have ho := Comment.openerFor_mem i.file
  obtain ⟨first, hf⟩ := Settings.exists_firstColumn? hmem
  -- the new lines are those of an edit at the marker of the item
  have hnote : c.noteFor (Comment.openerFor i.file) time user =
      Comment.note (Comment.openerFor i.file) c.name time user := by
    rw [Column.noteFor, hk]
    rfl
  rw [movedLines, hnote] at h
  obtain ⟨before, marker, own, after, m, hat, hexp, rfl⟩ := Grammar.edit_eq_ok_iff.1 h
  have hmarker := hexp _ rfl
  rw [Prod.mk.injEq] at hmarker
  have heol := note_eol time hs ho hn hu
  -- the line that it adds is no marker, so the markers are where they were
  have hadded : ∀ t ∈ Grammar.addedTexts (Comment.note (Comment.openerFor i.file) c.name time user)
      marker, (Grammar.ofSettings later.settings).marker? t = none := by
    rw [Grammar.addedTexts, if_neg (Comment.note_ne_nil _ _ _ _)]
    intro t ht
    rw [List.mem_singleton.1 ht]
    exact Grammar.marker?_note hs hn ho (Grammar.isBlank_of_mem_indent marker) time user
  -- and it is the only note of the comment
  obtain ⟨close, hclose⟩ := hat.note?_edited hs ho hown hn hm hu
  constructor
  · have hitems := ScanContext.items_edited i.file hf hcr heol hat hadded id
    rw [ScanContext.editedLines] at hitems
    refine ⟨_, by rw [hitems]; exact List.mem_append_right _ List.mem_cons_self, ?_, ?_, ?_, ?_⟩
    · rw [ScanContext.item_line, hat.number_eq]
      omega
    · rw [ScanContext.item_keyword, hmarker.1]
    · rw [ScanContext.item_title, hmarker.2]
    · exact ScanContext.item_of_note hclose (ScanContext.transition?_note hc hm close) _ _ _
  · refine ⟨close, ?_⟩
    rw [← ScanContext.editedLines, ScanContext.block_drop_editedLines hcr heol hat]
    exact hclose

end Item

/-! ## Files -/

namespace Action

variable {w w' : World} {root : Path} {s : Settings} {i : Item} {columnId : Text} {moved : Moved}

/-- Why a move fails, in the order in which it is checked: the column, the text of the file, the
marker in it, and replacing the file. -/
inductive MoveFails (root : Path) (s : Settings) (i : Item) (columnId : Text) (w : World) :
    Failure → Prop
  | column (h : s.column? columnId = none) : MoveFails root s i columnId w (.unknownColumn columnId)
  | text {c : Column} {f : FileFault} (hc : s.column? columnId = some c)
      (h : w.disk.text? (root.join (Path.ofText i.file)) = none) :
      MoveFails root s i columnId w (.unreadable (root.join (Path.ofText i.file)) f)
  | line {c : Column} {text : Text} {f : LineFault} (hc : s.column? columnId = some c)
      (htext : w.disk.text? (root.join (Path.ofText i.file)) = some text)
      (h : i.movedLines s c w.localNow (w.git.currentUser w.env) (Line.split text) = .error f) :
      MoveFails root s i columnId w (.staleLine (root.join (Path.ofText i.file)).toText i.line
        (Line.split text).length f)
  | write {c : Column} {text : Text} {new : List Text} {f : Disk.Fault}
      (hc : s.column? columnId = some c)
      (htext : w.disk.text? (root.join (Path.ofText i.file)) = some text)
      (hnew : i.movedLines s c w.localNow (w.git.currentUser w.env) (Line.split text) = .ok new)
      (h : replaced w (root.join (Path.ofText i.file)) true (Utf8.encode new.flatten) = .error f) :
      MoveFails root s i columnId w (.unwritable (root.join (Path.ofText i.file)) f)

/-- A move fails for one of these reasons and changes nothing, or it has found its column, the text
of its file and its marker, and has replaced the file. -/
theorem move_cases (root : Path) (s : Settings) (i : Item) (columnId : Text) (w : World) :
    (∃ f, move root s i columnId w = (.error f, w) ∧ MoveFails root s i columnId w f) ∨
    ∃ c text new d', s.column? columnId = some c ∧
      w.disk.text? (root.join (Path.ofText i.file)) = some text ∧
      i.movedLines s c w.localNow (w.git.currentUser w.env) (Line.split text) = .ok new ∧
      replaced w (root.join (Path.ofText i.file)) true (Utf8.encode new.flatten) = .ok d' ∧
      move root s i columnId w = (.ok ⟨i.moved s c w.localNow (w.git.currentUser w.env),
        new.length - (Line.split text).length⟩, { w with disk := d' }) := by
  rw [move]
  -- each step fails without a change, or the next one is reached
  cases hc : s.column? columnId with
  | none => exact .inl ⟨_, rfl, .column hc⟩
  | some c =>
  dsimp only
  rw [Steps.bind_of_ok Steps.get_apply]
  obtain ⟨r, hr, htext⟩ := readText_apply (root.join (Path.ofText i.file)) w
  rw [Steps.bind_of_ok hr]
  cases r with
  | error f =>
    refine .inl ⟨_, rfl, .text hc (Option.eq_none_iff_forall_ne_some.2 fun text h => ?_)⟩
    cases (htext text).2 h
  | ok text =>
  have htext := (htext text).1 rfl
  dsimp only
  cases hnew : i.movedLines s c w.localNow (w.git.currentUser w.env) (Line.split text) with
  | error f => exact .inl ⟨_, rfl, .line hc htext hnew⟩
  | ok new =>
  dsimp only
  cases hrep : replaced w (root.join (Path.ofText i.file)) true (Utf8.encode new.flatten) with
  | error f =>
    rw [Steps.bind_of_ok (replace_of_error hrep)]
    exact .inl ⟨_, rfl, .write hc htext hnew hrep⟩
  | ok d' =>
    rw [Steps.bind_of_ok (replace_of_ok hrep)]
    exact .inr ⟨c, text, new, d', rfl, htext, hnew, hrep, rfl⟩

/-- The steps of a move that succeeds. -/
theorem exists_of_move (h : move root s i columnId w = (.ok moved, w')) :
    ∃ c text new d', s.column? columnId = some c ∧
      w.disk.text? (root.join (Path.ofText i.file)) = some text ∧
      i.movedLines s c w.localNow (w.git.currentUser w.env) (Line.split text) = .ok new ∧
      replaced w (root.join (Path.ofText i.file)) true (Utf8.encode new.flatten) = .ok d' ∧
      moved = ⟨i.moved s c w.localNow (w.git.currentUser w.env),
        new.length - (Line.split text).length⟩ ∧
      w' = { w with disk := d' } := by
  rcases move_cases root s i columnId w with ⟨f, hf, -⟩ | ⟨c, text, new, d', hc, ht, hn, hd, hok⟩
  · cases hf.symm.trans h
  · cases hok.symm.trans h
    exact ⟨c, text, new, d', hc, ht, hn, hd, rfl, rfl⟩

/-- A move that fails changes nothing. -/
theorem eq_of_move_error {f : Failure} (h : move root s i columnId w = (.error f, w')) :
    w' = w := by
  rcases move_cases root s i columnId w with ⟨f, hf, -⟩ | ⟨c, text, new, d', -, -, -, -, hok⟩
  · exact (congrArg Prod.snd (hf.symm.trans h)).symm
  · cases hok.symm.trans h

/-- A move only fails with a stale line if the marker is not where it should be. -/
theorem exists_of_move_stale {path : Text} {line : Int} {count : Nat} {fault : LineFault}
    (h : move root s i columnId w = (.error (.staleLine path line count fault), w')) :
    ∃ c text, s.column? columnId = some c ∧
      w.disk.text? (root.join (Path.ofText i.file)) = some text ∧
      i.movedLines s c w.localNow (w.git.currentUser w.env) (Line.split text) = .error fault := by
  rcases move_cases root s i columnId w with ⟨f, hf, hfails⟩ | ⟨c, text, new, d', -, -, -, -, hok⟩
  · cases hf.symm.trans h
    cases hfails with
    | line hc htext hfault => exact ⟨_, _, hc, htext, hfault⟩
  · cases hok.symm.trans h

theorem text?_of_bytes {d : Disk} {p : Path} {text : Text}
    (h : d.bytes p = .ok (Utf8.encode text)) : d.text? p = some text := by
  rw [Disk.text?, h]
  simp only [Utf8.decode_encode]
  rfl

theorem exists_bytes_of_text? {d : Disk} {p : Path} {text : Text} (h : d.text? p = some text) :
    ∃ bytes, d.bytes p = .ok bytes := by
  rw [Disk.text?] at h
  split at h
  · next bytes hbytes => exact ⟨bytes, hbytes⟩
  · cases h

/-- A move that succeeds leaves a text where it has found one, made of the new lines. -/
theorem exists_text?_of_move {c : Column} {text : Text} (hd : w.disk.IsTree)
    (htext : w.disk.text? (root.join (Path.ofText i.file)) = some text)
    (hcol : s.column? columnId = some c) (h : move root s i columnId w = (.ok moved, w')) :
    ∃ new, i.movedLines s c w.localNow (w.git.currentUser w.env) (Line.split text) = .ok new ∧
      w'.disk.text? (root.join (Path.ofText i.file)) = some new.flatten ∧
      moved.item = i.moved s c w.localNow (w.git.currentUser w.env) := by
  obtain ⟨c', text', new, d', hcol', htext', hnew, hrep, rfl, rfl⟩ := exists_of_move h
  rw [hcol] at hcol'
  cases hcol'
  rw [htext] at htext'
  cases htext'
  obtain ⟨old, hold⟩ := exists_bytes_of_text? htext
  exact ⟨new, hnew, text?_of_bytes (bytes_replaced hd hold hrep), rfl⟩

/-- What a move to a column without a keyword writes is what the next scan reads: the file has a
text again, in which an item with the keyword and the title of the moved one stands at its line
and is in the column. Its history is the move alone, and its comment has no other note. -/
theorem reread_move {c : Column} {text : Text} (hs : (Grammar.ofSettings s).Plain)
    (hd : w.disk.IsTree) (htext : w.disk.text? (root.join (Path.ofText i.file)) = some text)
    (hcr : text.getLast? ≠ some '\r')
    (hown : Grammar.OwnSyntax (Comment.openerFor i.file) (Line.split text))
    (hcol : s.column? columnId = some c) (hc : s.columnNamed? c.name = some c)
    (hk : c.isKeywordEntered = false) (hm : 1000 ≤ w.localNow.year)
    (hu : Comment.Signer (w.git.currentUser w.env))
    (h : move root s i columnId w = (.ok moved, w')) :
    ∃ text', w'.disk.text? (root.join (Path.ofText i.file)) = some text' ∧
      (∀ (later : ScanContext) (id : Int), later.settings = s →
        ∃ j ∈ later.items i.file id text', j.line = i.line ∧ j.keyword = i.keyword ∧
          j.title = i.title ∧ j.status = c.id ∧ j.history =
            [⟨c.id, w.localNow.toMinute, Text.trim (w.git.currentUser w.env)⟩]) ∧
      ∃ close, ((Grammar.ofSettings s).block
          ((Line.split text').drop i.line.toNat)).filterMap BlockLine.note? =
        [⟨Comment.openerFor i.file, c.name, w.localNow.toMinuteText,
          Text.trim (w.git.currentUser w.env), close⟩] := by
  obtain ⟨c', text', new, d', hcol', htext', hnew, hrep, -, rfl⟩ := exists_of_move h
  rw [hcol] at hcol'
  cases hcol'
  rw [htext] at htext'
  cases htext'
  obtain ⟨old, hold⟩ := exists_bytes_of_text? htext
  have hread := fun (later : ScanContext) (id : Int) (hl : later.settings = s) =>
    Item.reread_movedLines hs hcr hown hc hk hm hu hnew hl id
  refine ⟨new.flatten, text?_of_bytes (bytes_replaced hd hold hrep),
    fun later id hl => (hread later id hl).1, ?_⟩
  exact (hread ⟨s, [], Moment.first⟩ 1 rfl).2

/-! ## A move on a small disk -/

/-- A disk with one source file, in which a comment has two notes, one of them undated. -/
def sampleDisk : Disk where
  here := ⟨['/'], []⟩
  entries := [(["p".toList], .dir),
    (["p".toList, "a.py".toList],
      .file (Utf8.encode "#TODO: a\n# DONE 1-1\n#DOING\nx".toList) 0o644)]

/-- A world with that disk, and a user who is named like a column. -/
def sampleWorld : World where
  disk := sampleDisk
  env := []
  git := { Git.silent with userName := some "DOING by".toList }
  localNow := ⟨2024, 1, 2, 9, 0, 3, 0, none, by decide⟩
  utcNow := Moment.first
  refusals := .none
  freshName := "t".toList
  log := []

/-- The item in that file. -/
def sampleItem : Item where
  id := 1
  keyword := "TODO".toList
  title := "a".toList
  description := []
  file := "a.py".toList
  line := 1
  status := "todo".toList
  priority := .low
  isDone := false
  doneAt := none
  doneBy := none
  history := []
  createdAt := .first
  updatedAt := .first
  currentUser := []

/-- A move of that item. -/
def sampleMove : Except Failure Moved × World :=
  move ⟨['/'], ["p".toList]⟩ ScanContext.sampleBoard sampleItem "done".toList sampleWorld

set_option maxRecDepth 4000 in
theorem reread_move_sampleWorld :
    ∃ text', sampleMove.2.disk.text? ⟨['/'], ["p".toList, "a.py".toList]⟩ = some text' ∧
      (∀ (later : ScanContext) (id : Int), later.settings = ScanContext.sampleBoard →
        ∃ j ∈ later.items "a.py".toList id text', j.line = 1 ∧ j.keyword = "TODO".toList ∧
          j.title = "a".toList ∧ j.status = "done".toList ∧ j.history =
            [⟨"done".toList, sampleWorld.localNow.toMinute, "DOING by".toList⟩]) ∧
      ∃ close, ((Grammar.ofSettings ScanContext.sampleBoard).block
          ((Line.split text').drop 1)).filterMap BlockLine.note? =
        [⟨"#".toList, "DONE".toList, "2024-01-02 09:00".toList, "DOING by".toList, close⟩] := by
  have hok : sampleMove.1.toBool = true := by cbv
  obtain ⟨moved, hmoved⟩ := Steps.exists_of_toBool hok
  have htext : sampleDisk.text? ⟨['/'], ["p".toList, "a.py".toList]⟩ =
      some "#TODO: a\n# DONE 1-1\n#DOING\nx".toList := by cbv
  exact reread_move (c := ⟨"done".toList, "DONE".toList, [], none⟩)
    ⟨by decide, by decide, by decide, by decide, by decide, by decide⟩
    (Disk.isTree_of_forall (by decide)) htext (by decide) (by unfold Grammar.OwnSyntax; decide)
    (by decide) (by cbv) rfl (by decide) ⟨by decide, by decide, by decide, by decide⟩ hmoved

end Action
end MarkerBoard
