import MarkerBoard.Proofs.Session.Entries
import MarkerBoard.Proofs.Move

/-!
# Moves to columns that markers enter

A move to a column with keywords takes the notes of the item away and writes none. A scan puts an
item without notes into the first column, whatever its keyword is. So such a move lasts if the
column is the first one. Otherwise the item is in its column only until the next scan.

Main results:

* `Item.reread_unnoted` — the item that is read from lines without notes.
* `Action.reread_entered` — the column of the item after the move, and after the next scan.
-/
namespace MarkerBoard

namespace Settings

variable {s : Settings} {c first : Column} {columnId : Text}

/-- The first column is the one that its identifier stands for. -/
theorem eq_first_iff (hf : s.firstColumn? = some first) (hc : s.column? columnId = some c) :
    c.id = first.id ↔ c = first := by
  refine ⟨fun h => ?_, fun h => h ▸ rfl⟩
  obtain ⟨rest, hcolumns⟩ : ∃ rest, s.columns = first :: rest := List.head?_eq_some_iff.1 hf
  rw [column?, hcolumns] at hc
  have hid : first.id = columnId := by
    rw [← h]
    simpa using List.find?_some hc
  rw [List.find?_cons_of_pos (by simpa using hid)] at hc
  exact (Option.some.inj hc).symm

end Settings

namespace Item

variable {i : Item} {s : Settings} {c first : Column} {time : Moment} {user text : Text}
  {new : List Text} {later : ScanContext}

/-- After a move to a column with keywords, a scan of the new lines finds the item at its line, new
in the first column. -/
theorem reread_unnoted (hcr : text.getLast? ≠ some '\r')
    (hown : Grammar.OwnSyntax (Comment.openerFor i.file) (Line.split text))
    (hf : s.firstColumn? = some first) (hk : c.isKeywordEntered = true)
    (h : i.movedLines s c time user (Line.split text) = .ok new) (hl : later.settings = s)
    (id : Int) :
    ∃ j ∈ later.items i.file id new.flatten, j.line = i.line ∧ j.keyword = i.keyword ∧
      j.title = i.title ∧ j.status = first.id ∧
      j.history = [⟨first.id, later.now, later.user⟩] := by
  subst hl
  have hnote : c.noteFor (Comment.openerFor i.file) time user = [] := by
    rw [Column.noteFor, hk]
    rfl
  rw [movedLines, hnote] at h
  obtain ⟨before, marker, own, after, m, hat, hexp, rfl⟩ := Grammar.edit_eq_ok_iff.1 h
  obtain ⟨hkeyword, htitle⟩ := Prod.mk.inj (hexp _ rfl)
  -- nothing is added, so no line of the comment can open an item
  have hempty : '\n' ∉ ([] : Text) ∧ '\r' ∉ ([] : Text) := by simp
  have hadded : ∀ t ∈ Grammar.addedTexts [] marker,
      (Grammar.ofSettings later.settings).marker? t = none := by simp [Grammar.addedTexts]
  have hitems := ScanContext.items_edited i.file hf hcr hempty hat hadded id
  rw [ScanContext.editedLines] at hitems
  refine ⟨_, by rw [hitems]; exact List.mem_append_right _ List.mem_cons_self, ?_, ?_, ?_, ?_⟩
  · rw [ScanContext.item_line, hat.number_eq]
    omega
  · rw [ScanContext.item_keyword, hkeyword]
  · rw [ScanContext.item_title, htitle]
  · exact ScanContext.item_of_no_note (hat.note?_stripped hown) _ _ _

end Item

namespace Action

variable {w w' : World} {root : Path} {s : Settings} {i : Item} {columnId : Text} {moved : Moved}

/-- After a move to a column with keywords the item is in that column, but the next scan finds it
in the first one. So the move lasts if and only if the column is the first one. -/
theorem reread_entered {c first : Column} {text : Text} (hd : w.disk.IsTree)
    (htext : w.disk.text? (root.join (Path.ofText i.file)) = some text)
    (hcr : text.getLast? ≠ some '\r')
    (hown : Grammar.OwnSyntax (Comment.openerFor i.file) (Line.split text))
    (hf : s.firstColumn? = some first) (hcol : s.column? columnId = some c)
    (hk : c.isKeywordEntered = true) (h : move root s i columnId w = (.ok moved, w')) :
    moved.item.status = columnId ∧
    ∃ text', w'.disk.text? (root.join (Path.ofText i.file)) = some text' ∧
      ∀ (later : ScanContext) (id : Int), later.settings = s →
        ∃ j ∈ later.items i.file id text', j.line = i.line ∧ j.keyword = i.keyword ∧
          j.title = i.title ∧ j.status = first.id ∧
          j.history = [⟨first.id, later.now, later.user⟩] ∧
          (j.status = columnId ↔ c = first) := by
  obtain ⟨new, hnew, htext', hitem⟩ := exists_text?_of_move hd htext hcol h
  have hmem : c ∈ s.columns := List.mem_of_find?_eq_some hcol
  have hid : c.id = columnId := by simpa using List.find?_some hcol
  refine ⟨?_, new.flatten, htext', ?_⟩
  · rw [hitem, ← hid]
    exact congrArg Entry.status (Item.ofItem_moved hmem)
  · intro later id hl
    obtain ⟨j, hj, hline, hkeyword, htitle, hstatus, hhistory⟩ :=
      Item.reread_unnoted hcr hown hf hk hnew hl id
    refine ⟨j, hj, hline, hkeyword, htitle, hstatus, hhistory, ?_⟩
    rw [hstatus, ← Settings.eq_first_iff hf hcol, hid]
    exact eq_comm

/-! ## A board with two columns for markers -/

/-- A board on which two columns have keywords. -/
def sampleKeywordBoard : Settings := { ScanContext.sampleBoard with
  columns := [⟨"todo".toList, "TODO".toList, [], some "TODO".toList⟩,
    ⟨"bugs".toList, "BUGS".toList, [], some "FIXME".toList⟩,
    ⟨"done".toList, "DONE".toList, [], none⟩] }

/-- The text of the file in the sample world. -/
def sampleNoted : Text := "#TODO: a\n# DONE 1-1\n#DOING\nx".toList

/-- A scan with that board. -/
def sampleKeywordScan : ScanContext := ⟨sampleKeywordBoard, "ann".toList, Moment.first⟩

/-- The item that it finds. -/
def sampleFound : Item := { sampleItem with
  description := "DONE 1-1\nDOING".toList
  history := [⟨"todo".toList, .first, "ann".toList⟩]
  currentUser := "ann".toList }

theorem items_sampleNoted :
    sampleKeywordScan.items "a.py".toList 1 sampleNoted = [sampleFound] := by cbv

/-- A move of that item to the second column. -/
def sampleEntered : Except Failure Moved × World :=
  move ⟨['/'], ["p".toList]⟩ sampleKeywordBoard sampleFound "bugs".toList sampleWorld

set_option maxRecDepth 4000 in
/-- The item and its file after the move. -/
theorem sampleEntered_eq :
    (sampleEntered.1.toOption.map fun m => m.item.status) = some "bugs".toList ∧
    sampleEntered.2.disk.text? ⟨['/'], ["p".toList, "a.py".toList]⟩ =
      some "#TODO: a\n#DOING\nx".toList := by cbv

theorem exists_sampleEntered : ∃ moved, sampleEntered = (.ok moved, sampleEntered.2) ∧
    moved.item.status = "bugs".toList := by
  obtain ⟨moved, hmoved, hstatus⟩ := Option.map_eq_some_iff.1 sampleEntered_eq.1
  exact ⟨moved, Steps.eq_of_toOption hmoved, hstatus⟩

theorem reread_entered_sampleWorld :
    ∃ moved, sampleEntered.1 = .ok moved ∧ moved.item.status = "bugs".toList ∧
      ∃ text', sampleEntered.2.disk.text? ⟨['/'], ["p".toList, "a.py".toList]⟩ = some text' ∧
        ∀ (later : ScanContext) (id : Int), later.settings = sampleKeywordBoard →
          ∃ j ∈ later.items "a.py".toList id text', j.line = 1 ∧ j.status = "todo".toList := by
  obtain ⟨moved, hmoved, -⟩ := exists_sampleEntered
  have htext : sampleDisk.text? ⟨['/'], ["p".toList, "a.py".toList]⟩ = some sampleNoted := by cbv
  obtain ⟨hstatus, text', htext', hitems⟩ :=
    reread_entered (c := ⟨"bugs".toList, "BUGS".toList, [], some "FIXME".toList⟩)
      (Disk.isTree_of_forall (by decide)) htext (by decide) (by unfold Grammar.OwnSyntax; decide)
      rfl (by decide) rfl hmoved
  refine ⟨moved, congrArg Prod.fst hmoved, hstatus, text', htext', fun later id hl => ?_⟩
  obtain ⟨j, hj, hline, -, -, hfirst, -⟩ := hitems later id hl
  exact ⟨j, hj, hline, hfirst⟩

/-- The item of the sample is in the second column until it is scanned again. -/
theorem exists_reread_ne_sampleEntered :
    sampleFound ∈ sampleKeywordScan.items "a.py".toList 1 sampleNoted ∧
    ∃ moved text', sampleEntered.1 = .ok moved ∧ moved.item.status = "bugs".toList ∧
      sampleEntered.2.disk.text? ⟨['/'], ["p".toList, "a.py".toList]⟩ = some text' ∧
      ∀ j ∈ sampleKeywordScan.items "a.py".toList 1 text', j.line = sampleFound.line →
        j.status ≠ "bugs".toList := by
  obtain ⟨moved, hmoved, hstatus⟩ := exists_sampleEntered
  have hstatuses : (sampleKeywordScan.items "a.py".toList 1
      "#TODO: a\n#DOING\nx".toList).map Item.status = ["todo".toList] := by cbv
  refine ⟨?_, moved, _, congrArg Prod.fst hmoved, hstatus, sampleEntered_eq.2, ?_⟩
  · rw [items_sampleNoted]
    exact List.mem_singleton_self _
  · intro j hj _
    have hj := List.mem_map_of_mem hj (f := Item.status)
    rw [hstatuses, List.mem_singleton] at hj
    rw [hj]
    decide

end Action
end MarkerBoard
