import MarkerBoard.Proofs.Block.Reread

/-!
# What the lines of an item record

The lines of an item are the comment lines after its marker, up to the next marker. Each note among
them whose date exists records that the item went to a column, and the last one tells where it is.

A note bears the name of a column, letter by letter, so the column is there when it is looked up by
that name, whatever the names of the board are. Which column it is, is another question: the names
are compared without regard to case and outer blanks, and the first one that agrees is taken.

Main results:

* `Settings.exists_columnNamed?` — the name of a column stands for a column.
* `Grammar.block_eq_filterMap` — the lines that belong to an item.
* `ScanContext.recorded_of_mem_items` — the entries and the status of an item.
-/
namespace MarkerBoard

/-! ## Names of columns -/

namespace Settings

variable {s : Settings} {name : Text}

/-- The name of a column stands for a column. -/
theorem exists_columnNamed? (h : name ∈ s.columns.map Column.name) :
    ∃ c ∈ s.columns, s.columnNamed? name = some c ∧ s.statusNamed name = c.id := by
  obtain ⟨c, hc, rfl⟩ := List.mem_map.1 h
  rw [statusNamed]
  cases hfind : s.columnNamed? c.name with
  -- at least the column itself has the name
  | none =>
    rw [columnNamed?, List.find?_eq_none] at hfind
    exact absurd (decide_eq_true rfl) (hfind c hc)
  | some c' => exact ⟨c', List.mem_of_find?_eq_some hfind, rfl, rfl⟩

theorem statusNamed_mem (h : name ∈ s.columns.map Column.name) :
    s.statusNamed name ∈ s.columns.map Column.id := by
  obtain ⟨c, hc, -, hstatus⟩ := exists_columnNamed? h
  exact hstatus ▸ List.mem_map_of_mem hc

/-- What a note bears is the name of a column. -/
theorem mem_name_of_note? {line : Text} {a : NoteLine}
    (h : (Grammar.ofSettings s).note? line = some a) : a.name ∈ s.columns.map Column.name :=
  (List.filter_sublist.map _).subset (Grammar.mem_names_of_note? h)

end Settings

/-! ## The lines of an item -/

namespace Grammar

variable {g : Grammar} {lines : List Text} {line : Text}

/-- The line belongs to an item above it: it is a comment and no marker. -/
def goesOn (g : Grammar) (line : Text) : Bool :=
  (description? (Line.body line)).isSome && (g.marker? (Line.body line)).isNone

/-- The lines at the start that belong to an item above them are read one by one. -/
theorem block_eq_filterMap (g : Grammar) (lines : List Text) :
    g.block lines = (lines.takeWhile g.goesOn).filterMap g.blockLine? := by
  induction lines with
  | nil => rfl
  | cons line lines ih =>
    have hsome : (g.blockLine? line).isSome = g.goesOn line := isSome_blockLine?
    rw [block, List.takeWhile_cons]
    cases hline : g.blockLine? line with
    | none =>
      rw [hline] at hsome
      rw [← hsome]
      rfl
    | some b =>
      rw [hline] at hsome
      rw [← hsome, ih]
      exact (List.filterMap_cons_some hline).symm

/-- The notes that belong to an item are all the notes on its lines. -/
theorem bind_note?_blockLine? (h : g.goesOn line) :
    (g.blockLine? line).bind BlockLine.note? = g.note? (Line.body line) := by
  rw [goesOn, Bool.and_eq_true, Option.isNone_iff_eq_none] at h
  cases hnote : g.note? (Line.body line) with
  | some a =>
    rw [blockLine?_of_note? h.2 hnote]
    rfl
  | none =>
    cases hline : g.blockLine? line with
    | none => rfl
    | some b =>
      cases b with
      | note a => cases hnote.symm.trans (note?_of_blockLine? hline)
      | priority label => rfl
      | description text => rfl

end Grammar

/-! ## The entries of an item -/

namespace ScanContext

variable {ctx : ScanContext} {g : Grammar} {first : Column} {file text : Text} {i : Item}
  {lines : List Text}

/-- What a line records: the column of its note, the date and the user, if there is a note and the
date exists. -/
def recorded? (ctx : ScanContext) (line : Text) : Option Transition :=
  ((Grammar.ofSettings ctx.settings).note? (Line.body line)).bind fun a =>
    (Moment.ofMinuteText? a.stamp).map fun time =>
      ⟨ctx.settings.statusNamed a.name, time, Text.trim a.user⟩

theorem status_mem_of_recorded? {line : Text} {t : Transition}
    (h : ctx.recorded? line = some t) : t.status ∈ ctx.settings.columns.map Column.id := by
  obtain ⟨a, hnote, ht⟩ := Option.bind_eq_some_iff.1 h
  obtain ⟨time, -, rfl⟩ := Option.map_eq_some_iff.1 ht
  exact Settings.statusNamed_mem (Settings.mem_name_of_note? hnote)

/-- The last of the columns that lines record is a column of the board, and so is the first column
where they record none. -/
theorem lastStatus_mem (hfirst : ctx.settings.firstColumn? = some first)
    (lines : List Text) :
    ((lines.filterMap ctx.recorded?).getLast?.map Transition.status).getD first.id ∈
      ctx.settings.columns.map Column.id := by
  cases hlast : (lines.filterMap ctx.recorded?).getLast? with
  | none => exact List.mem_map_of_mem (List.mem_of_head? hfirst)
  | some t =>
    obtain ⟨line, -, hline⟩ := List.mem_filterMap.1 (List.mem_of_getLast? hlast)
    exact status_mem_of_recorded? hline

/-- What an item has from the lines after it, they have recorded, in their order. -/
theorem filterMap_transition?_block (lines : List Text) :
    ((Grammar.ofSettings ctx.settings).block lines).filterMap ctx.transition? =
      (lines.takeWhile (Grammar.ofSettings ctx.settings).goesOn).filterMap ctx.recorded? := by
  rw [Grammar.block_eq_filterMap, filterMap_transition?, List.filterMap_filterMap,
    List.filterMap_filterMap]
  refine List.filterMap_congr fun line hline => ?_
  rw [← Option.bind_assoc, Grammar.bind_note?_blockLine? (List.mem_takeWhile_imp hline)]
  rfl

theorem item_history (id : Int) (n : Nat) (m : MarkerLine) (block : List BlockLine) :
    (ctx.item first file id n m block).history =
      if (block.filterMap ctx.transition?).isEmpty then [⟨first.id, ctx.now, ctx.user⟩]
      else block.filterMap ctx.transition? := by
  rw [item, Item.markDoneIn_history]

theorem item_status (id : Int) (n : Nat) (m : MarkerLine) (block : List BlockLine) :
    (ctx.item first file id n m block).status =
      ((block.filterMap ctx.transition?).getLast?.map Transition.status).getD first.id := by
  rw [item, Item.markDoneIn_status]
  exact (Option.getD_map Transition.status ⟨first.id, ctx.now, ctx.user⟩ _).symm

/-- Every item is made from a marker and the lines after its own line. -/
theorem exists_drop_of_mem_itemsFrom {id : Int} {n : Nat}
    (h : i ∈ ctx.itemsFrom g first file id n lines) :
    ∃ id' k m, i = ctx.item first file id' (n + k) m (g.block (lines.drop (k + 1))) := by
  induction lines generalizing id n with
  | nil => exact absurd h List.not_mem_nil
  | cons line lines ih =>
    have hbelow : ∀ {id'}, i ∈ ctx.itemsFrom g first file id' (n + 1) lines →
        ∃ id' k m, i = ctx.item first file id' (n + k) m (g.block ((line :: lines).drop (k + 1))) := by
      intro id' hi
      obtain ⟨id'', k, m, hi⟩ := ih hi
      exact ⟨id'', k + 1, m, by rw [hi, Nat.add_right_comm, Nat.add_assoc]; rfl⟩
    rw [itemsFrom] at h
    split at h
    · exact hbelow h
    · next m hm =>
      rcases List.mem_cons.1 h with rfl | h
      · exact ⟨id, 0, m, rfl⟩
      · exact hbelow h

/-- The lines that belong to an item of a scan. -/
def linesOf (ctx : ScanContext) (text : Text) (i : Item) : List Text :=
  ((Line.split text).drop i.line.toNat).takeWhile (Grammar.ofSettings ctx.settings).goesOn

/-- The entries of an item are what its lines record, in the order of the lines, or the first column
if they record nothing, and the last entry tells the status. All of them name columns of the board:
a note on any line bears a name for which there is a column. -/
theorem recorded_of_mem_items {id : Int} (h : i ∈ ctx.items file id text) :
    ∃ first, ctx.settings.firstColumn? = some first ∧
      (i.history = if ((ctx.linesOf text i).filterMap ctx.recorded?).isEmpty then
          [⟨first.id, ctx.now, ctx.user⟩]
        else (ctx.linesOf text i).filterMap ctx.recorded?) ∧
      i.status = ((((ctx.linesOf text i).filterMap ctx.recorded?).getLast?).map
        Transition.status).getD first.id ∧
      (∀ line a, (Grammar.ofSettings ctx.settings).note? line = some a →
        ∃ c ∈ ctx.settings.columns,
          ctx.settings.columnNamed? a.name = some c ∧ ctx.settings.statusNamed a.name = c.id) ∧
      i.status ∈ ctx.settings.columns.map Column.id ∧
      ∀ t ∈ i.history, t.status ∈ ctx.settings.columns.map Column.id := by
  rw [items] at h
  split at h
  · exact absurd h List.not_mem_nil
  next first hfirst =>
  obtain ⟨id', k, m, hi⟩ := exists_drop_of_mem_itemsFrom h
  have hline : i.line.toNat = k + 1 := by
    rw [hi, item_line]
    omega
  have hlines : ((Grammar.ofSettings ctx.settings).block ((Line.split text).drop
      (k + 1))).filterMap ctx.transition? = (ctx.linesOf text i).filterMap ctx.recorded? := by
    rw [filterMap_transition?_block, linesOf, hline]
  have hhistory := congrArg Item.history hi
  rw [item_history, hlines] at hhistory
  have hstatus := congrArg Item.status hi
  rw [item_status, hlines] at hstatus
  refine ⟨first, hfirst, hhistory, hstatus,
    fun line a ha => Settings.exists_columnNamed? (Settings.mem_name_of_note? ha),
    hstatus ▸ lastStatus_mem hfirst _, ?_⟩
  intro t ht
  rw [hhistory] at ht
  split at ht
  · exact List.mem_singleton.1 ht ▸ List.mem_map_of_mem (List.mem_of_head? hfirst)
  · obtain ⟨line, -, hline⟩ := List.mem_filterMap.1 ht
    exact status_mem_of_recorded? hline

/-! ## A date that does not exist -/

/-- An item with two notes, the second of them with a date that does not exist, and a note that
belongs to no item. -/
def sampleNotes : Text :=
  ("//TODO: a\n// DOING 2024-01-02 09:00 by ann\n//b\n// DONE 2024-02-30 09:00 by bob\n" ++
    "\n// DONE 2024-03-01 09:00 by eve\n").toList

/-- The lines of that item. -/
def sampleNoteLines : List Text :=
  ["// DOING 2024-01-02 09:00 by ann\n", "//b\n", "// DONE 2024-02-30 09:00 by bob\n"].map
    String.toList

theorem map_sampleNoteLines :
    (sampleNoteLines.filterMap sampleScan.recorded?).map (fun t => (t.status, t.user)) =
      [("doing".toList, "ann".toList)] := by
  cbv

set_option maxRecDepth 2000 in
/-- The item is in the column of the first note. -/
theorem recorded_of_mem_items_sampleNotes :
    ∃ i ∈ sampleScan.items "a.go".toList 1 sampleNotes,
      sampleScan.linesOf sampleNotes i = sampleNoteLines ∧ i.status = "doing".toList ∧
      i.history.map Transition.user = ["ann".toList] ∧
      ∀ t ∈ i.history, t.status ∈ sampleBoard.columns.map Column.id := by
  have hmap : (sampleScan.items "a.go".toList 1 sampleNotes).map Item.line = [1] := by cbv
  obtain ⟨i, hone, hline⟩ := List.map_eq_singleton_iff.1 hmap
  have hmem : i ∈ sampleScan.items "a.go".toList 1 sampleNotes := hone ▸ List.mem_singleton_self i
  have hlines : sampleScan.linesOf sampleNotes i = sampleNoteLines := by
    rw [linesOf, hline]
    cbv
  obtain ⟨t, hrecorded, ht⟩ := List.map_eq_singleton_iff.1 map_sampleNoteLines
  obtain ⟨hname, huser⟩ := Prod.mk.inj ht
  obtain ⟨first, hfirst, hhistory, hstatus, -, -, hon⟩ := recorded_of_mem_items hmem
  rw [hlines, hrecorded] at hhistory hstatus
  refine ⟨i, hmem, hlines, hstatus.trans hname, ?_, hon⟩
  rw [hhistory]
  exact congrArg (fun user => [user]) huser

end ScanContext
end MarkerBoard
