import Mathlib.Data.List.Nodup
import MarkerBoard.Proofs.Block.Form
import MarkerBoard.Scan
import MarkerBoard.Session

/-!
# Entries of items

An entry has what a list of items shows of an item: where it is, what it is called, and which
column it is in. A session keeps entries in step with the files by two rules: the moved item takes
its new column, and the items below it in its file go with their lines. The items that a scan
reads change by the same rules.

Main results:

* `Session.map_entry_afterMove` — the entries of a session after a move.
* `ScanContext.map_id_itemsOfFiles` — the items of a scan are numbered through.
* `ScanContext.map_entry_itemsOfFiles_base` — the entries of a scan depend on its settings alone.
-/
namespace MarkerBoard

/-- What a list of items shows of an item. -/
structure Entry where
  id : Int
  file : Text
  line : Int
  keyword : Text
  title : Text
  status : Text
  isDone : Bool
deriving DecidableEq

namespace Entry

/-- The entry of an item. -/
def ofItem (i : Item) : Entry :=
  ⟨i.id, i.file, i.line, i.keyword, i.title, i.status, i.isDone⟩

/-- An entry after an item, whose new entry is given, has been moved and its file has grown. -/
def afterMove (moved : Entry) (growth : Int) (e : Entry) : Entry :=
  if e.id = moved.id then moved
  else if e.file = moved.file ∧ moved.line < e.line then { e with line := e.line + growth }
  else e

end Entry

/-! ## A session -/

/-- A board with a column has one for the done mark. -/
theorem Settings.exists_doneId? {s : Settings} {c : Column} (hc : c ∈ s.columns) :
    ∃ done, s.doneId? = some done := by
  rw [doneId?, doneColumn?, List.getLast?_eq_some_getLast (List.ne_nil_of_mem hc)]
  exact ⟨_, rfl⟩

namespace Item

variable {i : Item} {s : Settings} {c : Column} {time : Moment} {user : Text}

theorem isDone_markDone (i : Item) (status : Text) :
    (i.markDone status).isDone = decide (i.status = status) := by
  rw [markDone]
  split
  · next h =>
    rw [decide_eq_true h]
    split <;> rfl
  · next h => rw [decide_eq_false h]

theorem setStatus_status (i : Item) (status user : Text) (time : Moment) :
    (i.setStatus status user time).status = status := by
  rw [setStatus]
  split
  · assumption
  · rfl

/-- The entry of a moved item differs from that of the item in its column. -/
theorem ofItem_moved (hc : c ∈ s.columns) : Entry.ofItem (i.moved s c time user) =
    ⟨i.id, i.file, i.line, i.keyword, i.title, c.id, decide (s.doneId? = some c.id)⟩ := by
  obtain ⟨done, hdone⟩ := Settings.exists_doneId? hc
  have hset : ∀ status, (i.setStatus status user time).id = i.id ∧
      (i.setStatus status user time).file = i.file ∧
      (i.setStatus status user time).line = i.line ∧
      (i.setStatus status user time).keyword = i.keyword ∧
      (i.setStatus status user time).title = i.title := by
    intro status
    rw [setStatus]
    split
    · exact ⟨rfl, rfl, rfl, rfl, rfl⟩
    · exact ⟨rfl, rfl, rfl, rfl, rfl⟩
  obtain ⟨hid, hfile, hline, hkeyword, htitle⟩ := hset c.id
  have hisDone : (i.moved s c time user).isDone = decide (s.doneId? = some c.id) := by
    rw [moved, hdone, markDoneIn, isDone_markDone, setStatus_status, decide_eq_decide,
      Option.some.injEq]
    exact eq_comm
  rw [Entry.ofItem, hisDone, moved]
  simp only [markDoneIn_id, markDoneIn_file, markDoneIn_line, markDoneIn_keyword, markDoneIn_title,
    markDoneIn_status, hid, hfile, hline, hkeyword, htitle, setStatus_status]

end Item

namespace Session

/-- The entries of a session after a move. -/
theorem map_entry_afterMove (items : List Item) (moved : Moved) :
    ((putItem moved.item items).map (shift moved)).map Entry.ofItem =
      (items.map Entry.ofItem).map (Entry.afterMove (Entry.ofItem moved.item) moved.growth) := by
  rw [putItem, List.map_map, List.map_map, List.map_map]
  refine List.map_congr_left fun j _ => ?_
  simp only [Function.comp]
  by_cases hid : j.id = moved.item.id
  · have hshift : shift moved moved.item = moved.item := by
      rw [shift, if_neg]
      rintro ⟨-, h⟩
      omega
    rw [if_pos hid, hshift]
    exact (if_pos hid).symm
  · rw [if_neg hid, shift]
    refine Eq.trans ?_ (if_neg hid).symm
    by_cases hbelow : j.file = moved.item.file ∧ moved.item.line < j.line
    · rw [if_pos hbelow]
      exact (if_pos hbelow).symm
    · rw [if_neg hbelow]
      exact (if_neg hbelow).symm

end Session

/-! ## A scan -/

namespace ScanContext

variable {ctx : ScanContext} {g : Grammar} {first : Column} {file : Text}

/-- A number of numbers from one on. -/
def numbersFrom (id : Int) : Nat → List Int
  | 0 => []
  | count + 1 => id :: numbersFrom (id + 1) count

theorem numbersFrom_add (id : Int) (m n : Nat) :
    numbersFrom id (m + n) = numbersFrom id m ++ numbersFrom (id + m) n := by
  induction m generalizing id with
  | zero => simp [numbersFrom]
  | succ m ih =>
    rw [Nat.add_right_comm, numbersFrom, ih, numbersFrom, List.cons_append]
    push_cast
    rw [Int.add_assoc, Int.add_comm 1]

theorem le_of_mem_numbersFrom {id k : Int} {count : Nat} (h : k ∈ numbersFrom id count) :
    id ≤ k := by
  induction count generalizing id with
  | zero => simp [numbersFrom] at h
  | succ count ih =>
    rcases List.mem_cons.1 h with rfl | h
    · exact Int.le_refl _
    · have := ih h
      omega

theorem nodup_numbersFrom (id : Int) (count : Nat) : (numbersFrom id count).Nodup := by
  induction count generalizing id with
  | zero => exact List.nodup_nil
  | succ count ih =>
    refine List.nodup_cons.2 ⟨fun h => ?_, ih (id + 1)⟩
    have := le_of_mem_numbersFrom h
    omega

theorem map_id_itemsFrom (lines : List Text) (id : Int) (n : Nat) :
    (ctx.itemsFrom g first file id n lines).map Item.id =
      numbersFrom id (ctx.itemsFrom g first file id n lines).length := by
  induction lines generalizing id n with
  | nil => rfl
  | cons line lines ih =>
    rw [itemsFrom]
    split
    · exact ih ..
    · rw [List.map_cons, ih, List.length_cons, numbersFrom, item_id]

theorem map_id_items (file : Text) (id : Int) (text : Text) :
    (ctx.items file id text).map Item.id = numbersFrom id (ctx.items file id text).length := by
  rw [items]
  split
  · rfl
  · exact map_id_itemsFrom ..

/-- The items of a scan are numbered through. -/
theorem map_id_itemsOfFiles (files : List (Text × Text)) (id : Int) :
    (ctx.itemsOfFiles id files).flatten.map Item.id =
      numbersFrom id (ctx.itemsOfFiles id files).flatten.length := by
  induction files generalizing id with
  | nil => rfl
  | cons f files ih =>
    obtain ⟨file, text⟩ := f
    rw [itemsOfFiles, List.flatten_cons, List.map_append, List.length_append, numbersFrom_add,
      map_id_items, ih]

theorem file_of_mem_itemsFrom {lines : List Text} {id : Int} {n : Nat} {i : Item}
    (h : i ∈ ctx.itemsFrom g first file id n lines) : i.file = file := by
  obtain ⟨_, _, _, _, rfl⟩ := exists_of_mem_itemsFrom h
  exact item_file ..

theorem file_of_mem_items {id : Int} {text : Text} {i : Item} (h : i ∈ ctx.items file id text) :
    i.file = file := by
  rw [items] at h
  split at h
  · simp at h
  · exact file_of_mem_itemsFrom h

/-- An item of several files is an item of one of them. -/
theorem exists_of_mem_itemsOfFiles {files : List (Text × Text)} {id : Int} {i : Item}
    (h : i ∈ (ctx.itemsOfFiles id files).flatten) :
    ∃ id', ∃ e ∈ files, i ∈ ctx.items e.1 id' e.2 := by
  induction files generalizing id with
  | nil => simp [itemsOfFiles] at h
  | cons e files ih =>
    rw [itemsOfFiles, List.flatten_cons, List.mem_append] at h
    rcases h with h | h
    · exact ⟨id, e, List.mem_cons_self, h⟩
    · obtain ⟨id', e', he', hi⟩ := ih h
      exact ⟨id', e', List.mem_cons_of_mem _ he', hi⟩

theorem exists_file_of_mem_itemsOfFiles {files : List (Text × Text)} {id : Int} {i : Item}
    (h : i ∈ (ctx.itemsOfFiles id files).flatten) : ∃ f ∈ files, i.file = f.1 := by
  obtain ⟨_, f, hf, hi⟩ := exists_of_mem_itemsOfFiles h
  exact ⟨f, hf, file_of_mem_items hi⟩

/-- No item is in a file that is not scanned. -/
theorem file_ne_of_mem_itemsOfFiles {files : List (Text × Text)} (h : ∀ f ∈ files, f.1 ≠ file)
    {id : Int} {i : Item} (hi : i ∈ (ctx.itemsOfFiles id files).flatten) : i.file ≠ file := by
  obtain ⟨f, hf, hif⟩ := exists_file_of_mem_itemsOfFiles hi
  rw [hif]
  exact h f hf

/-- Every item on a disk comes from a marker in some file and the lines after it. -/
theorem exists_of_mem_itemsOn {d : Disk} {root : Path} {ignored : List Ignore.Pattern} {i : Item}
    (h : i ∈ ctx.itemsOn d root ignored) :
    ∃ first file id n m lines, ctx.settings.firstColumn? = some first ∧
      i = ctx.item first file id n m ((Grammar.ofSettings ctx.settings).block lines) := by
  obtain ⟨_, e, -, hi⟩ := exists_of_mem_itemsOfFiles h
  rw [items] at hi
  split at hi
  · exact absurd hi List.not_mem_nil
  · next first hfirst =>
    obtain ⟨id, n, m, lines, rfl⟩ := exists_of_mem_itemsFrom hi
    exact ⟨first, e.1, id, n, m, lines, hfirst, rfl⟩

theorem flatten_itemsOfFiles_append (files files' : List (Text × Text)) (id : Int) :
    (ctx.itemsOfFiles id (files ++ files')).flatten =
      (ctx.itemsOfFiles id files).flatten ++
        (ctx.itemsOfFiles (id + (ctx.itemsOfFiles id files).flatten.length) files').flatten := by
  induction files generalizing id with
  | nil => simp [itemsOfFiles]
  | cons f files ih =>
    obtain ⟨file, text⟩ := f
    rw [List.cons_append, itemsOfFiles, itemsOfFiles, List.flatten_cons, List.flatten_cons, ih,
      List.append_assoc, List.length_append]
    push_cast
    rw [Int.add_assoc]

theorem isDone_item (id : Int) (n : Nat) (m : MarkerLine) (block : List BlockLine) :
    (ctx.item first file id n m block).isDone =
      decide (ctx.settings.doneId? = some (ctx.item first file id n m block).status) := by
  rw [item]
  cases ctx.settings.doneId? with
  | none => rfl
  | some done =>
    rw [Item.markDoneIn, Item.isDone_markDone, decide_eq_decide]
    have hstatus : ∀ i : Item, (i.markDoneIn (some done)).status = i.status :=
      fun i => Item.markDoneIn_status i _
    simp only [Item.markDoneIn] at hstatus
    rw [hstatus, Option.some.injEq, eq_comm]

/-! ### Scans of other users -/

/-- A scan with settings of which user and time do not matter. -/
def base (s : Settings) : ScanContext := ⟨s, [], Moment.first⟩

theorem itemsOn_base (s : Settings) (d : Disk) (root : Path) (ignored : List Ignore.Pattern) :
    (base s).itemsOn d root ignored =
      ((base s).itemsOfFiles 1 (d.sources root s.exclusions.directories ignored)).flatten := rfl

theorem entry_item_base (id : Int) (n : Nat) (m : MarkerLine) (block : List BlockLine) :
    Entry.ofItem (ctx.item first file id n m block) =
      Entry.ofItem ((base ctx.settings).item first file id n m block) := by
  have hstatus : (ctx.item first file id n m block).status =
      ((base ctx.settings).item first file id n m block).status := by
    have hsame : block.filterMap ctx.transition? =
        block.filterMap (base ctx.settings).transition? := rfl
    rw [item, item, Item.markDoneIn_status, Item.markDoneIn_status]
    simp only [hsame]
    cases (block.filterMap (base ctx.settings).transition?).getLast? <;> rfl
  rw [Entry.ofItem, Entry.ofItem, isDone_item, isDone_item, hstatus]
  simp only [item_id, item_file, item_line, item_keyword, item_title]
  rfl

theorem map_entry_itemsFrom_base (lines : List Text) (id : Int) (n : Nat) :
    (ctx.itemsFrom g first file id n lines).map Entry.ofItem =
      ((base ctx.settings).itemsFrom g first file id n lines).map Entry.ofItem := by
  induction lines generalizing id n with
  | nil => rfl
  | cons line lines ih =>
    rw [itemsFrom, itemsFrom]
    split
    · exact ih ..
    · rw [List.map_cons, List.map_cons, entry_item_base, ih]

theorem map_entry_items_base (ctx : ScanContext) (file : Text) (id : Int) (text : Text) :
    (ctx.items file id text).map Entry.ofItem =
      ((base ctx.settings).items file id text).map Entry.ofItem := by
  have hfirst : (base ctx.settings).settings = ctx.settings := rfl
  rw [items, items, hfirst]
  split
  · rfl
  · exact map_entry_itemsFrom_base ..

/-- The entries of a scan depend on its settings alone. -/
theorem map_entry_itemsOfFiles_base (files : List (Text × Text)) (id : Int) :
    (ctx.itemsOfFiles id files).flatten.map Entry.ofItem =
      ((base ctx.settings).itemsOfFiles id files).flatten.map Entry.ofItem := by
  induction files generalizing id with
  | nil => rfl
  | cons f files ih =>
    obtain ⟨file, text⟩ := f
    have hitems := map_entry_items_base ctx file id text
    have hlength := congrArg List.length hitems
    rw [List.length_map, List.length_map] at hlength
    rw [itemsOfFiles, itemsOfFiles, List.flatten_cons, List.flatten_cons, List.map_append,
      List.map_append, hitems, ih, hlength]

end ScanContext
end MarkerBoard
