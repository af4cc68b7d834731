import MarkerBoard.Block.Parse

/-!
# Where items come from

Every marker line of a list of lines opens one item, and what the item says depends only on the
lines up to the next marker. So items can be found piece by piece, and they depend on the texts
of the lines, not on their terminators.

Main results:

* `ScanContext.itemsFrom_congr` — items depend only on the texts of the lines.
* `ScanContext.itemsFrom_append` — items are found piece by piece, if the second piece does not
  continue an item of the first one.
* `ScanContext.itemsFrom_lower` — where the lines start only changes the line numbers.
* `ScanContext.exists_of_mem_itemsFrom` — every item comes from a marker and the lines after it.
-/
namespace MarkerBoard

/-! ## The done mark -/

namespace Item

/-- The done mark touches nothing but itself. -/
theorem exists_markDoneIn_eq (i : Item) (doneId : Option Text) :
    ∃ isDone doneAt doneBy, i.markDoneIn doneId = { i with isDone, doneAt, doneBy } := by
  cases doneId with
  | none => exact ⟨i.isDone, i.doneAt, i.doneBy, rfl⟩
  | some status =>
    rw [markDoneIn, markDone]
    split
    · split
      · next t _ => exact ⟨true, some t.time, some t.user, rfl⟩
      · exact ⟨true, i.doneAt, i.doneBy, rfl⟩
    · exact ⟨false, none, none, rfl⟩

variable (i : Item) (doneId : Option Text)

@[simp] theorem markDoneIn_id : (i.markDoneIn doneId).id = i.id := by
  obtain ⟨_, _, _, h⟩ := i.exists_markDoneIn_eq doneId
  rw [h]

@[simp] theorem markDoneIn_keyword : (i.markDoneIn doneId).keyword = i.keyword := by
  obtain ⟨_, _, _, h⟩ := i.exists_markDoneIn_eq doneId
  rw [h]

@[simp] theorem markDoneIn_title : (i.markDoneIn doneId).title = i.title := by
  obtain ⟨_, _, _, h⟩ := i.exists_markDoneIn_eq doneId
  rw [h]

@[simp] theorem markDoneIn_file : (i.markDoneIn doneId).file = i.file := by
  obtain ⟨_, _, _, h⟩ := i.exists_markDoneIn_eq doneId
  rw [h]

@[simp] theorem markDoneIn_line : (i.markDoneIn doneId).line = i.line := by
  obtain ⟨_, _, _, h⟩ := i.exists_markDoneIn_eq doneId
  rw [h]

@[simp] theorem markDoneIn_status : (i.markDoneIn doneId).status = i.status := by
  obtain ⟨_, _, _, h⟩ := i.exists_markDoneIn_eq doneId
  rw [h]

@[simp] theorem markDoneIn_history : (i.markDoneIn doneId).history = i.history := by
  obtain ⟨_, _, _, h⟩ := i.exists_markDoneIn_eq doneId
  rw [h]

/-- The item a number of lines further down. -/
def lower (k : Int) : Item := { i with line := i.line + k }

theorem markDoneIn_lower (k : Int) :
    (i.lower k).markDoneIn doneId = (i.markDoneIn doneId).lower k := by
  cases doneId with
  | none => rfl
  | some status =>
    by_cases h : i.status = status
    · cases hf : i.history.reverse.find? (·.status = status) with
      | none => simp [markDoneIn, markDone, lower, h, hf]
      | some t => simp [markDoneIn, markDone, lower, h, hf]
    · simp [markDoneIn, markDone, lower, h]

end Item

/-! ## The lines of an item -/

namespace Grammar
variable {g : Grammar}

theorem block_congr {lines lines' : List Text}
    (h : lines.map Line.body = lines'.map Line.body) : g.block lines = g.block lines' := by
  induction lines generalizing lines' with
  | nil =>
    rw [List.map_nil, eq_comm, List.map_eq_nil_iff] at h
    rw [h]
  | cons line lines ih =>
    cases lines' with
    | nil => simp at h
    | cons line' lines' =>
      rw [List.map_cons, List.map_cons, List.cons.injEq] at h
      rw [block, block, ih h.2, blockLine?, blockLine?, h.1]

/-- The lines of an item end before a line that is none of its own. -/
theorem block_append {lines rest : List Text} (h : g.block rest = []) :
    g.block (lines ++ rest) = g.block lines := by
  induction lines with
  | nil => exact h
  | cons line lines ih => rw [List.cons_append, block, block, ih]

theorem block_cons_of_marker {line : Text} (h : (g.marker? (Line.body line)).isSome)
    (lines : List Text) : g.block (line :: lines) = [] := by
  rw [block, blockLine?]
  simp only [h, if_true]

end Grammar

/-! ## Finding items -/

namespace ScanContext
variable {ctx : ScanContext} {g : Grammar} {first : Column} {file : Text}

@[simp] theorem item_id (id : Int) (n : Nat) (m : MarkerLine) (block : List BlockLine) :
    (ctx.item first file id n m block).id = id := by
  simp [item]

@[simp] theorem item_keyword (id : Int) (n : Nat) (m : MarkerLine) (block : List BlockLine) :
    (ctx.item first file id n m block).keyword = m.keyword := by
  simp [item]

@[simp] theorem item_title (id : Int) (n : Nat) (m : MarkerLine) (block : List BlockLine) :
    (ctx.item first file id n m block).title = m.titleText := by
  simp [item]

@[simp] theorem item_file (id : Int) (n : Nat) (m : MarkerLine) (block : List BlockLine) :
    (ctx.item first file id n m block).file = file := by
  simp [item]

@[simp] theorem item_line (id : Int) (n : Nat) (m : MarkerLine) (block : List BlockLine) :
    (ctx.item first file id n m block).line = n := by
  simp [item]

theorem item_lower (id : Int) (n n' : Nat) (m : MarkerLine) (block : List BlockLine) :
    ctx.item first file id n' m block = (ctx.item first file id n m block).lower (n' - n) := by
  rw [item, item, ← Item.markDoneIn_lower]
  congr 1
  simp only [Item.lower, Item.mk.injEq, true_and, and_true]
  omega

theorem itemsFrom_congr {lines lines' : List Text}
    (h : lines.map Line.body = lines'.map Line.body) (id : Int) (n : Nat) :
    ctx.itemsFrom g first file id n lines = ctx.itemsFrom g first file id n lines' := by
  induction lines generalizing lines' id n with
  | nil =>
    rw [List.map_nil, eq_comm, List.map_eq_nil_iff] at h
    rw [h]
  | cons line lines ih =>
    cases lines' with
    | nil => simp at h
    | cons line' lines' =>
      rw [List.map_cons, List.map_cons, List.cons.injEq] at h
      rw [itemsFrom, itemsFrom, h.1, Grammar.block_congr h.2]
      split
      · exact ih h.2 ..
      · rw [ih h.2]

theorem itemsFrom_append {lines rest : List Text} (h : g.block rest = []) (id : Int) (n : Nat) :
    ctx.itemsFrom g first file id n (lines ++ rest) =
      ctx.itemsFrom g first file id n lines ++
        ctx.itemsFrom g first file (id + (ctx.itemsFrom g first file id n lines).length)
          (n + lines.length) rest := by
  induction lines generalizing id n with
  | nil => simp [itemsFrom]
  | cons line lines ih =>
    rw [List.cons_append, itemsFrom, itemsFrom, Grammar.block_append h]
    split
    · rw [ih, List.length_cons, Nat.add_right_comm n 1, Nat.add_assoc n]
    · rw [ih, List.cons_append, List.length_cons, List.length_cons]
      congr 3
      · push_cast
        omega
      · omega

/-- Lines without markers are passed over. -/
theorem itemsFrom_append_of_no_marker {lines : List Text}
    (h : ∀ l ∈ lines, g.marker? (Line.body l) = none) (rest : List Text) (id : Int) (n : Nat) :
    ctx.itemsFrom g first file id n (lines ++ rest) =
      ctx.itemsFrom g first file id (n + lines.length) rest := by
  induction lines generalizing n with
  | nil => rfl
  | cons line lines ih =>
    rw [List.cons_append, itemsFrom, h line List.mem_cons_self]
    simp only []
    rw [ih fun l hl => h l (List.mem_cons_of_mem _ hl)]
    congr 1
    rw [List.length_cons]
    omega

theorem itemsFrom_lower (lines : List Text) (id : Int) (n n' : Nat) :
    ctx.itemsFrom g first file id n' lines =
      (ctx.itemsFrom g first file id n lines).map (Item.lower · (n' - n)) := by
  induction lines generalizing id n n' with
  | nil => rfl
  | cons line lines ih =>
    have hk : (n' : Int) - n = ((n' + 1 : Nat) : Int) - ((n + 1 : Nat) : Int) := by omega
    rw [itemsFrom, itemsFrom]
    split
    · rw [ih id (n + 1) (n' + 1), hk]
    · rw [ih (id + 1) (n + 1) (n' + 1), List.map_cons, ← item_lower, hk]

/-- Every item comes from a marker and the lines after it. -/
theorem exists_of_mem_itemsFrom {lines : List Text} {id : Int} {n : Nat} {i : Item}
    (h : i ∈ ctx.itemsFrom g first file id n lines) :
    ∃ id' n' m rest, i = ctx.item first file id' n' m (g.block rest) := by
  induction lines generalizing id n with
  | nil => simp [itemsFrom] at h
  | cons line lines ih =>
    rw [itemsFrom] at h
    split at h
    · exact ih h
    · rcases List.mem_cons.1 h with rfl | h
      · exact ⟨_, _, _, _, rfl⟩
      · exact ih h

/-- Items are on the lines in which they are looked for. -/
theorem line_of_mem_itemsFrom {lines : List Text} {id : Int} {n : Nat} {i : Item}
    (h : i ∈ ctx.itemsFrom g first file id n lines) :
    n ≤ i.line ∧ i.line < n + lines.length := by
  induction lines generalizing id n with
  | nil => simp [itemsFrom] at h
  | cons line lines ih =>
    rw [itemsFrom] at h
    rw [List.length_cons]
    split at h
    · have := ih h
      push_cast at this ⊢
      omega
    · rcases List.mem_cons.1 h with rfl | h
      · rw [item_line]
        omega
      · have := ih h
        push_cast at this ⊢
        omega

end ScanContext
end MarkerBoard
