import MarkerBoard.Proofs.Block.Frame
import MarkerBoard.Proofs.Grammar.Lines

/-!
# Scanning in pieces

A scan looks at one line after the other, and a line belongs to the item above it only as long as
comment lines follow each other. So lines can be cut in two, scanned one by one and put together
again, unless the cut leaves a comment line at the start of the second piece that is no marker: such
a line would add to the last item of the first piece.

Main results:

* `Grammar.block_eq_nil_iff` — which lines add nothing to an item above them.
* `ScanContext.itemsOfLines_append` — the items of lines in two pieces.
* `ScanContext.items_append` — the same for a text in two pieces.
-/
namespace MarkerBoard

/-- Nothing is added to an item above by lines that start with a marker or with no comment. -/
theorem Grammar.block_eq_nil_iff {g : Grammar} {lines : List Text} :
    g.block lines = [] ↔ ∀ line ∈ lines.head?,
      (g.marker? (Line.body line)).isSome ∨ description? (Line.body line) = none := by
  cases lines with
  | nil => exact iff_of_true rfl fun _ h => absurd h (Option.not_mem_none _)
  | cons line lines =>
    have hnil : g.block (line :: lines) = [] ↔ (g.blockLine? line).isSome = false := by
      rw [block]
      cases g.blockLine? line <;> simp
    rw [hnil, isSome_blockLine?]
    simp only [List.head?_cons, Option.mem_some_iff, forall_eq']
    cases g.marker? (Line.body line) <;> simp

namespace ScanContext

variable {ctx : ScanContext} {g : Grammar} {lines rest : List Text}

/-- The items in lines, for a grammar and counted from an identifier on. -/
def itemsOfLines (ctx : ScanContext) (g : Grammar) (file : Text) (id : Int) (lines : List Text) :
    List Item :=
  match ctx.settings.firstColumn? with
  | none => []
  | some first => ctx.itemsFrom g first file id 1 lines

theorem items_eq_itemsOfLines (ctx : ScanContext) (file : Text) (id : Int) (text : Text) :
    ctx.items file id text =
      ctx.itemsOfLines (.ofSettings ctx.settings) file id (Line.split text) := rfl

/-- Lines after a cut have the items that they have alone, further down and with further
identifiers. -/
theorem itemsFrom_append_lower (hrest : g.block rest = []) (first : Column) (file : Text)
    (id : Int) :
    ctx.itemsFrom g first file id 1 (lines ++ rest) =
      ctx.itemsFrom g first file id 1 lines ++
        (ctx.itemsFrom g first file (id + (ctx.itemsFrom g first file id 1 lines).length) 1
          rest).map (Item.lower · lines.length) := by
  have hlower : ((1 + lines.length : Nat) : Int) - (1 : Nat) = lines.length := by omega
  rw [itemsFrom_append hrest, itemsFrom_lower rest _ 1 (1 + lines.length), hlower]

/-- The lines of a file in two pieces have the items of the first piece, and then those of the
second one, with line numbers and identifiers that go on from the first, if the second piece starts
with a marker or with no comment. -/
theorem itemsOfLines_append (hrest : ∀ line ∈ rest.head?,
      (g.marker? (Line.body line)).isSome ∨ Grammar.description? (Line.body line) = none)
    (file : Text) (id : Int) :
    ctx.itemsOfLines g file id (lines ++ rest) =
      ctx.itemsOfLines g file id lines ++
        (ctx.itemsOfLines g file (id + (ctx.itemsOfLines g file id lines).length) rest).map
          (Item.lower · lines.length) := by
  unfold itemsOfLines
  cases ctx.settings.firstColumn? with
  | none => rfl
  | some first => exact itemsFrom_append_lower (Grammar.block_eq_nil_iff.2 hrest) first file id

/-- A text in two pieces, the first of which ends with a line feed, has the items of both. -/
theorem items_append {text : Text} (hlines : ∀ line ∈ lines, Line.Ended line)
    (hrest : (Grammar.ofSettings ctx.settings).block (Line.split text) = []) (file : Text)
    (id : Int) :
    ctx.items file id (lines.flatten ++ text) =
      ctx.items file id lines.flatten ++
        (ctx.items file (id + (ctx.items file id lines.flatten).length) text).map
          (Item.lower · lines.length) := by
  unfold items
  rw [Line.split_flatten_append hlines, Line.split_flatten (Line.isCut_of_ended hlines)]
  cases ctx.settings.firstColumn? with
  | none => rfl
  | some first => exact itemsFrom_append_lower hrest first file id

/-! ## A cut before a marker -/

/-- Lines with one item, and with two. -/
def sampleUpper : List Text := ["//TODO: a\n", "//b\n"].map String.toList

def sampleLower : List Text := ["//FIXME: c\n", "//d\n", "e\n", "//TODO: f"].map String.toList

theorem itemsOfLines_append_sampleUpper :
    ((Grammar.ofSettings sampleBoard).marker? "//FIXME: c".toList).isSome ∧
      sampleScan.itemsOfLines (.ofSettings sampleBoard) [] 1 (sampleUpper ++ sampleLower) =
        sampleScan.itemsOfLines (.ofSettings sampleBoard) [] 1 sampleUpper ++
          (sampleScan.itemsOfLines (.ofSettings sampleBoard) [] 2 sampleLower).map
            (Item.lower · 2) ∧
      (sampleScan.itemsOfLines (.ofSettings sampleBoard) [] 1
        (sampleUpper ++ sampleLower)).map Item.line = [1, 3, 6] := by
  have hmarker : ((Grammar.ofSettings sampleBoard).marker? "//FIXME: c".toList).isSome := by cbv
  have hone : (sampleScan.itemsOfLines (.ofSettings sampleBoard) [] 1 sampleUpper).length = 1 := by
    cbv
  have hrest : ∀ line ∈ sampleLower.head?,
      ((Grammar.ofSettings sampleBoard).marker? (Line.body line)).isSome ∨
        Grammar.description? (Line.body line) = none := by
    intro line hline
    cases hline
    exact .inl hmarker
  have happend : sampleScan.itemsOfLines (.ofSettings sampleBoard) [] 1
      (sampleUpper ++ sampleLower) = _ := itemsOfLines_append hrest [] 1
  rw [hone] at happend
  exact ⟨hmarker, happend, by cbv⟩

end ScanContext
end MarkerBoard
