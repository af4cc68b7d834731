import Mathlib
import MarkerBoard.Proofs.Block.Edit
import MarkerBoard.Proofs.Block.Items

/-!
# An edit and the other items

An edit changes one comment of a text. The markers of the other items stay, and so do the lines
that belong to them, because the comment that is edited ends before the next marker. Only the
lines further down move.

Main results:

* `ScanContext.items_of_commentAt`, `ScanContext.items_edited` — the items before and after an
  edit: those above, the edited one, those below.
* `ScanContext.items_edit_frame` — an edit leaves all other items as they are, up to the line
  numbers of those below.
-/
namespace MarkerBoard.ScanContext

open Grammar (addedTexts terminatorFor CommentAt)

variable {ctx : ScanContext} {g : Grammar} {first : Column} {file opener note text : Text}
  {before own after : List Text} {marker : Text} {number : Int} {m : MarkerLine}

/-- Items around a marker whose next lines open no item. -/
theorem itemsFrom_around (hm : g.marker? (Line.body marker) = some m)
    (ho : ∀ l ∈ own, g.marker? (Line.body l) = none) (id : Int) (n : Nat) :
    ctx.itemsFrom g first file id n (before ++ marker :: (own ++ after)) =
      ctx.itemsFrom g first file id n before ++
        ctx.item first file (id + (ctx.itemsFrom g first file id n before).length)
          (n + before.length) m (g.block (own ++ after)) ::
        ctx.itemsFrom g first file (id + (ctx.itemsFrom g first file id n before).length + 1)
          (n + before.length + 1 + own.length) after := by
  rw [itemsFrom_append (g.block_cons_of_marker (by rw [hm]; rfl) _), itemsFrom, hm]
  simp only []
  rw [itemsFrom_append_of_no_marker ho]

theorem marker?_eq_none_of_continues {l : Text} (h : g.continues opener l = true) :
    g.marker? (Line.body l) = none := by
  rw [Grammar.continues, Bool.and_eq_true] at h
  simpa using h.2

/-- The items of a text around a comment. -/
theorem items_of_commentAt (hf : ctx.settings.firstColumn? = some first)
    (h : CommentAt (.ofSettings ctx.settings) opener (Line.split text) number before marker own
      after m) (id : Int) :
    ctx.items file id text =
      ctx.itemsFrom (.ofSettings ctx.settings) first file id 1 before ++
        ctx.item first file
          (id + (ctx.itemsFrom (.ofSettings ctx.settings) first file id 1 before).length)
          (1 + before.length) m ((Grammar.ofSettings ctx.settings).block (own ++ after)) ::
        ctx.itemsFrom (.ofSettings ctx.settings) first file
          (id + (ctx.itemsFrom (.ofSettings ctx.settings) first file id 1 before).length + 1)
          (1 + before.length + 1 + own.length) after := by
  rw [items, hf]
  simp only []
  rw [h.lines_eq, itemsFrom_around h.marker_eq fun l hl =>
    marker?_eq_none_of_continues (h.own_continues l hl)]

theorem endsOutside_note (hn : '\n' ∉ note ∧ '\r' ∉ note) :
    Text.EndsOutside Line.isEol note :=
  Text.endsOutside_of_forall (Line.forall_isEol_iff.2 hn)

/-- The lines after an edit. -/
def editedLines (g : Grammar) (note : Text) (lines before : List Text) (marker : Text)
    (own after : List Text) : List Text :=
  before ++ g.annotate note (terminatorFor lines marker) marker own ++ after

theorem body_of_mem_addedTexts (hn : '\n' ∉ note ∧ '\r' ∉ note) {t : Text}
    (ht : t ∈ addedTexts note marker) : Line.body t = t := by
  rw [addedTexts] at ht
  split at ht
  · exact absurd ht List.not_mem_nil
  · next hne =>
    rw [List.mem_singleton.1 ht, Line.body,
      Text.dropEnd_eq_self (Text.endsOutside_append hne (endsOutside_note hn))]

theorem map_body_addedTexts (hn : '\n' ∉ note ∧ '\r' ∉ note) :
    (addedTexts note marker).map Line.body = addedTexts note marker :=
  (List.map_congr_left fun _ ht => body_of_mem_addedTexts hn ht).trans (List.map_id' _)

/-- The lines after an edit have the texts of the lines that were kept, and of the note. -/
theorem map_body_editedLines (g : Grammar) (hn : '\n' ∉ note ∧ '\r' ∉ note)
    (lines before : List Text) (marker : Text) (own after : List Text) :
    (editedLines g note lines before marker own after).map Line.body =
      (before ++ marker :: (g.keptLines own ++ addedTexts note marker ++ after)).map
        Line.body := by
  rw [editedLines, List.map_append, List.map_append,
    Grammar.map_body_annotate (fun c => Grammar.isEol_of_mem_terminatorFor) (endsOutside_note hn)]
  simp [map_body_addedTexts hn]

/-- The items of edited lines, if these are again the lines of a text. -/
theorem items_of_isCut (file : Text) (hf : ctx.settings.firstColumn? = some first)
    (hcut : Line.IsCut (editedLines (.ofSettings ctx.settings) note (Line.split text) before marker
      own after)) (hn : '\n' ∉ note ∧ '\r' ∉ note)
    (h : CommentAt (.ofSettings ctx.settings) opener (Line.split text) number before marker own
      after m)
    (ha : ∀ t ∈ addedTexts note marker, (Grammar.ofSettings ctx.settings).marker? t = none)
    (id : Int) :
    ctx.items file id (editedLines (.ofSettings ctx.settings) note (Line.split text) before
        marker own after).flatten =
      ctx.itemsFrom (.ofSettings ctx.settings) first file id 1 before ++
        ctx.item first file
          (id + (ctx.itemsFrom (.ofSettings ctx.settings) first file id 1 before).length)
          (1 + before.length) m ((Grammar.ofSettings ctx.settings).block
            ((Grammar.ofSettings ctx.settings).keptLines own ++ addedTexts note marker ++
              after)) ::
        ctx.itemsFrom (.ofSettings ctx.settings) first file
          (id + (ctx.itemsFrom (.ofSettings ctx.settings) first file id 1 before).length + 1)
          (1 + before.length + 1 +
            ((Grammar.ofSettings ctx.settings).keptLines own ++ addedTexts note marker).length)
          after := by
  -- the new lines of the comment open no item, so the items are found around them
  have hmid : ∀ l ∈ (Grammar.ofSettings ctx.settings).keptLines own ++ addedTexts note marker,
      (Grammar.ofSettings ctx.settings).marker? (Line.body l) = none := by
    intro l hl
    rcases List.mem_append.1 hl with hl | hl
    · exact marker?_eq_none_of_continues (h.own_continues l (List.mem_of_mem_filter hl))
    · refine ha _ ?_
      rw [← map_body_addedTexts hn]
      exact List.mem_map_of_mem hl
  rw [items, hf]
  simp only []
  rw [Line.split_flatten hcut, itemsFrom_congr (map_body_editedLines _ hn ..),
    itemsFrom_around h.marker_eq hmid]

/-- The items of a text after an edit. -/
theorem items_edited (file : Text) (hf : ctx.settings.firstColumn? = some first)
    (hcr : text.getLast? ≠ some '\r') (hn : '\n' ∉ note ∧ '\r' ∉ note)
    (h : CommentAt (.ofSettings ctx.settings) opener (Line.split text) number before marker own
      after m)
    (ha : ∀ t ∈ addedTexts note marker, (Grammar.ofSettings ctx.settings).marker? t = none)
    (id : Int) :
    ctx.items file id (editedLines (.ofSettings ctx.settings) note (Line.split text) before
        marker own after).flatten =
      ctx.itemsFrom (.ofSettings ctx.settings) first file id 1 before ++
        ctx.item first file
          (id + (ctx.itemsFrom (.ofSettings ctx.settings) first file id 1 before).length)
          (1 + before.length) m ((Grammar.ofSettings ctx.settings).block
            ((Grammar.ofSettings ctx.settings).keptLines own ++ addedTexts note marker ++
              after)) ::
        (ctx.itemsFrom (.ofSettings ctx.settings) first file
          (id + (ctx.itemsFrom (.ofSettings ctx.settings) first file id 1 before).length + 1)
          (1 + before.length + 1 + own.length) after).map
            (Item.lower · ((editedLines (.ofSettings ctx.settings) note (Line.split text) before
              marker own after).length - (Line.split text).length)) := by
  set g := Grammar.ofSettings ctx.settings with hg
  have hlength : ((editedLines g note (Line.split text) before marker own after).length : Int) -
      (Line.split text).length =
        ((1 + before.length + 1 + (g.keptLines own ++ addedTexts note marker).length : Nat) : Int)
          - (1 + before.length + 1 + own.length : Nat) := by
    rw [h.lines_eq, editedLines, List.length_append, List.length_append, Grammar.length_annotate]
    simp only [List.length_append, List.length_cons]
    omega
  rw [hg, items_of_isCut file hf (Grammar.isCut_edited hcr hn.1 h) hn h ha id, ← hg, hlength]
  congr 2
  exact itemsFrom_lower ..

/-- The lines of the edited item. -/
theorem block_drop_editedLines (hcr : text.getLast? ≠ some '\r')
    (hn : '\n' ∉ note ∧ '\r' ∉ note)
    (h : CommentAt g opener (Line.split text) number before marker own after m) :
    g.block ((Line.split (editedLines g note (Line.split text) before marker own after).flatten).drop
        number.toNat) =
      g.block (g.keptLines own ++ addedTexts note marker ++ after) := by
  refine Grammar.block_congr ?_
  rw [editedLines, Line.split_flatten (Grammar.isCut_edited hcr hn.1 h), ← editedLines,
    List.map_drop, map_body_editedLines g hn, ← List.map_drop, List.append_cons, h.next_eq,
    List.drop_left]

/-- Editing one comment leaves every other item as it is; the items below it keep their distance
from the end of the text. The edited item stays the item of its marker. -/
theorem items_edit_frame (hcol : ctx.settings.columns ≠ []) (hcr : text.getLast? ≠ some '\r')
    (hn : '\n' ∉ note ∧ '\r' ∉ note)
    (ha : note ≠ [] → ∀ line, (Line.split text)[(number - 1).toNat]? = some line →
      (Grammar.ofSettings ctx.settings).marker? (Grammar.indent line ++ note) = none)
    {expected : Option (Text × Text)} {new : List Text}
    (h : (Grammar.ofSettings ctx.settings).edit opener note expected number (Line.split text) =
      .ok new) (id : Int) :
    ∃ above edited edited' below,
      ctx.items file id text = above ++ edited :: below ∧
      ctx.items file id new.flatten = above ++ edited' ::
        below.map (Item.lower · (new.length - (Line.split text).length)) ∧
      edited.line = number ∧ edited'.line = number ∧ edited'.id = edited.id ∧
      edited'.keyword = edited.keyword ∧ edited'.title = edited.title ∧
      (∀ i ∈ above, i.line < number) ∧ ∀ i ∈ below, number < i.line := by
  obtain ⟨first, hf⟩ : ∃ first, ctx.settings.firstColumn? = some first := by
    rw [Settings.firstColumn?]
    exact ⟨_, List.head?_eq_some_head hcol⟩
  obtain ⟨before, marker, own, after, m, hc, -, rfl⟩ := Grammar.edit_eq_ok_iff.1 h
  -- the one line that the edit adds is no marker
  have hline : (Line.split text)[(number - 1).toNat]? = some marker := by
    rw [hc.number_eq, hc.lines_eq, Int.add_sub_cancel, Int.toNat_natCast]
    simp
  have hadded : ∀ t ∈ addedTexts note marker,
      (Grammar.ofSettings ctx.settings).marker? t = none := by
    intro t ht
    rw [addedTexts] at ht
    split at ht
    · simp at ht
    · next hne =>
      rw [List.mem_singleton.1 ht]
      exact ha hne marker hline
  refine ⟨_, _, _, _, items_of_commentAt hf hc id, items_edited file hf hcr hn hc hadded id,
    ?_, ?_, ?_, ?_, ?_, ?_, ?_⟩
  · rw [item_line, hc.number_eq]
    omega
  · rw [item_line, hc.number_eq]
    omega
  · rw [item_id, item_id]
  · rw [item_keyword, item_keyword]
  · rw [item_title, item_title]
  · intro i hi
    have := (line_of_mem_itemsFrom hi).2
    rw [hc.number_eq]
    omega
  · intro i hi
    have := (line_of_mem_itemsFrom hi).1
    rw [hc.number_eq]
    omega

/-! ## An edit in a markup file -/

/-- A board with one column for markers and two for notes. -/
def sampleBoard : Settings where
  columns := [⟨"todo".toList, "TODO".toList, [], some "TODO|FIXME".toList⟩,
    ⟨"doing".toList, "DOING".toList, [], none⟩, ⟨"done".toList, "DONE".toList, [], none⟩]
  labels := ⟨"LOW".toList, "MEDIUM".toList, "HIGH".toList⟩
  exclusions := ⟨[], []⟩
  extra := []

/-- A scan with the sample board. -/
def sampleScan : ScanContext := ⟨sampleBoard, "ann".toList, Moment.first⟩

/-- Markup with three items. The comment of the second one goes on after the line of a paragraph,
where a scan lets the item end. -/
def sampleMarkup : Text :=
  "<!--TODO: a-->\n<!--TODO: b-->\n<p><!--c-->\n<!--DONE-->\n<!--DOING-->\n//FIXME: d".toList

/-- The sample markup after the second item has been put into another column. -/
def sampleMarkupEdited : List Text :=
  ["<!--TODO: a-->\n", "<!--TODO: b-->\n", "<p><!--c-->\n", "<!-- DOING -->\n",
    "//FIXME: d"].map String.toList

set_option maxRecDepth 2000 in
theorem items_edit_frame_sampleMarkup :
    (Grammar.ofSettings sampleBoard).edit Comment.markupOpener
        "<!-- DOING -->".toList (some ("TODO".toList, "b".toList)) 2
        (Line.split sampleMarkup) = .ok sampleMarkupEdited ∧
      ∃ above edited edited' below,
        sampleScan.items "a.html".toList 1 sampleMarkup = above ++ edited :: below ∧
        sampleScan.items "a.html".toList 1 sampleMarkupEdited.flatten = above ++ edited' ::
          below.map (Item.lower ·
            (sampleMarkupEdited.length - (Line.split sampleMarkup).length)) ∧
        edited.line = 2 ∧ edited'.line = 2 ∧ edited'.id = edited.id ∧
        edited'.keyword = edited.keyword ∧ edited'.title = edited.title ∧
        (∀ i ∈ above, i.line < 2) ∧ ∀ i ∈ below, 2 < i.line := by
  have h : (Grammar.ofSettings sampleBoard).edit Comment.markupOpener
      "<!-- DOING -->".toList (some ("TODO".toList, "b".toList)) 2
      (Line.split sampleMarkup) = .ok sampleMarkupEdited := by cbv
  refine ⟨h, items_edit_frame (show sampleScan.settings.columns ≠ [] by decide) (by decide)
    (by decide) ?_ h 1⟩
  intro _ line hline
  have : line = "<!--TODO: b-->\n".toList := by
    rw [show (Line.split sampleMarkup)[((2 : Int) - 1).toNat]? =
      some "<!--TODO: b-->\n".toList by decide] at hline
    exact (Option.some.inj hline).symm
  subst this
  cbv

end MarkerBoard.ScanContext
