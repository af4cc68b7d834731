import MarkerBoard.Move
import MarkerBoard.Proofs.Block.Frame
import MarkerBoard.Proofs.Grammar.Note
import MarkerBoard.Proofs.Keyed

/-!
# What a scan reads after a move

In a file whose comments are all in its own syntax, a move and a scan agree on where a comment
ends. A move removes all notes of a comment, since they are status lines, so the note that it
writes is the only one that the next scan finds there.

Main results:

* `Grammar.CommentAt.block_edited` — the lines that a scan gives to an item after an edit.
* `ScanContext.item_of_note`, `ScanContext.item_of_no_note` — status and history of an item whose
  comment has one new note, or none.
* `Item.reread_movedLines` — what a scan reads at the marker of a moved item.
-/
namespace MarkerBoard

/-- The note on a line of an item. -/
def BlockLine.note? : BlockLine → Option NoteLine
  | .note a => some a
  | _ => none

namespace Grammar

variable {g : Grammar} {opener : Text} {lines before own after : List Text} {number : Int}
  {marker : Text} {m : MarkerLine}

/-- The comments in the file's own syntax are all the comment lines there are. -/
def OwnSyntax (opener : Text) (lines : List Text) : Prop :=
  ∀ line ∈ lines, Comment.isOwn opener (Line.body line) = (description? (Line.body line)).isSome

/-- Then a move and a scan agree on the lines that belong to an item. -/
theorem continues_eq {line : Text} (h : Comment.isOwn opener (Line.body line) =
    (description? (Line.body line)).isSome) :
    g.continues opener line = (g.blockLine? line).isSome := by
  rw [continues, isSome_blockLine?, h]

theorem block_append_of_isSome {rest : List Text} (h : ∀ l ∈ lines, (g.blockLine? l).isSome) :
    g.block (lines ++ rest) = lines.filterMap g.blockLine? ++ g.block rest := by
  induction lines with
  | nil => rfl
  | cons line lines ih =>
    obtain ⟨b, hb⟩ := Option.isSome_iff_exists.1 (h line List.mem_cons_self)
    rw [List.cons_append, block, hb, ih fun l hl => h l (List.mem_cons_of_mem _ hl),
      List.filterMap_cons_some hb]
    rfl

namespace CommentAt

theorem mem_own (h : g.CommentAt opener lines number before marker own after m) {l : Text}
    (hl : l ∈ own) : l ∈ lines := by
  rw [h.lines_eq]
  simp [hl]

/-- A scan stops where a move stops. -/
theorem block_after (h : g.CommentAt opener lines number before marker own after m)
    (ho : OwnSyntax opener lines) : g.block after = [] := by
  cases after with
  | nil => rfl
  | cons l after =>
    have hl : l ∈ lines := by
      rw [h.lines_eq]
      simp
    have hnone := h.after_ends l rfl
    rw [continues_eq (ho l hl), Option.isSome_eq_false_iff, Option.isNone_iff_eq_none] at hnone
    rw [block, hnone]

theorem isSome_blockLine?_own (h : g.CommentAt opener lines number before marker own after m)
    (ho : OwnSyntax opener lines) : ∀ l ∈ own, (g.blockLine? l).isSome := by
  intro l hl
  rw [← continues_eq (ho l (h.mem_own hl))]
  exact h.own_continues l hl

/-- The lines of an item after an edit: those that were kept, and the new ones. -/
theorem block_edited (h : g.CommentAt opener lines number before marker own after m)
    (ho : OwnSyntax opener lines) {added : List Text}
    (ha : ∀ t ∈ added, (g.blockLine? t).isSome) :
    g.block (g.keptLines own ++ added ++ after) =
      (g.keptLines own).filterMap g.blockLine? ++ added.filterMap g.blockLine? := by
  have hkept : ∀ l ∈ g.keptLines own, (g.blockLine? l).isSome := fun l hl =>
    h.isSome_blockLine?_own ho l (List.mem_of_mem_filter hl)
  rw [List.append_assoc, block_append_of_isSome hkept, block_append_of_isSome ha,
    h.block_after ho, List.append_nil]

end CommentAt

/-- No note is kept. -/
theorem note?_kept (own : List Text) :
    ((g.keptLines own).filterMap g.blockLine?).filterMap BlockLine.note? = [] := by
  rw [List.filterMap_eq_nil_iff]
  intro b hb
  obtain ⟨l, hl, hlb⟩ := List.mem_filterMap.1 hb
  have hstatus : g.isStatusLine l = false := by simpa using (List.mem_filter.1 hl).2
  cases b with
  | note a => exact absurd hlb (blockLine?_ne_note hstatus a)
  | priority label => rfl
  | description text => rfl

/-- After an edit without a note, the item has none. -/
theorem CommentAt.note?_stripped (h : g.CommentAt opener lines number before marker own after m)
    (ho : OwnSyntax opener lines) :
    (g.block (g.keptLines own ++ addedTexts [] marker ++ after)).filterMap BlockLine.note? = [] := by
  have hnone : addedTexts [] marker = [] := if_pos rfl
  rw [hnone, h.block_edited ho (by simp), List.filterMap_append, note?_kept]
  rfl

end Grammar

namespace ScanContext

variable {ctx : ScanContext} {first : Column} {file : Text}

/-- Transitions come from notes. -/
theorem transition?_eq_bind (b : BlockLine) : ctx.transition? b =
    b.note?.bind fun a => ctx.transition? (.note a) := by
  cases b <;> rfl

theorem filterMap_transition? (block : List BlockLine) : block.filterMap ctx.transition? =
    (block.filterMap BlockLine.note?).filterMap fun a => ctx.transition? (.note a) := by
  rw [List.filterMap_filterMap]
  exact List.filterMap_congr fun b _ => transition?_eq_bind b

/-- An item whose lines have a single note. -/
theorem item_of_note {block : List BlockLine} {a : NoteLine} {t : Transition}
    (h : block.filterMap BlockLine.note? = [a]) (ht : ctx.transition? (.note a) = some t)
    (id : Int) (n : Nat) (m : MarkerLine) :
    (ctx.item first file id n m block).status = t.status ∧
      (ctx.item first file id n m block).history = [t] := by
  have hrecorded : block.filterMap ctx.transition? = [t] := by
    rw [filterMap_transition?, h]
    simp [ht]
  simp [item, hrecorded]

/-- An item whose lines have no note is new. -/
theorem item_of_no_note {block : List BlockLine} (h : block.filterMap BlockLine.note? = [])
    (id : Int) (n : Nat) (m : MarkerLine) :
    (ctx.item first file id n m block).status = first.id ∧
      (ctx.item first file id n m block).history = [⟨first.id, ctx.now, ctx.user⟩] := by
  have hrecorded : block.filterMap ctx.transition? = [] := by
    rw [filterMap_transition?, h, List.filterMap_nil]
  simp [item, hrecorded]

end ScanContext

/-! ## Written notes -/

namespace Comment

theorem openerFor_mem (file : Text) : openerFor file ∈ openers := by
  rw [openerFor]
  cases h : Keyed.get? ((Path.ofText file).suffix.map lowerSuffixChar) suffixOpeners with
  | none =>
    rw [Option.getD_none]
    decide
  | some opener =>
    have hall : ∀ e ∈ suffixOpeners, e.2 ∈ openers := by decide
    exact hall _ (Keyed.mem_of_get? h)

theorem Signer.isEol_of_mem {user : Text} (hu : Signer user) : ∀ c ∈ user, Line.isEol c = false :=
  Line.forall_isEol_iff.2 ⟨hu.not_lf, hu.not_cr⟩

/-- A written note has no end of a line in it. -/
theorem isEol_of_mem_note {opener name user : Text} (time : Moment) (ho : opener ∈ openers)
    (hn : ∀ c ∈ name, Line.isEol c = false) (hu : ∀ c ∈ user, Line.isEol c = false) :
    ∀ c ∈ note opener name time user, Line.isEol c = false := by
  have hopener : ∀ c ∈ opener, Line.isEol c = false := by
    simp only [openers, List.mem_cons, List.not_mem_nil, or_false] at ho
    rcases ho with rfl | rfl | rfl | rfl <;> decide
  have hclose : ∀ c ∈ closeOf opener, Line.isEol c = false := by
    rw [closeOf]
    split <;> decide
  rw [note_eq]
  simp only [List.forall_mem_append, List.forall_mem_cons]
  exact ⟨hopener, by decide, hn, by decide, time.isEol_of_mem_toMinuteText,
    ⟨by decide, by decide, by decide, by decide, by simp⟩, hu, hclose⟩

end Comment

namespace Grammar

variable {g : Grammar} {opener name user indent : Text} {time : Moment}

theorem Plain.isEol_of_mem_name (hg : g.Plain) (hn : name ∈ g.names) :
    ∀ c ∈ name, Line.isEol c = false :=
  Line.forall_isEol_iff.2 ⟨hg.name_lf name hn, hg.name_cr name hn⟩

theorem body_indent_note (time : Moment) (ho : opener ∈ Comment.openers)
    (hn : ∀ c ∈ name, Line.isEol c = false) (hu : Comment.Signer user) (indent : Text) :
    Line.body (indent ++ Comment.note opener name time user) =
      indent ++ Comment.note opener name time user :=
  Text.dropEnd_eq_self (Text.endsOutside_append (Comment.note_ne_nil _ _ _ _)
    (Text.endsOutside_of_forall (Comment.isEol_of_mem_note time ho hn hu.isEol_of_mem)))

/-- A written note adds itself to the item above it. -/
theorem blockLine?_note (hg : g.Plain) (hn : name ∈ g.names) (ho : opener ∈ Comment.openers)
    (hi : ∀ c ∈ indent, Text.isBlank c = true) (hm : 1000 ≤ time.year)
    (hu : Comment.Signer user) :
    ∃ close, g.blockLine? (indent ++ Comment.note opener name time user) =
      some (.note ⟨opener, name, time.toMinuteText, Text.trim user, close⟩) := by
  obtain ⟨close, hclose⟩ := note?_note hg hn ho hi hm hu
  have hbody := body_indent_note time ho (hg.isEol_of_mem_name hn) hu indent
  refine ⟨close, blockLine?_of_note? ?_ ?_⟩
  · rw [hbody]
    exact marker?_note hg hn ho hi time user
  · rw [hbody]
    exact hclose

end Grammar

/-! ## Moved items -/

namespace Settings

variable {s : Settings} {c : Column}

theorem mem_of_columnNamed? (h : s.columnNamed? c.name = some c) : c ∈ s.columns :=
  List.mem_of_find?_eq_some h

theorem mem_names (h : c ∈ s.columns) (hk : c.isKeywordEntered = false) :
    c.name ∈ (Grammar.ofSettings s).names :=
  List.mem_map_of_mem (List.mem_filter.2 ⟨h, by rw [hk]; rfl⟩)

theorem exists_firstColumn? (h : c ∈ s.columns) : ∃ first, s.firstColumn? = some first :=
  ⟨_, List.head?_eq_some_head (List.ne_nil_of_mem h)⟩

end Settings

namespace Grammar

variable {s : Settings} {c : Column} {opener user : Text} {time : Moment} {lines before own after :
  List Text} {number : Int} {marker : Text} {m : MarkerLine}

theorem isBlank_of_mem_indent (marker : Text) : ∀ c ∈ indent marker, Text.isBlank c = true :=
  fun _ hc => List.mem_takeWhile_imp hc

/-- After a move to a column without a keyword, the new note is the only one of the comment. -/
theorem CommentAt.note?_edited
    (h : (ofSettings s).CommentAt opener lines number before marker own after m)
    (hs : (ofSettings s).Plain) (ho : opener ∈ Comment.openers) (hown : OwnSyntax opener lines)
    (hn : c.name ∈ (ofSettings s).names) (hm : 1000 ≤ time.year) (hu : Comment.Signer user) :
    ∃ close, ((ofSettings s).block ((ofSettings s).keptLines own ++
        addedTexts (Comment.note opener c.name time user) marker ++ after)).filterMap
          BlockLine.note? =
      [⟨opener, c.name, time.toMinuteText, Text.trim user, close⟩] := by
  obtain ⟨close, hline⟩ := blockLine?_note hs hn ho (isBlank_of_mem_indent marker) hm hu
  have hadded : addedTexts (Comment.note opener c.name time user) marker =
      [indent marker ++ Comment.note opener c.name time user] :=
    if_neg (Comment.note_ne_nil _ _ _ _)
  refine ⟨close, ?_⟩
  rw [hadded, h.block_edited hown fun t ht => by rw [List.mem_singleton.1 ht, hline]; rfl,
    List.filterMap_append, note?_kept, List.filterMap_cons_some hline]
  rfl

end Grammar

namespace ScanContext

/-- A scan reads the transition that a note records to the minute. -/
theorem transition?_note {ctx : ScanContext} {c : Column} {time : Moment} {opener user : Text}
    (hc : ctx.settings.columnNamed? c.name = some c) (hm : 1000 ≤ time.year)
    (close : Option Text) :
    ctx.transition? (.note ⟨opener, c.name, time.toMinuteText, Text.trim user, close⟩) =
      some ⟨c.id, time.toMinute, Text.trim user⟩ := by
  rw [transition?, Moment.ofMinuteText?_toMinuteText hm, Settings.statusNamed, hc]
  exact congrArg (fun u => some (Transition.mk c.id time.toMinute u))
    (Text.dropEnds_dropEnds Text.isBlank user)

end ScanContext
end MarkerBoard
