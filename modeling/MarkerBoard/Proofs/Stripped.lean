import MarkerBoard.Proofs.Block.Marker
import MarkerBoard.Proofs.Move
import MarkerBoard.Proofs.Text.Pieces

/-!
# What a move leaves of an item

A move takes the status lines out of a comment. All other lines stay, and a note adds neither to
the description nor to the priority. So of these the item loses what the status lines have given
to it, and nothing else.

A status line only has to begin with a keyword or with the name of a column. So it may well be a
sentence of the description, or a priority.

Main results:

* `Grammar.exists_block_eq` — the lines of an item before and after an edit.
* `Item.reread_left` — description and priority of the item that is read from the new lines.
* `Action.reread_stripped` — the same after a move, and when they are those before the move.
-/
namespace MarkerBoard

/-! ## The lines of an item -/

namespace Grammar

variable {g : Grammar} {opener : Text} {lines before own after added : List Text} {number : Int}
  {marker : Text} {m : MarkerLine}

/-- The lines at the start of a comment that a scan gives to its item. -/
def readLines (g : Grammar) (own : List Text) : List Text :=
  own.takeWhile fun l => (g.blockLine? l).isSome

/-- The lines that an item loses: the status lines of its comment, as far as a scan reads them. -/
def strippedLines (g : Grammar) (opener : Text) (lines : List Text) (number : Int) : List Text :=
  (g.readLines (g.ownLines opener (lines.drop number.toNat))).filter g.isStatusLine

/-- What is left of the lines after a marker without the status lines of its comment. -/
def leftLines (g : Grammar) (opener : Text) (lines : List Text) (number : Int) : List Text :=
  let rest := lines.drop number.toNat
  g.keptLines (g.ownLines opener rest) ++ rest.dropWhile (g.continues opener)

/-- The marker at a line number and the lines of its comment that are no status lines. -/
def keptComment (g : Grammar) (opener : Text) (lines : List Text) (number : Int) : List Text :=
  lines[(number - 1).toNat]?.toList ++ g.keptLines (g.ownLines opener (lines.drop number.toNat))

/-- A scan reads a note that an edit writes: it stands on a line of its own, which is a note. -/
structure ReadsNote (g : Grammar) (opener : Text) (lines : List Text) (number : Int) (note : Text) :
    Prop where
  oneLine : '\n' ∉ note ∧ '\r' ∉ note
  isNote : ∃ a, g.blockLine? note = some (.note a)
  ended : ∀ l ∈ g.keptComment opener lines number, l.getLast? ≠ some '\r'

namespace CommentAt

variable (h : g.CommentAt opener lines number before marker own after m)
include h

theorem strippedLines_eq : g.strippedLines opener lines number =
    (g.readLines own).filter g.isStatusLine := by
  rw [strippedLines, h.drop_eq, h.ownLines_eq]

theorem leftLines_eq : g.leftLines opener lines number = g.keptLines own ++ after := by
  rw [leftLines, h.drop_eq, h.ownLines_eq, h.dropWhile_eq]

theorem keptComment_eq : g.keptComment opener lines number = marker :: g.keptLines own := by
  rw [keptComment, h.getElem?_eq, h.drop_eq, h.ownLines_eq]
  rfl

end CommentAt

/-- A status line of a comment belongs to the item. -/
theorem isSome_blockLine?_of_isStatusLine {l : Text} (hl : g.continues opener l = true)
    (h : g.isStatusLine l = true) : (g.blockLine? l).isSome := by
  rw [continues, Bool.and_eq_true] at hl
  rw [isSome_blockLine?, (isSome_statusLine?_iff.1 h).isSome_description?, hl.2]
  rfl

theorem isSome_blockLine?_of_mem_readLines {l : Text} (h : l ∈ g.readLines own) :
    (g.blockLine? l).isSome = true := by
  rw [readLines] at h
  exact List.mem_takeWhile_imp (p := fun l => (g.blockLine? l).isSome) h

theorem isSome_blockLine?_of_mem_keptLines {l : Text} (h : l ∈ g.keptLines (g.readLines own)) :
    (g.blockLine? l).isSome = true :=
  isSome_blockLine?_of_mem_readLines (List.mem_of_mem_filter h)

/-- An item has all lines of its comment, or ends at one of them. -/
theorem readLines_eq_self_or (g : Grammar) (own : List Text) : g.readLines own = own ∨
    ∃ x tail, own = g.readLines own ++ x :: tail ∧ g.blockLine? x = none := by
  have hsplit : own = g.readLines own ++ own.dropWhile fun l => (g.blockLine? l).isSome :=
    (List.takeWhile_append_dropWhile).symm
  cases htail : own.dropWhile fun l => (g.blockLine? l).isSome with
  | nil =>
    rw [htail, List.append_nil] at hsplit
    exact .inl hsplit.symm
  | cons x tail =>
    have hx := List.head?_dropWhile_not (fun l => (g.blockLine? l).isSome) own
    rw [htail] at hsplit hx
    exact .inr ⟨x, tail, hsplit, by simpa using hx⟩

/-- The lines of an item before an edit, without its status lines, and after it. They begin with
what the item has of its comment, and end in the same lines. -/
theorem exists_block_eq (hown : ∀ l ∈ own, g.continues opener l = true)
    (hadded : ∀ t ∈ added, ∃ a, g.blockLine? t = some (.note a)) (after : List Text) :
    ∃ back notes, (∀ b ∈ notes, ∃ a, b = .note a) ∧
      g.block (own ++ after) = (g.readLines own).filterMap g.blockLine? ++ back ∧
      g.block (g.keptLines own ++ after) =
        (g.keptLines (g.readLines own)).filterMap g.blockLine? ++ back ∧
      g.block (g.keptLines own ++ added ++ after) =
        (g.keptLines (g.readLines own)).filterMap g.blockLine? ++ (notes ++ back) := by
  have hread : ∀ l ∈ g.readLines own, (g.blockLine? l).isSome = true := fun _ =>
    isSome_blockLine?_of_mem_readLines
  have hkept : ∀ l ∈ g.keptLines (g.readLines own), (g.blockLine? l).isSome = true := fun _ =>
    isSome_blockLine?_of_mem_keptLines
  rcases g.readLines_eq_self_or own with hall | ⟨x, tail, hsplit, hx⟩
  · -- the item has all lines of the comment, and may go on
    rw [hall] at hread hkept ⊢
    have hnotes : ∀ t ∈ added, (g.blockLine? t).isSome := by
      intro t ht
      obtain ⟨a, ha⟩ := hadded t ht
      rw [ha]
      rfl
    refine ⟨g.block after, added.filterMap g.blockLine?, ?_, ?_, ?_, ?_⟩
    · intro b hb
      obtain ⟨t, ht, htb⟩ := List.mem_filterMap.1 hb
      obtain ⟨a, ha⟩ := hadded t ht
      exact ⟨a, Option.some.inj (htb.symm.trans ha)⟩
    · exact block_append_of_isSome hread
    · exact block_append_of_isSome hkept
    · rw [List.append_assoc, block_append_of_isSome hkept, block_append_of_isSome hnotes]
  · -- the item ends at a line of the comment, which is no status line and stays
    have hstatus : g.isStatusLine x = false := by
      by_contra hne
      rw [Bool.not_eq_false] at hne
      have hmem : x ∈ own := by
        rw [hsplit]
        simp
      have hsome := isSome_blockLine?_of_isStatusLine (hown x hmem) hne
      rw [hx] at hsome
      cases hsome
    have hend : ∀ rest, g.block (x :: rest) = [] := fun rest => by rw [block, hx]
    generalize g.readLines own = front at *
    have hkeptOwn : g.keptLines own = g.keptLines front ++ x :: g.keptLines tail := by
      rw [hsplit, keptLines, List.filter_append, List.filter_cons_of_pos (by simp [hstatus])]
      rfl
    refine ⟨[], [], by simp, ?_, ?_, ?_⟩
    · rw [hsplit, List.append_assoc, block_append_of_isSome hread, List.cons_append, hend]
    · rw [hkeptOwn, List.append_assoc, block_append_of_isSome hkept, List.cons_append, hend]
    · rw [hkeptOwn, List.append_assoc, List.append_assoc, block_append_of_isSome hkept,
        List.cons_append, hend]
      rfl

/-! ## Written notes -/

/-- What a line adds to an item does not depend on its indentation. -/
theorem blockLine?_blank_append {indent note : Text} (hi : ∀ c ∈ indent, Text.isBlank c = true)
    (hne : note ≠ []) (hn : '\n' ∉ note ∧ '\r' ∉ note) :
    g.blockLine? (indent ++ note) = g.blockLine? note := by
  have hend := ScanContext.endsOutside_note hn
  have hbody : Line.body (indent ++ note) = indent ++ note :=
    Text.dropEnd_eq_self (Text.endsOutside_append hne hend)
  have hbody' : Line.body note = note := Text.dropEnd_eq_self hend
  simp only [blockLine?, hbody, hbody', marker?, note?, priority?, description?,
    opening?_blank_append hi]

section Added

variable {note : Text} (h : note ≠ [] → g.ReadsNote opener lines number note)
include h

/-- What an edit adds stands on a line of its own. -/
theorem oneLine_of_readsNote : '\n' ∉ note ∧ '\r' ∉ note := by
  by_cases hne : note = []
  · simp [hne]
  · exact (h hne).oneLine

/-- What an edit adds is read as a note. -/
theorem isNote_of_mem_addedTexts {t : Text} (ht : t ∈ addedTexts note marker) :
    ∃ a, g.blockLine? t = some (.note a) := by
  rw [addedTexts] at ht
  split at ht
  · exact absurd ht List.not_mem_nil
  · next hne =>
    rw [List.mem_singleton.1 ht,
      blockLine?_blank_append (isBlank_of_mem_indent marker) hne (oneLine_of_readsNote h)]
    exact (h hne).isNote

/-- So it is no marker. -/
theorem marker?_of_mem_addedTexts {t : Text} (ht : t ∈ addedTexts note marker) :
    g.marker? t = none := by
  obtain ⟨a, ha⟩ := isNote_of_mem_addedTexts h ht
  have hsome : (g.blockLine? t).isSome := by
    rw [ha]
    rfl
  rw [isSome_blockLine?, ScanContext.body_of_mem_addedTexts (oneLine_of_readsNote h) ht,
    Bool.and_eq_true] at hsome
  simpa using hsome.2

end Added

/-- An edit at the marker gives the lines of a text again. -/
theorem CommentAt.isCut_edited_of_readsNote {text note : Text}
    (h : g.CommentAt opener (Line.split text) number before marker own after m)
    (hnote : note ≠ [] → g.ReadsNote opener (Line.split text) number note) :
    Line.IsCut (before ++ g.annotate note (terminatorFor (Line.split text) marker) marker own ++
      after) := by
  refine isCut_edited_of_kept (oneLine_of_readsNote hnote).1 h fun hne k hk =>
    (hnote hne).ended k ?_
  rw [h.keptComment_eq]
  exact hk

end Grammar

/-! ## Description and priority -/

/-- Nothing is lost by a filter if and only if what it takes away adds nothing. -/
theorem filterMap_filter_eq_iff {α β : Type} {f : α → Option β} {p : α → Bool} {l : List α} :
    (l.filter fun a => !p a).filterMap f = l.filterMap f ↔ ∀ a ∈ l.filter p, f a = none := by
  induction l with
  | nil => simp
  | cons a l ih =>
    cases hp : p a with
    | false =>
      rw [List.filter_cons_of_pos (by simp [hp]), List.filter_cons_of_neg (by simp [hp]), ← ih,
        List.filterMap_cons, List.filterMap_cons]
      cases f a <;> simp
    | true =>
      rw [List.filter_cons_of_neg (by simp [hp]), List.filter_cons_of_pos hp,
        List.forall_mem_cons, ← ih]
      cases hf : f a with
      | none => simp [List.filterMap_cons_none hf]
      | some b =>
        -- the result is shorter than what has been there
        have hle := (((List.filter_sublist (p := fun a => !p a) (l := l))).filterMap f).length_le
        rw [List.filterMap_cons_some hf]
        simp only [reduceCtorEq, false_and, iff_false]
        intro he
        have := congrArg List.length he
        rw [List.length_cons] at this
        omega

namespace ScanContext

variable {ctx later : ScanContext} {g : Grammar} {first : Column} {file opener : Text}
  {own added : List Text}

/-- The description that lines give to an item. -/
def descriptionOf (ctx : ScanContext) (block : List BlockLine) : Text :=
  Text.join ['\n'] (block.filterMap ctx.descriptionText?)

/-- The priority that lines give to an item. -/
def priorityOf (ctx : ScanContext) (block : List BlockLine) : Priority :=
  (block.filterMap ctx.linePriority?).getLast?.getD .low

@[simp] theorem item_description (id : Int) (n : Nat) (m : MarkerLine) (block : List BlockLine) :
    (ctx.item first file id n m block).description = ctx.descriptionOf block := by
  obtain ⟨_, _, _, h⟩ := Item.exists_markDoneIn_eq _ ctx.settings.doneId?
  rw [item, h, descriptionOf]

@[simp] theorem item_priority (id : Int) (n : Nat) (m : MarkerLine) (block : List BlockLine) :
    (ctx.item first file id n m block).priority = ctx.priorityOf block := by
  obtain ⟨_, _, _, h⟩ := Item.exists_markDoneIn_eq _ ctx.settings.doneId?
  rw [item, h, priorityOf]

/-- What lines give depends on the settings alone. -/
theorem descriptionOf_congr (h : later.settings = ctx.settings) (block : List BlockLine) :
    later.descriptionOf block = ctx.descriptionOf block := by
  have htext : later.descriptionText? = ctx.descriptionText? := by
    funext b
    cases b <;> simp [descriptionText?, h]
  rw [descriptionOf, descriptionOf, htext]

theorem priorityOf_congr (h : later.settings = ctx.settings) (block : List BlockLine) :
    later.priorityOf block = ctx.priorityOf block := by
  have hpriority : later.linePriority? = ctx.linePriority? := by
    funext b
    cases b <;> simp [linePriority?, h]
  rw [priorityOf, priorityOf, hpriority]

theorem filterMap_notes {β : Type} {f : BlockLine → Option β} (hf : ∀ a, f (.note a) = none)
    {notes : List BlockLine} (hn : ∀ b ∈ notes, ∃ a, b = .note a) : notes.filterMap f = [] := by
  rw [List.filterMap_eq_nil_iff]
  intro b hb
  obtain ⟨a, rfl⟩ := hn b hb
  exact hf a

/-- What lines add to an item before and after an edit: without the status lines it is a part of
what it has been, and all of it if and only if these have added nothing. -/
theorem filterMap_block_edited {β : Type} {f : BlockLine → Option β} (hf : ∀ a, f (.note a) = none)
    (hown : ∀ l ∈ own, g.continues opener l = true)
    (hadded : ∀ t ∈ added, ∃ a, g.blockLine? t = some (.note a)) (after : List Text) :
    (g.block (g.keptLines own ++ added ++ after)).filterMap f =
        (g.block (g.keptLines own ++ after)).filterMap f ∧
      ((g.block (g.keptLines own ++ after)).filterMap f).Sublist
        ((g.block (own ++ after)).filterMap f) ∧
      ((g.block (g.keptLines own ++ after)).filterMap f = (g.block (own ++ after)).filterMap f ↔
        ∀ l ∈ (g.readLines own).filter g.isStatusLine, (g.blockLine? l).bind f = none) := by
  obtain ⟨back, notes, hnotes, hold, hleft, hnew⟩ := Grammar.exists_block_eq hown hadded after
  rw [hold, hleft, hnew]
  simp only [List.filterMap_append, filterMap_notes hf hnotes, List.nil_append, true_and,
    List.append_cancel_right_eq, List.filterMap_filterMap]
  exact ⟨(List.filter_sublist.filterMap _).append (List.Sublist.refl _), filterMap_filter_eq_iff⟩

theorem descriptionText?_ne_nil {b : BlockLine} {t : Text} (h : ctx.descriptionText? b = some t) :
    t ≠ [] := by
  rintro rfl
  cases b with
  | description text =>
    rw [descriptionText?] at h
    split at h
    · cases h
    · next hne =>
      rw [Option.some.inj h] at hne
      simp at hne
  | note a => cases h
  | priority label => cases h

/-- The item of a marker, as a scan reads it. -/
theorem exists_eq_item {i : Item} {id : Int} {text marker : Text} {before after : List Text}
    {m : MarkerLine} (hf : ctx.settings.firstColumn? = some first)
    (hat : (Grammar.ofSettings ctx.settings).CommentAt opener (Line.split text) i.line before marker
      own after m) (hi : i ∈ ctx.items file id text) :
    ∃ id', i = ctx.item first file id' (1 + before.length) m
      ((Grammar.ofSettings ctx.settings).block (own ++ after)) := by
  have hnumber := hat.number_eq
  rw [items_of_commentAt hf hat id, List.mem_append, List.mem_cons] at hi
  -- the items above it and below it are on other lines
  rcases hi with hi | hi | hi
  · have := (line_of_mem_itemsFrom hi).2
    omega
  · exact ⟨_, hi⟩
  · have := (line_of_mem_itemsFrom hi).1
    omega

end ScanContext

/-! ## Moved items -/

namespace Item

variable {i : Item} {s : Settings} {c : Column} {time : Moment} {user text : Text}
  {new : List Text} {ctx later : ScanContext}

/-- What a scan reads at the marker of a moved item. Description and priority are those of the old
lines without the status lines. The description is the old one if and only if no status line has
added to it, and the priority is if none has given one. -/
theorem reread_left (hctx : ctx.settings = s) {id : Int} (hi : i ∈ ctx.items i.file id text)
    (hc : c ∈ s.columns)
    (hnote : c.isKeywordEntered = false → (Grammar.ofSettings s).ReadsNote
      (Comment.openerFor i.file) (Line.split text) i.line
      (Comment.note (Comment.openerFor i.file) c.name time user))
    (h : i.movedLines s c time user (Line.split text) = .ok new) (hl : later.settings = s)
    (id' : Int) :
    ∃ j ∈ later.items i.file id' new.flatten, j.line = i.line ∧ j.keyword = i.keyword ∧
      j.title = i.title ∧
      j.description = later.descriptionOf ((Grammar.ofSettings s).block
        ((Grammar.ofSettings s).leftLines (Comment.openerFor i.file) (Line.split text) i.line)) ∧
      j.priority = later.priorityOf ((Grammar.ofSettings s).block
        ((Grammar.ofSettings s).leftLines (Comment.openerFor i.file) (Line.split text) i.line)) ∧
      (j.description = i.description ↔ ∀ l ∈ (Grammar.ofSettings s).strippedLines
        (Comment.openerFor i.file) (Line.split text) i.line,
          ((Grammar.ofSettings s).blockLine? l).bind later.descriptionText? = none) ∧
      ((∀ l ∈ (Grammar.ofSettings s).strippedLines (Comment.openerFor i.file) (Line.split text)
        i.line, ((Grammar.ofSettings s).blockLine? l).bind later.linePriority? = none) →
          j.priority = i.priority) := by
  subst hl
  obtain ⟨first, hf⟩ := Settings.exists_firstColumn? hc
  obtain ⟨before, marker, own, after, m, hat, hexp, rfl⟩ := Grammar.edit_eq_ok_iff.1 h
  obtain ⟨hkeyword, htitle⟩ := Prod.mk.inj (hexp _ rfl)
  set g := Grammar.ofSettings later.settings with hg
  set note := c.noteFor (Comment.openerFor i.file) time user with hnoteFor
  have hreads : note ≠ [] →
      g.ReadsNote (Comment.openerFor i.file) (Line.split text) i.line note := by
    intro hne
    cases hk : c.isKeywordEntered with
    | true => exact absurd (by rw [hnoteFor, Column.noteFor, hk]; rfl) hne
    | false =>
      rw [hnoteFor, Column.noteFor, hk]
      exact hnote hk
  have hadded : ∀ t ∈ Grammar.addedTexts note marker, ∃ a, g.blockLine? t = some (.note a) :=
    fun _ => Grammar.isNote_of_mem_addedTexts hreads
  -- the new lines are those of a text, and the item is found at its marker
  have hitems := ScanContext.items_of_isCut i.file hf (hat.isCut_edited_of_readsNote hreads)
    (Grammar.oneLine_of_readsNote hreads) hat
    (fun _ => Grammar.marker?_of_mem_addedTexts hreads) id'
  rw [ScanContext.editedLines] at hitems
  obtain ⟨id'', hold⟩ : ∃ id'',
      i = ctx.item first i.file id'' (1 + before.length) m (g.block (own ++ after)) := by
    rw [hg, ← hctx] at hat ⊢
    exact ScanContext.exists_eq_item (hctx ▸ hf) hat hi
  have hdescription : i.description = later.descriptionOf (g.block (own ++ after)) := by
    rw [hold, ScanContext.item_description, ScanContext.descriptionOf_congr hctx]
  have hpriority : i.priority = later.priorityOf (g.block (own ++ after)) := by
    rw [hold, ScanContext.item_priority, ScanContext.priorityOf_congr hctx]
  obtain ⟨htexts, hsub, htextsIff⟩ := ScanContext.filterMap_block_edited
    (f := later.descriptionText?) (fun _ => rfl) hat.own_continues hadded after
  obtain ⟨hlabels, -, hlabelsIff⟩ := ScanContext.filterMap_block_edited
    (f := later.linePriority?) (fun _ => rfl) hat.own_continues hadded after
  rw [hat.leftLines_eq, hat.strippedLines_eq]
  refine ⟨_, by rw [hitems]; exact List.mem_append_right _ List.mem_cons_self, ?_, ?_, ?_, ?_, ?_,
    ?_, ?_⟩
  · rw [ScanContext.item_line, hat.number_eq]
    omega
  · rw [ScanContext.item_keyword, hkeyword]
  · rw [ScanContext.item_title, htitle]
  · rw [ScanContext.item_description, ScanContext.descriptionOf, htexts]
    rfl
  · rw [ScanContext.item_priority, ScanContext.priorityOf, hlabels]
    rfl
  · rw [ScanContext.item_description, hdescription, ScanContext.descriptionOf,
      ScanContext.descriptionOf, htexts, ← htextsIff]
    refine Text.join_eq_iff_of_sublist hsub fun t ht => ?_
    obtain ⟨b, -, hb⟩ := List.mem_filterMap.1 ht
    exact ScanContext.descriptionText?_ne_nil hb
  · intro hstripped
    rw [ScanContext.item_priority, hpriority, ScanContext.priorityOf, ScanContext.priorityOf,
      hlabels, hlabelsIff.2 hstripped]

end Item

namespace Action

variable {w w' : World} {root : Path} {s : Settings} {i : Item} {columnId : Text} {moved : Moved}

/-- What a move leaves of description and priority of an item: what its lines have given without
the status lines of its comment. So the description is the old one if and only if no status line
has added to it, and the priority is if none has given one. -/
theorem reread_stripped {c : Column} {text : Text} {ctx : ScanContext} {id : Int}
    (hd : w.disk.IsTree) (htext : w.disk.text? (root.join (Path.ofText i.file)) = some text)
    (hctx : ctx.settings = s) (hi : i ∈ ctx.items i.file id text)
    (hcol : s.column? columnId = some c)
    (hnote : c.isKeywordEntered = false → (Grammar.ofSettings s).ReadsNote
      (Comment.openerFor i.file) (Line.split text) i.line
      (Comment.note (Comment.openerFor i.file) c.name w.localNow (w.git.currentUser w.env)))
    (h : move root s i columnId w = (.ok moved, w')) :
    ∃ text', w'.disk.text? (root.join (Path.ofText i.file)) = some text' ∧
      ∀ (later : ScanContext) (id' : Int), later.settings = s →
        ∃ j ∈ later.items i.file id' text', j.line = i.line ∧ j.keyword = i.keyword ∧
          j.title = i.title ∧
          j.description = later.descriptionOf ((Grammar.ofSettings s).block
            ((Grammar.ofSettings s).leftLines (Comment.openerFor i.file) (Line.split text)
              i.line)) ∧
          j.priority = later.priorityOf ((Grammar.ofSettings s).block
            ((Grammar.ofSettings s).leftLines (Comment.openerFor i.file) (Line.split text)
              i.line)) ∧
          (j.description = i.description ↔ ∀ l ∈ (Grammar.ofSettings s).strippedLines
            (Comment.openerFor i.file) (Line.split text) i.line,
              ((Grammar.ofSettings s).blockLine? l).bind later.descriptionText? = none) ∧
          ((∀ l ∈ (Grammar.ofSettings s).strippedLines (Comment.openerFor i.file)
            (Line.split text) i.line,
              ((Grammar.ofSettings s).blockLine? l).bind later.linePriority? = none) →
                j.priority = i.priority) := by
  obtain ⟨new, hnew, htext', -⟩ := exists_text?_of_move hd htext hcol h
  exact ⟨new.flatten, htext', fun later id' hl =>
    Item.reread_left hctx hi (List.mem_of_find?_eq_some hcol) hnote hnew hl id'⟩

/-! ## Moves on small disks -/

/-- A world with one file, a user and a local time. -/
def sampleTextWorld (text user : Text) (now : Moment) : World := { sampleWorld with
  disk := { sampleDisk with entries := [(["p".toList], .dir),
    (["p".toList, "a.py".toList], .file (Utf8.encode text) 0o644)] }
  git := { Git.silent with userName := some user }
  localNow := now }

/-- The root of the sample worlds. -/
def sampleRoot : Path := ⟨['/'], ["p".toList]⟩

/-- A text with a description in two lines, one of them with the form of a status line. -/
def sampleSentences : Text := "#TODO: a\n# DONE is better\n#HIGH\n# than perfect".toList

/-- The item in that text. -/
def sampleSentenced : Item := { sampleItem with
  description := "DONE is better\nthan perfect".toList
  priority := .high
  history := [⟨"todo".toList, .first, "ann".toList⟩]
  currentUser := "ann".toList }

/-- The world of that text. -/
def sampleSentencesWorld : World :=
  sampleTextWorld sampleSentences "ann".toList sampleWorld.localNow

/-- A move of the item to a column for notes. -/
def sampleShortened : Except Failure Moved × World :=
  move sampleRoot ScanContext.sampleBoard sampleSentenced "doing".toList sampleSentencesWorld

theorem readsNote_sampleSentences : (Grammar.ofSettings ScanContext.sampleBoard).ReadsNote
    "#".toList (Line.split sampleSentences) 1
    (Comment.note "#".toList "DOING".toList sampleWorld.localNow "ann".toList) := by
  have hkept : (Grammar.ofSettings ScanContext.sampleBoard).keptComment "#".toList
      (Line.split sampleSentences) 1 =
        ["#TODO: a\n".toList, "#HIGH\n".toList, "# than perfect".toList] := by cbv
  refine ⟨by decide, ⟨⟨"#".toList, "DOING".toList, "2024-01-02 09:00".toList, "ann".toList, none⟩,
    by cbv⟩, ?_⟩
  rw [hkept]
  decide

set_option maxRecDepth 4000 in
theorem reread_stripped_sampleSentences :
    ∃ text', sampleShortened.2.disk.text? (sampleRoot.join (Path.ofText "a.py".toList)) =
        some text' ∧
      ∀ (later : ScanContext) (id : Int), later.settings = ScanContext.sampleBoard →
        ∃ j ∈ later.items "a.py".toList id text', j.line = 1 ∧
          j.description = "than perfect".toList ∧ j.priority = .high := by
  have hok : sampleShortened.1.toBool = true := by cbv
  obtain ⟨moved, hmoved⟩ := Steps.exists_of_toBool hok
  have htext : sampleSentencesWorld.disk.text? (sampleRoot.join (Path.ofText "a.py".toList)) =
      some sampleSentences := by cbv
  have hitems : ScanContext.sampleScan.items "a.py".toList 1 sampleSentences =
      [sampleSentenced] := by cbv
  have hopener : Comment.openerFor "a.py".toList = "#".toList := by cbv
  have huser : sampleSentencesWorld.git.currentUser sampleSentencesWorld.env = "ann".toList := by
    cbv
  have hleft : (Grammar.ofSettings ScanContext.sampleBoard).block
      ((Grammar.ofSettings ScanContext.sampleBoard).leftLines "#".toList
        (Line.split sampleSentences) 1) =
      [.priority "HIGH".toList, .description "than perfect".toList] := by cbv
  have htree : sampleSentencesWorld.disk.IsTree := Disk.isTree_of_forall (by decide)
  have hitem : sampleSentenced ∈ ScanContext.sampleScan.items sampleSentenced.file 1
      sampleSentences := by
    show sampleSentenced ∈ ScanContext.sampleScan.items "a.py".toList 1 sampleSentences
    rw [hitems]
    exact List.mem_singleton_self _
  have hcolumn : ScanContext.sampleBoard.column? "doing".toList =
      some ⟨"doing".toList, "DOING".toList, [], none⟩ := by decide
  have hnote := readsNote_sampleSentences
  rw [← hopener, ← huser] at hnote
  have hread := reread_stripped (s := ScanContext.sampleBoard) (i := sampleSentenced)
    (w := sampleSentencesWorld) htree htext rfl hitem hcolumn (fun _ => hnote) hmoved
  obtain ⟨text', htext', hread⟩ := hread
  refine ⟨text', htext', fun later id hl => ?_⟩
  obtain ⟨j, hj, hline, -, -, hdescription, hpriority, -, -⟩ := hread later id hl
  have hsettings : later.settings = ScanContext.sampleScan.settings := hl
  rw [show sampleSentenced.file = "a.py".toList from rfl, hopener] at hdescription hpriority
  refine ⟨j, hj, hline, ?_, ?_⟩
  · rw [hdescription, ScanContext.descriptionOf_congr hsettings]
    exact (congrArg _ hleft).trans (by cbv)
  · rw [hpriority, ScanContext.priorityOf_congr hsettings]
    exact (congrArg _ hleft).trans (by cbv)

/-! ## Moves that lose text -/

/-- A move of the first item of a file succeeds, but afterwards no item at its line has its
description and its priority. -/
def LosesText (root : Path) (file : Text) (s : Settings) (columnId : Text) (w : World) : Prop :=
  ∃ text i moved w' text', w.disk.text? (root.join (Path.ofText file)) = some text ∧
    i ∈ (ScanContext.mk s [] .first).items file 1 text ∧
    move root s i columnId w = (.ok moved, w') ∧
    w'.disk.text? (root.join (Path.ofText file)) = some text' ∧
    ∀ j ∈ (ScanContext.mk s [] .first).items file 1 text', j.line = i.line →
      (j.description, j.priority) ≠ (i.description, i.priority)

/-- The text of a file after a move of its first item, and what is read at the line of the item
before and after it. -/
def rereadTexts (root : Path) (file : Text) (s : Settings) (columnId : Text) (w : World) :
    Option (List (Text × Priority)) := do
  let text ← w.disk.text? (root.join (Path.ofText file))
  let i ← ((ScanContext.mk s [] .first).items file 1 text).head?
  let r := move root s i columnId w
  let _ ← r.1.toOption
  let text' ← r.2.disk.text? (root.join (Path.ofText file))
  let found := ((ScanContext.mk s [] .first).items file 1 text').filter (·.line = i.line)
  pure ((i :: found).map fun j => (j.description, j.priority))

theorem losesText_of_rereadTexts {file : Text} (old : Text × Priority)
    (found : List (Text × Priority)) (h : rereadTexts root file s columnId w = some (old :: found))
    (hne : old ∉ found) : LosesText root file s columnId w := by
  simp only [rereadTexts, Option.bind_eq_bind, Option.bind_eq_some_iff] at h
  obtain ⟨text, htext, i, hi, moved, hmoved, text', htext', hfound⟩ := h
  rw [Option.pure_def, Option.some.injEq, List.map_cons, List.cons.injEq] at hfound
  obtain ⟨rfl, rfl⟩ := hfound
  refine ⟨text, i, moved, _, text', htext, List.mem_of_head? hi, Steps.eq_of_toOption hmoved, htext',
    fun j hj hline he => hne ?_⟩
  rw [← he, List.mem_map]
  refine ⟨j, ?_, rfl⟩
  rw [List.mem_filter]
  exact ⟨hj, decide_eq_true hline⟩

/-- A board with a column for notes, whose name is given. -/
def sampleNamedBoard (name : Text) : Settings := { ScanContext.sampleBoard with
  columns := [⟨"todo".toList, "TODO".toList, [], some "TODO".toList⟩,
    ⟨"x".toList, name, [], none⟩, ⟨"done".toList, "DONE".toList, [], none⟩] }

/-- A time of which no note is read. -/
def sampleEarly : Moment := ⟨999, 1, 2, 9, 0, 3, 0, none, by decide⟩

set_option maxRecDepth 4000 in
/-- What a move can lose: a sentence or a priority that begins like a status line, the line that the
note joins because it ends in a carriage return, and what stands behind a note that is no note,
which has two lines, no date that is read, or the form of a marker. -/
theorem losesText_sampleTextWorld :
    LosesText sampleRoot "a.py".toList ScanContext.sampleBoard "doing".toList
      (sampleTextWorld "#TODO: a\n# DONE is better".toList "ann".toList sampleWorld.localNow) ∧
    LosesText sampleRoot "a.py".toList (sampleNamedBoard "HIGH".toList) "done".toList
      (sampleTextWorld "#TODO: a\n#HIGH".toList "ann".toList sampleWorld.localNow) ∧
    LosesText sampleRoot "a.py".toList ScanContext.sampleBoard "done".toList
      (sampleTextWorld "#TODO: a\n#b\r".toList "ann".toList sampleWorld.localNow) ∧
    LosesText sampleRoot "a.py".toList ScanContext.sampleBoard "done".toList
      (sampleTextWorld "#TODO: a\n//b".toList "x\ny".toList sampleWorld.localNow) ∧
    LosesText sampleRoot "a.py".toList ScanContext.sampleBoard "done".toList
      (sampleTextWorld "#TODO: a".toList "ann".toList sampleEarly) ∧
    LosesText sampleRoot "a.py".toList (sampleNamedBoard "TODO: x".toList) "x".toList
      (sampleTextWorld "#TODO: a\n//b".toList "ann".toList sampleWorld.localNow) := by
  refine ⟨?sentence, ?priority, ?joined, ?broken, ?undated, ?marker⟩
  case sentence =>
    exact losesText_of_rereadTexts ("DONE is better".toList, .low) [([], .low)] (by cbv) (by decide)
  case priority =>
    exact losesText_of_rereadTexts ([], .high) [([], .low)] (by cbv) (by decide)
  case joined =>
    exact losesText_of_rereadTexts ("b".toList, .low)
      [("b\r# DONE 2024-01-02 09:00 by ann".toList, .low)] (by cbv) (by decide)
  case broken =>
    exact losesText_of_rereadTexts ("b".toList, .low) [([], .low)] (by cbv) (by decide)
  case undated =>
    exact losesText_of_rereadTexts ([], .low) [("DONE 999-01-02 09:00 by ann".toList, .low)]
      (by cbv) (by decide)
  case marker =>
    exact losesText_of_rereadTexts ("b".toList, .low) [([], .low)] (by cbv) (by decide)

end Action
end MarkerBoard
