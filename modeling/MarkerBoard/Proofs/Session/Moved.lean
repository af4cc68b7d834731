import MarkerBoard.Proofs.Move
import MarkerBoard.Proofs.Session.Entries

/-!
# One moved item

What a move does to the items that a scan reads from the file of the moved item, and to those of
all files.

Main results:

* `ScanContext.exists_items_moved` — the items of the file before and after a move.
* `ScanContext.form_moved` — the form of its text.
* `ScanContext.map_entry_edited` — the entries of all files change as those of a session do.
-/
namespace MarkerBoard

/-- A scan reads a move to the column as a move to that column: either the column has a name of its
own for notes, or it takes all items without notes. -/
def Settings.IsTarget (s : Settings) (c : Column) : Prop :=
  if c.isKeywordEntered then s.firstColumn? = some c else s.columnNamed? c.name = some c

theorem Settings.IsTarget.mem {s : Settings} {c : Column} (h : s.IsTarget c) : c ∈ s.columns := by
  rw [IsTarget] at h
  split at h
  · exact List.mem_of_head? h
  · exact mem_of_columnNamed? h

namespace Column

variable {s : Settings} {c : Column} {opener user : Text} {time : Moment} {marker : Text}

/-- What a move writes stands on one line. -/
theorem noteFor_eol (time : Moment) (hs : (Grammar.ofSettings s).Plain)
    (ho : opener ∈ Comment.openers)
    (hc : s.IsTarget c) (hu : Comment.Signer user) :
    '\n' ∉ c.noteFor opener time user ∧ '\r' ∉ c.noteFor opener time user := by
  cases hk : c.isKeywordEntered with
  | true => simp [noteFor, hk]
  | false =>
    rw [noteFor, hk]
    exact Item.note_eol time hs ho (Settings.mem_names hc.mem hk) hu

/-- What a move writes is a comment of the file, and no marker. -/
theorem addedTexts_noteFor (marker : Text) (hs : (Grammar.ofSettings s).Plain)
    (ho : opener ∈ Comment.openers)
    (hc : s.IsTarget c) (hm : 1000 ≤ time.year) (hu : Comment.Signer user) :
    ∀ t ∈ Grammar.addedTexts (c.noteFor opener time user) marker,
      (Grammar.ofSettings s).marker? t = none ∧
        Comment.isOwn opener t = (Grammar.description? t).isSome := by
  intro t ht
  cases hk : c.isKeywordEntered with
  | true =>
    rw [noteFor, hk, Grammar.addedTexts] at ht
    simp at ht
  | false =>
    have hn := Settings.mem_names hc.mem hk
    have hi := Grammar.isBlank_of_mem_indent marker
    rw [noteFor, hk, Grammar.addedTexts] at ht
    simp only [Bool.false_eq_true, if_false, Comment.note_ne_nil, List.mem_singleton] at ht
    subst ht
    refine ⟨Grammar.marker?_note hs hn ho hi time user, ?_⟩
    obtain ⟨close, hclose⟩ := Grammar.note?_note hs hn ho hi hm hu
    rw [Grammar.isOwn_note ho hi,
      (Grammar.isSome_note?_iff.1 (by rw [hclose]; rfl)).isSome_description?]

end Column

namespace ScanContext

variable {ctx : ScanContext} {c : Column} {user text : Text} {time : Moment} {i : Item}
  {before own after : List Text} {marker opener : Text} {number : Int} {m : MarkerLine}

/-- An item is in the column that it has been moved to. -/
theorem status_edited {first : Column} (hf : ctx.settings.firstColumn? = some first)
    (hs : (Grammar.ofSettings ctx.settings).Plain) (ho : opener ∈ Comment.openers)
    (hc : ctx.settings.IsTarget c) (hm : 1000 ≤ time.year) (hu : Comment.Signer user)
    {lines : List Text} (hown : Grammar.OwnSyntax opener lines)
    (hat : (Grammar.ofSettings ctx.settings).CommentAt opener lines number before marker own
      after m) (file : Text) (id : Int) (n : Nat) :
    (ctx.item first file id n m ((Grammar.ofSettings ctx.settings).block
      ((Grammar.ofSettings ctx.settings).keptLines own ++
        Grammar.addedTexts (c.noteFor opener time user) marker ++ after))).status = c.id := by
  have htarget := hc
  rw [Settings.IsTarget] at hc
  -- a move to the first column leaves no note, and any other one leaves one note
  cases hk : c.isKeywordEntered with
  | true =>
    rw [if_pos hk, hf] at hc
    cases hc
    have hnote : c.noteFor opener time user = [] := by
      rw [Column.noteFor, hk]
      rfl
    rw [hnote]
    exact (item_of_no_note (hat.note?_stripped hown) id n m).1
  | false =>
    rw [if_neg (by rw [hk]; simp)] at hc
    obtain ⟨close, hclose⟩ := hat.note?_edited hs ho hown (Settings.mem_names htarget.mem hk) hm hu
    rw [Column.noteFor, hk]
    exact (item_of_note hclose (transition?_note hc hm close) id n m).1

/-- The growth of a file by a move. -/
def growth (new : List Text) (text : Text) : Int := new.length - (Line.split text).length

/-- The items of a file before and after one of them has been moved. -/
theorem exists_items_moved (hs : (Grammar.ofSettings ctx.settings).Plain)
    (hcr : text.getLast? ≠ some '\r')
    (hown : Grammar.OwnSyntax (Comment.openerFor i.file) (Line.split text))
    (hc : ctx.settings.IsTarget c) (hm : 1000 ≤ time.year) (hu : Comment.Signer user)
    {new : List Text} (h : i.movedLines ctx.settings c time user (Line.split text) = .ok new)
    (id : Int) :
    ∃ above old moved below,
      ctx.items i.file id text = above ++ old :: below ∧
      ctx.items i.file id new.flatten =
        above ++ moved :: below.map (Item.lower · (growth new text)) ∧
      old.line = i.line ∧
      Entry.ofItem moved = ⟨old.id, i.file, i.line, i.keyword, i.title, c.id,
        decide (ctx.settings.doneId? = some c.id)⟩ ∧
      (∀ j ∈ above, j.line < i.line) ∧ ∀ j ∈ below, i.line < j.line := by
  have ho := Comment.openerFor_mem i.file
  obtain ⟨first, hf⟩ := Settings.exists_firstColumn? hc.mem
  obtain ⟨before, marker, own, after, m, hat, hexp, rfl⟩ := Grammar.edit_eq_ok_iff.1 h
  have hmarker := hexp _ rfl
  rw [Prod.mk.injEq] at hmarker
  have heol := Column.noteFor_eol time hs ho hc hu
  have hadded := Column.addedTexts_noteFor marker hs ho hc hm hu
  -- the marker stands below as many lines as there are before it
  have hline : ((1 + before.length : Nat) : Int) = i.line := by
    rw [hat.number_eq]
    omega
  refine ⟨_, _, _, _, items_of_commentAt hf hat id,
    items_edited i.file hf hcr heol hat (fun t ht => (hadded t ht).1) id, ?_, ?_, ?_, ?_⟩
  · rw [item_line, hline]
  · rw [Entry.ofItem, isDone_item, status_edited hf hs ho hc hm hu hown hat]
    simp only [item_id, item_file, item_line, item_keyword, item_title, hline, hmarker.1, hmarker.2]
  · intro j hj
    have := (line_of_mem_itemsFrom hj).2
    omega
  · intro j hj
    have := (line_of_mem_itemsFrom hj).1
    push_cast at this
    omega

/-- The form of the text of a file after one of its items has been moved. -/
theorem form_moved (ctx : ScanContext) (hs : (Grammar.ofSettings ctx.settings).Plain)
    (hcr : text.getLast? ≠ some '\r')
    (hown : Grammar.OwnSyntax (Comment.openerFor i.file) (Line.split text))
    (hc : ctx.settings.IsTarget c) (hm : 1000 ≤ time.year) (hu : Comment.Signer user)
    {new : List Text} (h : i.movedLines ctx.settings c time user (Line.split text) = .ok new) :
    new.flatten.getLast? ≠ some '\r' ∧
      Grammar.OwnSyntax (Comment.openerFor i.file) (Line.split new.flatten) := by
  have ho := Comment.openerFor_mem i.file
  obtain ⟨before, marker, own, after, m, hat, -, rfl⟩ := Grammar.edit_eq_ok_iff.1 h
  have heol := Column.noteFor_eol time hs ho hc hu
  have hadded := Column.addedTexts_noteFor marker hs ho hc hm hu
  exact ⟨getLast?_edited hcr heol hat,
    Grammar.ownSyntax_edited hcr heol hat hown fun t ht => (hadded t ht).2⟩

/-- The entries of several files after an edit of one of them. -/
theorem map_entry_edited {front above below back : List Item} {old moved : Item} {k : Int}
    (hids : ((front ++ (above ++ old :: below) ++ back).map Item.id).Nodup)
    (hid : moved.id = old.id) (hother : ∀ j ∈ front ++ back, j.file ≠ moved.file)
    (habove : ∀ j ∈ above, j.line < moved.line)
    (hbelow : ∀ j ∈ below, j.file = moved.file ∧ moved.line < j.line) :
    (front ++ (above ++ moved :: below.map (Item.lower · k)) ++ back).map Entry.ofItem =
      ((front ++ (above ++ old :: below) ++ back).map Entry.ofItem).map
        (Entry.afterMove (Entry.ofItem moved) k) := by
  -- no other item has the identifier of the moved one
  have hne : ∀ j ∈ (front ++ above) ++ (below ++ back), j.id ≠ moved.id := by
    intro j hj heq
    have hsplit : front ++ (above ++ old :: below) ++ back =
        (front ++ above) ++ old :: (below ++ back) := by simp
    rw [hsplit, List.map_append, List.map_cons, List.nodup_middle, List.nodup_cons,
      ← List.map_append] at hids
    refine hids.1 ?_
    rw [← hid, ← heq]
    exact List.mem_map_of_mem hj
  -- so the items above it and those of other files stay, and those below go with their lines
  have hkeep : ∀ j ∈ (front ++ above) ++ (below ++ back),
      ¬ (j.file = moved.file ∧ moved.line < j.line) →
      Entry.afterMove (Entry.ofItem moved) k (Entry.ofItem j) = Entry.ofItem j := by
    intro j hj hnot
    exact (if_neg (hne j hj)).trans (if_neg hnot)
  have hlower : ∀ j ∈ below,
      Entry.afterMove (Entry.ofItem moved) k (Entry.ofItem j) = Entry.ofItem (j.lower k) := by
    intro j hj
    exact (if_neg (hne j (by simp [hj]))).trans (if_pos (hbelow j hj))
  have hmoved : Entry.afterMove (Entry.ofItem moved) k (Entry.ofItem old) = Entry.ofItem moved :=
    if_pos hid.symm
  have hsame : ∀ items : List Item, (∀ j ∈ items, j ∈ (front ++ above) ++ (below ++ back)) →
      (∀ j ∈ items, ¬ (j.file = moved.file ∧ moved.line < j.line)) →
      (items.map Entry.ofItem).map (Entry.afterMove (Entry.ofItem moved) k) =
        items.map Entry.ofItem := by
    intro items hmem hnot
    rw [List.map_map]
    exact List.map_congr_left fun j hj => hkeep j (hmem j hj) (hnot j hj)
  simp only [List.map_append, List.map_cons]
  rw [hmoved,
    hsame front (fun j hj => by simp [hj]) fun j hj h => hother j (by simp [hj]) h.1,
    hsame back (fun j hj => by simp [hj]) fun j hj h => hother j (by simp [hj]) h.1,
    hsame above (fun j hj => by simp [hj]) fun j hj h => by have := habove j hj; omega]
  rw [List.map_map, List.map_map]
  congr 3
  refine congrArg (Entry.ofItem moved :: ·) ?_
  exact List.map_congr_left fun j hj => (hlower j hj).symm

/-- Of the items of several files, with those of one file in the order of their lines, only one is
on its line. -/
theorem eq_of_mem_around {front above below back : List Item} {old j : Item} {file : Text}
    {line : Int} (hj : j ∈ front ++ (above ++ old :: below) ++ back)
    (hother : ∀ k ∈ front ++ back, k.file ≠ file) (habove : ∀ k ∈ above, k.line < line)
    (hbelow : ∀ k ∈ below, line < k.line) (hfile : j.file = file) (hline : j.line = line) :
    j = old := by
  simp only [List.mem_append, List.mem_cons] at hj
  rcases hj with (hj | hj | rfl | hj) | hj
  · exact absurd hfile (hother j (List.mem_append_left _ hj))
  · have := habove j hj
    omega
  · rfl
  · have := hbelow j hj
    omega
  · exact absurd hfile (hother j (List.mem_append_right _ hj))

/-- The entries of several files after an item of one of them has been moved. The item is known to
the scan by its entry alone. -/
theorem map_entry_itemsOfFiles_moved (ctx : ScanContext)
    (hs : (Grammar.ofSettings ctx.settings).Plain)
    (hcr : text.getLast? ≠ some '\r')
    (hown : Grammar.OwnSyntax (Comment.openerFor i.file) (Line.split text))
    (hc : ctx.settings.IsTarget c) (hm : 1000 ≤ time.year) (hu : Comment.Signer user)
    {new : List Text} (h : i.movedLines ctx.settings c time user (Line.split text) = .ok new)
    {front back : List (Text × Text)} (hother : ∀ e ∈ front ++ back, e.1 ≠ i.file) {j : Item}
    (hj : j ∈ (ctx.itemsOfFiles 1 (front ++ (i.file, text) :: back)).flatten)
    (hji : Entry.ofItem j = Entry.ofItem i) :
    (ctx.itemsOfFiles 1 (front ++ (i.file, new.flatten) :: back)).flatten.map Entry.ofItem =
      ((ctx.itemsOfFiles 1 (front ++ (i.file, text) :: back)).flatten.map Entry.ofItem).map
        (Entry.afterMove (Entry.ofItem (i.moved ctx.settings c time user)) (growth new text)) := by
  obtain ⟨above, old, moved, below, hold, hnew, hline, hmoved, habove, hbelow⟩ :=
    exists_items_moved hs hcr hown hc hm hu h
      (1 + ((ctx.itemsOfFiles 1 front).flatten.length : Int))
  -- the identifiers of a scan tell its items apart
  have hnodup : ((ctx.itemsOfFiles 1 (front ++ (i.file, text) :: back)).flatten.map
      Item.id).Nodup := by
    rw [map_id_itemsOfFiles]
    exact nodup_numbersFrom ..
  rw [flatten_itemsOfFiles_append, itemsOfFiles, List.flatten_cons, hold,
    ← List.append_assoc] at hj hnodup
  have hothers : ∀ id, ∀ k ∈ (ctx.itemsOfFiles 1 front).flatten ++
      (ctx.itemsOfFiles id back).flatten, k.file ≠ i.file := by
    intro id k hk
    rcases List.mem_append.1 hk with hk | hk
    · exact file_ne_of_mem_itemsOfFiles (fun e he => hother e (List.mem_append_left _ he)) hk
    · exact file_ne_of_mem_itemsOfFiles (fun e he => hother e (List.mem_append_right _ he)) hk
  -- of the items that the scan reads, only the one at the line has the entry
  have hjold : j = old := eq_of_mem_around hj (hothers _) habove hbelow
    (congrArg Entry.file hji) (congrArg Entry.line hji)
  have hid : old.id = i.id := by
    rw [← hjold]
    exact congrArg Entry.id hji
  have hentry : Entry.ofItem moved = Entry.ofItem (i.moved ctx.settings c time user) := by
    rw [hmoved, Item.ofItem_moved hc.mem, hid]
  have hmfile : moved.file = i.file := congrArg Entry.file hmoved
  have hmline : moved.line = i.line := congrArg Entry.line hmoved
  have hbelowFile : ∀ k ∈ below, k.file = i.file := by
    intro k hk
    have hmem : k ∈ above ++ old :: below := by simp [hk]
    rw [← hold] at hmem
    exact file_of_mem_items hmem
  have hedited := map_entry_edited (k := growth new text) hnodup (congrArg Entry.id hmoved)
    (by
      rw [hmfile]
      exact hothers _)
    (by rwa [hmline])
    (fun k hk => by
      rw [hmfile, hmline]
      exact ⟨hbelowFile k hk, hbelow k hk⟩)
  -- the files after it are numbered as before, since the file has as many items
  have hlength : (above ++ moved :: below.map (Item.lower · (growth new text))).length =
      (above ++ old :: below).length := by simp
  rw [flatten_itemsOfFiles_append, flatten_itemsOfFiles_append, itemsOfFiles, itemsOfFiles,
    List.flatten_cons, List.flatten_cons, hold, hnew, hlength, ← hentry]
  simpa only [List.append_assoc] using hedited

end ScanContext
end MarkerBoard
