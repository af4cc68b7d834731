import Mathlib.Data.List.Nodup
import MarkerBoard.Proofs.Block.Frame

/-!
# Where markers stand

An item can be edited if and only if its marker stands at its line. An edit keeps the markers
above it and the marker of its own comment where they are, and moves the markers below by as many
lines as the text grows, whatever the note says: also a note that is a marker itself is put between
them.

Main results:

* `Grammar.exists_edit_iff` — an edit succeeds exactly where the marker stands.
* `Grammar.MarkerAt.edited` — where a marker stands after an edit.
* `ScanContext.markerAt_of_mem_items`, `ScanContext.pairwise_line_items` — the items of a scan have
  their markers at their lines, no two at the same one.
-/
namespace MarkerBoard

namespace Grammar

variable {g : Grammar} {lines lines' front mid mid' back : List Text} {k : Int}
  {keyword title : Text}

/-- A marker with the given keyword and title stands at a line number. -/
def MarkerAt (g : Grammar) (lines : List Text) (number : Int) (keyword title : Text) : Prop :=
  1 ≤ number ∧ ∃ line m, lines[(number - 1).toNat]? = some line ∧
    g.marker? (Line.body line) = some m ∧ m.keyword = keyword ∧ m.titleText = title

theorem MarkerAt.le_length (h : g.MarkerAt lines k keyword title) : k ≤ lines.length := by
  obtain ⟨hk, line, m, hline, -⟩ := h
  obtain ⟨hlt, -⟩ := List.getElem?_eq_some_iff.1 hline
  omega

/-- Whether a marker stands at a line depends on the line alone. -/
theorem MarkerAt.of_getElem? {k' : Int} (h : g.MarkerAt lines k keyword title) (hk : 1 ≤ k')
    (heq : (lines'.map Line.body)[(k' - 1).toNat]? = (lines.map Line.body)[(k - 1).toNat]?) :
    g.MarkerAt lines' k' keyword title := by
  obtain ⟨-, line, m, hline, hm⟩ := h
  rw [List.getElem?_map, List.getElem?_map, hline, Option.map_some,
    Option.map_eq_some_iff] at heq
  obtain ⟨line', hline', hbody⟩ := heq
  refine ⟨hk, line', m, hline', ?_⟩
  rwa [hbody]

theorem MarkerAt.congr (h : g.MarkerAt lines k keyword title)
    (heq : lines'.map Line.body = lines.map Line.body) : g.MarkerAt lines' k keyword title :=
  h.of_getElem? h.1 (by rw [heq])

theorem MarkerAt.cons (h : g.MarkerAt lines k keyword title) (line : Text) :
    g.MarkerAt (line :: lines) (k + 1) keyword title := by
  have hk := h.1
  refine h.of_getElem? (by omega) ?_
  have hsucc : (k + 1 - 1).toNat = (k - 1).toNat + 1 := by omega
  rw [hsucc, List.map_cons, List.getElem?_cons_succ]

/-- Above lines that are replaced, markers stay. Below lines that hold no marker, they go with the
lines. -/
theorem MarkerAt.replace (h : g.MarkerAt (front ++ (mid ++ back)) k keyword title)
    (hmid : ∀ l ∈ mid, g.marker? (Line.body l) = none) (mid' : List Text) :
    (k ≤ front.length → g.MarkerAt (front ++ (mid' ++ back)) k keyword title) ∧
      (front.length < k → front.length + mid.length < k ∧
        g.MarkerAt (front ++ (mid' ++ back)) (k + (mid'.length - mid.length)) keyword title) := by
  have hone := h.1
  constructor
  · intro hk
    refine h.of_getElem? hone ?_
    simp only [List.map_append]
    rw [List.getElem?_append_left (by simp; omega), List.getElem?_append_left (by simp; omega)]
  · intro hk
    -- the marker is not in the middle, as no line there holds one
    have hbelow : front.length + mid.length < k := by
      by_contra hle
      obtain ⟨-, line, m, hline, hm, -⟩ := h
      rw [List.getElem?_append_right (by omega), List.getElem?_append_left (by omega)] at hline
      rw [hmid line (List.mem_of_getElem? hline)] at hm
      cases hm
    refine ⟨hbelow, h.of_getElem? (by omega) ?_⟩
    simp only [List.map_append]
    rw [List.getElem?_append_right (by simp; omega), List.getElem?_append_right (by simp; omega),
      List.getElem?_append_right (by simp; omega), List.getElem?_append_right (by simp; omega)]
    congr 1
    simp
    omega

end Grammar

/-! ## Edits -/

namespace Grammar

variable {g : Grammar} {opener note keyword title text : Text} {lines before own after : List Text}
  {number k : Int} {marker : Text} {m : MarkerLine}

/-- Where a marker stands there is its comment. -/
theorem MarkerAt.exists_commentAt (h : g.MarkerAt lines number keyword title) (opener : Text) :
    ∃ before marker own after m, g.CommentAt opener lines number before marker own after m ∧
      m.keyword = keyword ∧ m.titleText = title := by
  obtain ⟨hnumber, marker, m, hline, hm, rfl, rfl⟩ := h
  obtain ⟨hlt, hget⟩ := List.getElem?_eq_some_iff.1 hline
  have hdrop := List.drop_eq_getElem_cons hlt
  rw [hget] at hdrop
  exact ⟨_, _, _, _, m, commentAt_of_drop (by omega) hdrop hm, rfl, rfl⟩

/-- An edit succeeds exactly where the expected marker stands. -/
theorem exists_edit_iff : (∃ new, g.edit opener note (some (keyword, title)) number lines =
    .ok new) ↔ g.MarkerAt lines number keyword title := by
  constructor
  · rintro ⟨new, h⟩
    obtain ⟨before, marker, own, after, m, hat, hexp, -⟩ := edit_eq_ok_iff.1 h
    obtain ⟨hkeyword, htitle⟩ := Prod.mk.inj (hexp _ rfl)
    have hnumber := hat.number_eq
    exact ⟨by omega, marker, m, hat.getElem?_eq, hat.marker_eq, hkeyword.symm, htitle.symm⟩
  · intro h
    obtain ⟨before, marker, own, after, m, hat, rfl, rfl⟩ := h.exists_commentAt opener
    exact ⟨_, edit_of_commentAt hat (by simp)⟩

/-- After an edit, the marker of the edited comment and those above it are where they were, and
those below have moved with their lines. -/
theorem MarkerAt.edited (hcr : text.getLast? ≠ some '\r') (hn : '\n' ∉ note ∧ '\r' ∉ note)
    {expected : Option (Text × Text)} {new : List Text}
    (hedit : g.edit opener note expected number (Line.split text) = .ok new)
    (h : g.MarkerAt (Line.split text) k keyword title) :
    (k ≤ number → g.MarkerAt (Line.split new.flatten) k keyword title) ∧
      (number < k → number < k + (new.length - (Line.split text).length) ∧
        g.MarkerAt (Line.split new.flatten) (k + (new.length - (Line.split text).length)) keyword
          title) := by
  obtain ⟨before, marker, own, after, m, hat, -, rfl⟩ := edit_eq_ok_iff.1 hedit
  have hbodies := ScanContext.map_body_editedLines g hn (Line.split text) before marker own after
  rw [ScanContext.editedLines] at hbodies
  rw [Line.split_flatten (isCut_edited hcr hn.1 hat)]
  set new := before ++ g.annotate note (terminatorFor (Line.split text) marker) marker own ++ after
  -- the lines of the old comment hold no marker
  have hown : ∀ l ∈ own, g.marker? (Line.body l) = none := fun l hl =>
    ScanContext.marker?_eq_none_of_continues (hat.own_continues l hl)
  have hold : Line.split text = before ++ [marker] ++ (own ++ after) := by
    rw [hat.lines_eq, List.append_assoc, List.singleton_append]
  -- the new lines have the bodies of lines in which only the comment has been replaced
  have hnew : new.map Line.body = (before ++ [marker] ++
      ((g.keptLines own ++ addedTexts note marker) ++ after)).map Line.body := by
    rw [hbodies, List.append_assoc before, List.singleton_append]
  have hlength := congrArg List.length hnew
  have hlength' := congrArg List.length hold
  simp only [List.length_map, List.length_append, List.length_singleton] at hlength hlength'
  have hnumber := hat.number_eq
  obtain ⟨habove, hbelow⟩ :=
    MarkerAt.replace (hold ▸ h) hown (g.keptLines own ++ addedTexts note marker)
  simp only [List.length_append, List.length_singleton] at habove hbelow
  constructor
  · exact fun hk => (habove (by omega)).congr hnew
  · -- what the comment has grown by is what the text has grown by
    intro hk
    obtain ⟨hafter, hmarker⟩ := hbelow (by omega)
    have hgrowth : (new.length : Int) - (Line.split text).length =
        ((g.keptLines own).length + (addedTexts note marker).length : Nat) - own.length := by
      omega
    rw [hgrowth]
    exact ⟨by omega, hmarker.congr hnew⟩

end Grammar

/-! ## Scans -/

namespace ScanContext

variable {ctx : ScanContext} {g : Grammar} {first : Column} {file text : Text} {i : Item}

theorem markerAt_of_mem_itemsFrom {lines : List Text} {id : Int} {n : Nat}
    (h : i ∈ ctx.itemsFrom g first file id n lines) :
    g.MarkerAt lines (i.line - n + 1) i.keyword i.title := by
  induction lines generalizing id n with
  | nil => simp [itemsFrom] at h
  | cons line lines ih =>
    have hbelow : ∀ id', i ∈ ctx.itemsFrom g first file id' (n + 1) lines →
        g.MarkerAt (line :: lines) (i.line - n + 1) i.keyword i.title := by
      intro id' hi
      have hline : i.line - n + 1 = i.line - (n + 1 : Nat) + 1 + 1 := by omega
      rw [hline]
      exact (ih hi).cons line
    rw [itemsFrom] at h
    split at h
    · exact hbelow _ h
    · next m hm =>
      rcases List.mem_cons.1 h with rfl | h
      · refine ⟨by simp, line, m, by simp, hm, by simp, by simp⟩
      · exact hbelow _ h

theorem pairwise_line_itemsFrom (lines : List Text) (id : Int) (n : Nat) :
    (ctx.itemsFrom g first file id n lines).Pairwise fun i j => i.line < j.line := by
  induction lines generalizing id n with
  | nil => exact List.Pairwise.nil
  | cons line lines ih =>
    rw [itemsFrom]
    split
    · exact ih ..
    · refine List.pairwise_cons.2 ⟨fun j hj => ?_, ih ..⟩
      have := (line_of_mem_itemsFrom hj).1
      rw [item_line]
      omega

/-- The marker of an item is at its line. -/
theorem markerAt_of_mem_items {id : Int} (h : i ∈ ctx.items file id text) :
    (Grammar.ofSettings ctx.settings).MarkerAt (Line.split text) i.line i.keyword i.title := by
  rw [items] at h
  split at h
  · simp at h
  · have := markerAt_of_mem_itemsFrom h
    rwa [Nat.cast_one, Int.sub_add_cancel] at this

/-- The items of a text are on different lines, from its start to its end. -/
theorem pairwise_line_items (ctx : ScanContext) (file : Text) (id : Int) (text : Text) :
    (ctx.items file id text).Pairwise fun i j => i.line < j.line := by
  rw [items]
  split
  · exact List.Pairwise.nil
  · exact pairwise_line_itemsFrom ..

end ScanContext
end MarkerBoard
