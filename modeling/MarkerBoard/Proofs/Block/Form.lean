import MarkerBoard.Proofs.Block.Reread

/-!
# The form of an edited text

An edit leaves a text in a form that can be edited again: all comments are still in the file's own
syntax, and the text does not end in a carriage return.

Main results:

* `ScanContext.getLast?_edited_eq_iff` — the last character of an edited text.
* `Grammar.ownSyntax_edited` — the comments of an edited text.
-/
namespace MarkerBoard

namespace ScanContext

open Grammar (addedTexts terminatorFor CommentAt)

variable {g : Grammar} {opener note text : Text} {before own after : List Text} {marker : Text}
  {number : Int} {m : MarkerLine}

theorem getLast?_flatten_concat (lines : List Text) {line : Text} (h : line ≠ []) :
    (lines ++ [line]).flatten.getLast? = line.getLast? := by
  rw [List.flatten_append, List.flatten_singleton, List.getLast?_append_of_ne_nil _ h]

/-- What a line ends in, if that belongs to a terminator, is seen from its terminator. -/
theorem getLast?_append_eq_iff {t e : Text} {c : Char} (hc : Line.isEol c = true)
    (ht : Text.EndsOutside Line.isEol t) : (t ++ e).getLast? = some c ↔ e.getLast? = some c := by
  by_cases he : e = []
  · subst he
    rw [List.append_nil]
    refine iff_of_false (fun h => ?_) (by simp)
    rw [ht c h] at hc
    exact absurd hc (by decide)
  · rw [List.getLast?_append_of_ne_nil _ he]

/-- A comment that ends a text ends in the same terminator after an edit. -/
theorem getLast?_annotate_eq_iff {c : Char} (hc : Line.isEol c = true)
    (hn : '\n' ∉ note ∧ '\r' ∉ note) (terminator : Text)
    (hm : Line.body marker ≠ []) (ho : ∀ l ∈ own, Line.body l ≠ []) :
    (g.annotate note terminator marker own).flatten.getLast? = some c ↔
      (own.getLastD marker).getLast? = some c := by
  rw [Grammar.annotate_eq]
  set parts := (marker :: g.keptLines own).map (Line.parts terminator) ++
    (addedTexts note marker).map (·, terminator) with hparts
  have hbodies : ∀ p ∈ parts, p.1 ≠ [] ∧ Text.EndsOutside Line.isEol p.1 := by
    refine Grammar.forall_parts (fun l hl => ⟨?_, Line.endsOutside_body l⟩)
      fun hne => ⟨by simp [hne], Text.endsOutside_append hne (endsOutside_note hn)⟩
    rcases List.mem_cons.1 hl with rfl | hl
    · exact hm
    · exact ho l hl
  -- the last part gets the ending of the last line, so only that ending matters
  obtain ⟨init, p, hp⟩ := (List.eq_nil_or_concat' parts).resolve_left (by simp [hparts])
  obtain ⟨hne, hend⟩ := hbodies p (by rw [hp]; simp)
  rw [hp, Line.assemble_concat, getLast?_flatten_concat _ (by simp [hne]),
    getLast?_append_eq_iff hc hend, ← getLast?_append_eq_iff hc (Line.endsOutside_body _),
    Line.body_append_ending]

/-- A comment is not empty after an edit, since it has its marker. -/
theorem flatten_annotate_ne_nil (hn : '\n' ∉ note ∧ '\r' ∉ note) (hm : Line.body marker ≠ []) :
    (g.annotate note (terminatorFor (Line.split text) marker) marker own).flatten ≠ [] := by
  have hmap : (g.annotate note (terminatorFor (Line.split text) marker) marker own).map
      Line.body = (marker :: g.keptLines own).map Line.body ++ addedTexts note marker :=
    Grammar.map_body_annotate (fun c => Grammar.isEol_of_mem_terminatorFor) (endsOutside_note hn)
  intro hnil
  cases ha : g.annotate note (terminatorFor (Line.split text) marker) marker own with
  | nil =>
    rw [ha] at hmap
    simp at hmap
  | cons l ls =>
    rw [ha, List.map_cons, List.map_cons, List.cons_append, List.cons.injEq] at hmap
    rw [ha, List.flatten_cons] at hnil
    rw [(List.append_eq_nil_iff.1 hnil).1] at hmap
    exact hm hmap.1.symm

/-- If a text ends in a character of a terminator, it does so after an edit, and not otherwise. -/
theorem getLast?_edited_eq_iff {c : Char} (hc : Line.isEol c = true)
    (hn : '\n' ∉ note ∧ '\r' ∉ note)
    (h : CommentAt g opener (Line.split text) number before marker own after m) :
    (editedLines g note (Line.split text) before marker own after).flatten.getLast? = some c ↔
      text.getLast? = some c := by
  have htext : text = (before ++ marker :: (own ++ after)).flatten := by
    rw [← h.lines_eq, Line.flatten_split]
  have hown : ∀ l ∈ own, Line.body l ≠ [] := fun l hl =>
    Grammar.ne_nil_of_continues (h.own_continues l hl)
  have hmarker := Grammar.ne_nil_of_marker? h.marker_eq
  have hline : ∀ {l : Text}, Line.body l ≠ [] → l ≠ [] := by
    rintro l hl rfl
    exact hl rfl
  rw [editedLines, List.flatten_append, htext]
  -- the text ends in the comment or in a line that the edit leaves alone
  obtain rfl | ⟨init, l, rfl⟩ := List.eq_nil_or_concat' after
  · rw [List.flatten_nil, List.append_nil, List.flatten_append, List.getLast?_append_of_ne_nil _
      (flatten_annotate_ne_nil hn hmarker), getLast?_annotate_eq_iff hc hn _ hmarker hown,
      List.append_nil]
    obtain rfl | ⟨init, l, rfl⟩ := List.eq_nil_or_concat' own
    · rw [getLast?_flatten_concat _ (hline hmarker)]
      rfl
    · rw [List.getLastD_concat, ← List.cons_append, ← List.append_assoc,
        getLast?_flatten_concat _ (hline (hown l (by simp)))]
  · have hl : l ≠ [] := by
      have hmem : l ∈ Line.split text := by
        rw [h.lines_eq]
        simp
      exact Line.ne_nil_of_mem_split hmem
    rw [← List.flatten_append, ← List.append_assoc, getLast?_flatten_concat _ hl,
      ← List.append_assoc, ← List.cons_append, ← List.append_assoc, getLast?_flatten_concat _ hl]

/-- A text that does not end in a carriage return does not after an edit either. -/
theorem getLast?_edited (hcr : text.getLast? ≠ some '\r') (hn : '\n' ∉ note ∧ '\r' ∉ note)
    (h : CommentAt g opener (Line.split text) number before marker own after m) :
    (editedLines g note (Line.split text) before marker own after).flatten.getLast? ≠
      some '\r' :=
  fun hnew => hcr ((getLast?_edited_eq_iff (by decide) hn h).1 hnew)

end ScanContext

namespace Grammar

variable {g : Grammar} {opener note text : Text} {before own after : List Text} {marker : Text}
  {number : Int} {m : MarkerLine}

/-- All comments are still in the file's own syntax after an edit that adds such a line. -/
theorem ownSyntax_edited (hcr : text.getLast? ≠ some '\r') (hn : '\n' ∉ note ∧ '\r' ∉ note)
    (h : g.CommentAt opener (Line.split text) number before marker own after m)
    (hown : OwnSyntax opener (Line.split text))
    (ha : ∀ t ∈ addedTexts note marker, Comment.isOwn opener t = (description? t).isSome) :
    OwnSyntax opener (Line.split (ScanContext.editedLines g note (Line.split text) before marker
      own after).flatten) := by
  intro line hline
  rw [ScanContext.editedLines, Line.split_flatten (isCut_edited hcr hn.1 h),
    ← ScanContext.editedLines] at hline
  have hbody := List.mem_map_of_mem hline (f := Line.body)
  rw [ScanContext.map_body_editedLines g hn, List.mem_map] at hbody
  obtain ⟨l, hl, hle⟩ := hbody
  rw [← hle]
  rw [h.lines_eq] at hown
  -- all lines but the note are lines of the text
  simp only [List.mem_append, List.mem_cons, List.append_assoc] at hl
  rcases hl with hl | rfl | hl | hl | hl
  · exact hown l (by simp [hl])
  · exact hown l (by simp)
  · exact hown l (by simp [List.mem_of_mem_filter hl])
  · have hbody : Line.body l ∈ (addedTexts note marker).map Line.body := List.mem_map_of_mem hl
    rw [ScanContext.map_body_addedTexts hn] at hbody
    exact ha _ hbody
  · exact hown l (by simp [hl])

end Grammar
end MarkerBoard
