import MarkerBoard.Proofs.Block.Marker
import MarkerBoard.Proofs.Block.Terminator

/-!
# Edits at two markers

Two edits at different markers of a text can be made in either order. The comments of the two
markers do not meet, since a comment ends before the next marker, and each edit leaves the lines of
the other comment as they are. The edit further down only has to be told by how many lines the text
above has grown.

An edit also looks at one thing outside its comment: a marker without a terminator is the last line
of the text, and the terminator of new lines is then that of the first line that has one. This is
why the lines of the text have to end alike.

Main results:

* `Grammar.CommentAt.exists_between` — the comments of two markers do not meet.
* `Grammar.CommentAt.edited_above`, `Grammar.CommentAt.edited_below` — where a comment is after the
  other one has been edited.
* `Grammar.edit_comm` — both orders give the same text.
-/
namespace MarkerBoard

namespace Grammar

variable {g : Grammar} {opener opener' note note' text : Text} {lines : List Text}
  {number number' : Int} {before before' own own' after after' mid : List Text}
  {marker marker' e : Text} {m m' : MarkerLine}

/-! ## Two comments -/

/-- The comment of a marker further down starts after the comment above has ended. -/
theorem CommentAt.exists_between (h : g.CommentAt opener lines number before marker own after m)
    (h' : g.CommentAt opener' lines number' before' marker' own' after' m')
    (hlt : number < number') :
    ∃ mid, after = mid ++ marker' :: (own' ++ after') ∧
      before' = before ++ marker :: (own ++ mid) := by
  have hlines := h.lines_eq.symm.trans h'.lines_eq
  have hnumber := h.number_eq
  have hnumber' := h'.number_eq
  -- the second marker stands after the first one
  obtain ⟨front, rfl, hrest⟩ : ∃ front, before' = before ++ [marker] ++ front ∧
      own ++ after = front ++ marker' :: (own' ++ after') := by
    rw [List.append_cons, List.append_eq_append_iff] at hlines
    rcases hlines with ⟨front, hfront, hrest⟩ | ⟨extra, hextra, hrest⟩
    · exact ⟨front, hfront, hrest⟩
    · have hlength := congrArg List.length hextra
      rw [List.length_append, List.length_append, List.length_singleton] at hlength
      have hnil : extra = [] := List.length_eq_zero_iff.1 (by omega)
      subst hnil
      exact ⟨[], by rw [hextra, List.append_nil, List.append_nil], hrest.symm⟩
  -- and not in its comment
  rw [List.append_eq_append_iff] at hrest
  rcases hrest with ⟨mid, rfl, hafter⟩ | ⟨extra, hown, hafter⟩
  · exact ⟨mid, hafter, by simp⟩
  · cases extra with
    | nil => exact ⟨[], by simpa using hafter.symm, by simp [hown]⟩
    | cons l extra =>
      rw [List.cons_append, List.cons.injEq] at hafter
      have hnone := ScanContext.marker?_eq_none_of_continues (h.own_continues l (by simp [hown]))
      rw [← hafter.1, h'.marker_eq] at hnone
      cases hnone

/-- The comment of a marker after lines above it have been replaced. -/
theorem CommentAt.edited_above {front : List Text}
    (h : g.CommentAt opener lines number (front ++ mid) marker own after m) (front' : List Text) :
    g.CommentAt opener (front' ++ mid ++ marker :: (own ++ after))
      (number + ((front'.length : Int) - front.length)) (front' ++ mid) marker own after m := by
  refine ⟨rfl, ?_, h.marker_eq, h.own_continues, h.after_ends⟩
  rw [h.number_eq, List.length_append, List.length_append]
  omega

/-- The comment of a marker after a comment below it has been edited. -/
theorem CommentAt.edited_below
    (h : g.CommentAt opener lines number before marker own (mid ++ marker' :: after) m)
    (hm : g.marker? (Line.body marker') = some m') (new : List Text)
    (hnew : ∃ marker'' rest, new = marker'' :: rest ∧ Line.body marker'' = Line.body marker') :
    g.CommentAt opener (before ++ marker :: (own ++ (mid ++ new))) number before marker own
      (mid ++ new) m := by
  refine ⟨rfl, h.number_eq, h.marker_eq, h.own_continues, ?_⟩
  obtain ⟨marker'', rest, rfl, hbody⟩ := hnew
  cases mid with
  | cons l mid => exact h.after_ends
  | nil =>
    -- the line after the comment is the other marker still
    intro l hl
    obtain rfl : marker'' = l := Option.some.inj hl
    rw [continues, hbody, hm]
    simp

/-! ## Both orders -/

section Both

variable {keyword title keyword' title' : Text} {expected : Option (Text × Text)}

/-- The lower edit after the upper one: it finds its marker as many lines further down as the text
has grown, and writes what it would have written before. -/
theorem edit_below_edited (heol : ∀ c ∈ e, Line.isEol c = true) (hn : '\n' ∉ note ∧ '\r' ∉ note)
    (hall : ∀ l ∈ lines, Line.EndsIn e l)
    (hat : g.CommentAt opener lines number before marker own (mid ++ marker' :: (own' ++ after)) m)
    (hat' : g.CommentAt opener lines number' (before ++ marker :: (own ++ mid)) marker' own' after
      m')
    {upper : List Text}
    (hupper : upper = before ++ g.annotate note e marker own ++ (mid ++ marker' :: (own' ++ after)))
    (hcut : Line.IsCut upper) (he : ∀ x ∈ expected, x = (m'.keyword, m'.titleText)) :
    g.edit opener note' expected (number' + (upper.length - lines.length)) upper =
      .ok (before ++ g.annotate note e marker own ++ mid ++ g.annotate note' e marker' own' ++
        after) := by
  have hfront : before ++ marker :: (own ++ mid) = before ++ marker :: own ++ mid := by simp
  rw [hfront] at hat'
  have hedited : g.CommentAt opener upper (number' + (upper.length - lines.length))
      (before ++ g.annotate note e marker own ++ mid) marker' own' after m' := by
    have hmoved := hat'.edited_above (before ++ g.annotate note e marker own)
    rw [List.append_assoc _ mid, ← hupper] at hmoved
    have hlength := congrArg List.length hat.lines_eq
    have hlength' := congrArg List.length hupper
    convert hmoved using 2
    simp only [List.length_append, List.length_cons] at hlength hlength' ⊢
    omega
  -- the lines end alike still, and the first one of the new comment is ended
  have hterm : terminatorFor upper marker' = e := by
    obtain ⟨first, more, hfirst, -⟩ := exists_annotate_eq_cons g marker own heol hn
    have hmem : first ∈ upper := by
      rw [hupper, hfirst]
      simp
    have hended : Line.Ended first := by
      rw [hupper, hfirst, List.append_assoc, List.cons_append, List.append_cons,
        Line.isCut_append_iff (by simp)] at hcut
      exact hcut.1 first (by simp)
    refine terminatorFor_of_endsIn (fun l hl => ?_) (hedited.mem_lines marker' List.mem_cons_self)
      hmem hended.ending_ne_nil
    rw [hupper, List.append_assoc, List.mem_append, List.mem_append] at hl
    rcases hl with hl | hl | hl
    · exact hall l (by rw [hat.lines_eq]; exact List.mem_append_left _ hl)
    · exact endsIn_annotate heol hn (fun k hk => hall k (hat.mem_lines k hk)) l hl
    · exact hall l (by
        rw [hat.lines_eq, ← List.cons_append]
        exact List.mem_append_right _ (List.mem_append_right _ hl))
  rw [edit_of_commentAt hedited he, hterm]

/-- The upper edit after the lower one: the lines of its comment and the line after it are as they
were. -/
theorem edit_above_edited (heol : ∀ c ∈ e, Line.isEol c = true)
    (hn' : '\n' ∉ note' ∧ '\r' ∉ note') (hterm : Line.ending marker = e) (hne : e ≠ [])
    (hat : g.CommentAt opener lines number before marker own (mid ++ marker' :: (own' ++ after)) m)
    (hm' : g.marker? (Line.body marker') = some m')
    (he : ∀ x ∈ expected, x = (m.keyword, m.titleText)) :
    g.edit opener note expected number
        (before ++ marker :: (own ++ mid) ++ g.annotate note' e marker' own' ++ after) =
      .ok (before ++ g.annotate note e marker own ++
        (mid ++ (g.annotate note' e marker' own' ++ after))) := by
  obtain ⟨first, more, hfirst, hbody, -⟩ := exists_annotate_eq_cons g marker' own' heol hn'
  have hedited := hat.edited_below hm' (g.annotate note' e marker' own' ++ after)
    ⟨first, more ++ after, by rw [hfirst, List.cons_append], hbody⟩
  have hlines : before ++ marker :: (own ++ mid) ++ g.annotate note' e marker' own' ++ after =
      before ++ marker :: (own ++ (mid ++ (g.annotate note' e marker' own' ++ after))) := by simp
  rw [hlines, edit_of_commentAt hedited he, terminatorFor_of_ne_nil (hterm ▸ hne), hterm]

/-- Two edits at different markers can be made in either order, if the lines of the text end alike:
both orders succeed and give the same text. The marker further down is found by as many lines
further down as the text has grown. -/
theorem edit_comm (opener : Text)
    (hall : ∀ l ∈ Line.split text, Line.ending l = [] ∨ Line.ending l = e)
    (hn : '\n' ∉ note ∧ '\r' ∉ note) (hn' : '\n' ∉ note' ∧ '\r' ∉ note')
    (hmarker : g.MarkerAt (Line.split text) number keyword title)
    (hmarker' : g.MarkerAt (Line.split text) number' keyword' title') (hlt : number < number')
    (he : ∀ x ∈ expected, x = (keyword, title)) {expected' : Option (Text × Text)}
    (he' : ∀ x ∈ expected', x = (keyword', title')) :
    ∃ upper both lower both',
      g.edit opener note expected number (Line.split text) = .ok upper ∧
      g.edit opener note' expected' (number' + (upper.length - (Line.split text).length))
        (Line.split upper.flatten) = .ok both ∧
      g.edit opener note' expected' number' (Line.split text) = .ok lower ∧
      g.edit opener note expected number (Line.split lower.flatten) = .ok both' ∧
      both.flatten = both'.flatten := by
  obtain ⟨before, marker, own, rest, m, hat, rfl, rfl⟩ := hmarker.exists_commentAt opener
  obtain ⟨before', marker', own', after, m', hat', rfl, rfl⟩ := hmarker'.exists_commentAt opener
  obtain ⟨mid, rfl, rfl⟩ := hat.exists_between hat' hlt
  -- the upper marker is ended, so new lines get its terminator in both comments
  have hended : Line.Ended marker := by
    have hsplit := Line.isCut_split text
    rw [hat.lines_eq, List.append_cons, Line.isCut_append_iff (by simp)] at hsplit
    exact hsplit.1 marker (by simp)
  have hmem := hat.mem_lines marker List.mem_cons_self
  have hmem' := hat'.mem_lines marker' List.mem_cons_self
  have hending : Line.ending marker = e := (hall marker hmem).resolve_left hended.ending_ne_nil
  have hterm : terminatorFor (Line.split text) marker = e :=
    terminatorFor_of_endsIn hall hmem hmem hended.ending_ne_nil
  have hterm' : terminatorFor (Line.split text) marker' = e :=
    terminatorFor_of_endsIn hall hmem' hmem hended.ending_ne_nil
  have heol : ∀ c ∈ e, Line.isEol c = true := hterm ▸ fun c => isEol_of_mem_terminatorFor
  -- and the text between two edits is cut into the lines that the first one has written
  have hwhole : ∀ l ∈ Line.split text, l.getLast? ≠ some '\r' := fun l hl =>
    (Line.whole_of_endsIn hall hmem hended l hl).getLast?_ne
  have hcut := isCut_edited_of_kept hn.1 hat fun _ l hl => hwhole l (hat.kept_mem_lines l hl)
  have hcut' := isCut_edited_of_kept hn'.1 hat' fun _ l hl => hwhole l (hat'.kept_mem_lines l hl)
  refine ⟨_, before ++ g.annotate note e marker own ++ mid ++ g.annotate note' e marker' own' ++
      after, _, before ++ g.annotate note e marker own ++
      (mid ++ (g.annotate note' e marker' own' ++ after)), edit_of_commentAt hat he, ?_,
    edit_of_commentAt hat' he', ?_, by simp only [List.append_assoc]⟩
  · rw [Line.split_flatten hcut]
    exact edit_below_edited heol hn hall hat hat' (by rw [hterm]) hcut he'
  · rw [Line.split_flatten hcut', hterm']
    exact edit_above_edited heol hn' hending (hending ▸ hended.ending_ne_nil) hat hat'.marker_eq he

end Both

/-- Two comments without a line between them, and no terminator at the end. -/
def samplePair : Text := "// TODO: a\r\n// DONE 2024-01-02 09:00 by ann\r\n// FIXME: b".toList

set_option maxRecDepth 4000 in
theorem edit_comm_samplePair :
    ∃ upper both lower both',
      (ofSettings ScanContext.sampleBoard).edit "//".toList [] none 1 (Line.split samplePair) =
        .ok upper ∧
      (ofSettings ScanContext.sampleBoard).edit "//".toList "// DOING".toList none
        (3 + (upper.length - (Line.split samplePair).length)) (Line.split upper.flatten) =
          .ok both ∧
      (ofSettings ScanContext.sampleBoard).edit "//".toList "// DOING".toList none 3
        (Line.split samplePair) = .ok lower ∧
      (ofSettings ScanContext.sampleBoard).edit "//".toList [] none 1 (Line.split lower.flatten) =
        .ok both' ∧
      both.flatten = both'.flatten ∧
      lower.flatten =
        "// TODO: a\r\n// DONE 2024-01-02 09:00 by ann\r\n// FIXME: b\r\n// DOING".toList ∧
      both'.flatten = "// TODO: a\r\n// FIXME: b\r\n// DOING".toList := by
  have hmarker : (ofSettings ScanContext.sampleBoard).MarkerAt (Line.split samplePair) 1
      "TODO".toList "a".toList :=
    ⟨by decide, "// TODO: a\r\n".toList, _, by decide, by cbv, by decide, by decide⟩
  have hmarker' : (ofSettings ScanContext.sampleBoard).MarkerAt (Line.split samplePair) 3
      "FIXME".toList "b".toList :=
    ⟨by decide, "// FIXME: b".toList, _, by decide, by cbv, by decide, by decide⟩
  have hnote : '\n' ∉ ([] : Text) ∧ '\r' ∉ ([] : Text) := by decide
  have hnote' : '\n' ∉ "// DOING".toList ∧ '\r' ∉ "// DOING".toList := by decide
  have hlower : (ofSettings ScanContext.sampleBoard).edit "//".toList "// DOING".toList none 3
      (Line.split samplePair) = .ok ["// TODO: a\r\n".toList,
        "// DONE 2024-01-02 09:00 by ann\r\n".toList, "// FIXME: b\r\n".toList,
        "// DOING".toList] := by cbv
  have hboth : (ofSettings ScanContext.sampleBoard).edit "//".toList [] none 1
      (Line.split
        "// TODO: a\r\n// DONE 2024-01-02 09:00 by ann\r\n// FIXME: b\r\n// DOING".toList) =
      .ok ["// TODO: a\r\n".toList, "// FIXME: b\r\n".toList, "// DOING".toList] := by cbv
  obtain ⟨upper, both, lower, both', h, h', hl, hb, hsame⟩ :=
    edit_comm "//".toList (e := "\r\n".toList) (by decide) hnote hnote' hmarker hmarker' (by decide)
      (fun e he => absurd he (Option.not_mem_none e))
      (fun e he => absurd he (Option.not_mem_none e))
  refine ⟨upper, both, lower, both', h, h', hl, hb, hsame, ?_⟩
  have hflat : lower.flatten =
      "// TODO: a\r\n// DONE 2024-01-02 09:00 by ann\r\n// FIXME: b\r\n// DOING".toList := by
    rw [Except.ok.inj (hl.symm.trans hlower)]
    decide
  refine ⟨hflat, ?_⟩
  rw [hflat] at hb
  rw [Except.ok.inj (hb.symm.trans hboth)]
  decide

end Grammar
end MarkerBoard
