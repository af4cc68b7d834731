import MarkerBoard.Proofs.Block.Form
import MarkerBoard.Proofs.Block.Repeat
import MarkerBoard.Proofs.Stripped

/-!
# Line endings in an edit

An edit tells a terminator from the text of its line: it gives new lines one, and the comment keeps
the one that its last line had. Two things follow that may surprise.

A carriage return at the very end of a text counts as a terminator, though only a line feed ends a
line. A note that comes behind it stands on the same line. Everywhere else the new lines are those
of the new text.

If a comment loses its last line and gets no note, the line before it becomes the last one and takes
the terminator of the lost one. All other lines that are kept stay as they are, with their
terminators, if the text ends in a line feed.

Main results:

* `Grammar.CommentAt.split_flatten_of_cr` — a note behind a carriage return.
* `Grammar.split_flatten_edit` — when the lines after an edit are those of the new text.
* `Grammar.terminators_of_edit` — what the lines end in after an edit.
-/
namespace MarkerBoard.Grammar

open ScanContext (getLast?_append_eq_iff getLast?_edited_eq_iff sampleBoard)

variable {g : Grammar} {opener note text : Text} {before own after : List Text} {number : Int}
  {marker : Text} {m : MarkerLine}

/-- With a note, the kept lines of a comment stay as they are if they have terminators. -/
theorem annotate_of_forall_ending (hnote : note ≠ [])
    (hkept : ∀ l ∈ marker :: g.keptLines own, Line.ending l ≠ []) (terminator : Text) :
    g.annotate note terminator marker own = marker :: g.keptLines own ++
      [indent marker ++ note ++ Line.ending (own.getLastD marker)] := by
  rw [annotate_of_ne_nil hnote]
  congr 1
  exact (List.map_congr_left fun l hl => Line.renew_eq_self (hkept l hl)).trans (List.map_id _)

/-! ## Lines that stay apart -/

/-- A kept line that ends in a carriage return is the last line of the text. -/
theorem CommentAt.exists_kept_eq_of_cr {k : Text}
    (h : g.CommentAt opener (Line.split text) number before marker own after m)
    (hk : k ∈ marker :: g.keptLines own) (hcr : k.getLast? = some '\r') :
    ∃ init, marker :: g.keptLines own = init ++ [k] ∧ (∀ l ∈ before ++ init, Line.Ended l) ∧
      Line.Open k ∧ own.getLastD marker = k ∧ after = [] := by
  have hnot : ¬ Line.Ended k := by
    rintro ⟨t, -, rfl⟩
    simp at hcr
  obtain ⟨init, l, hlines⟩ := (List.eq_nil_or_concat' (marker :: own)).resolve_left (by simp)
  obtain ⟨hbefore, hinit, hlast⟩ := h.isCut_of_concat hlines
  -- all lines of the comment but the last one are ended
  have hkl : k = l := by
    have hmem : k ∈ marker :: own := g.cons_keptLines_subset marker own hk
    rw [hlines, List.mem_append, List.mem_singleton] at hmem
    exact hmem.resolve_left fun hmem => hnot (hinit k hmem)
  subst hkl
  have hafter : after = [] := by
    by_contra hne
    rw [Line.isCut_append_iff hne] at hlast
    exact hnot (hlast.1 k (List.mem_singleton_self k))
  rw [hafter, List.append_nil, Line.isCut_singleton_iff] at hlast
  obtain ⟨kept, k', heq, hsub⟩ := exists_kept_eq_concat g hlines
  have hkk : k = k' := by
    rw [heq, List.mem_append, List.mem_singleton] at hk
    exact hk.resolve_left fun hmem => hnot (hinit k (hsub hmem))
  subst hkk
  refine ⟨kept, heq, fun l hl => ?_, hlast.resolve_left hnot, getLastD_eq_of_cons hlines, hafter⟩
  exact (List.mem_append.1 hl).elim (hbefore l) fun hl => hinit l (hsub hl)

/-- A note behind a line that ends in a carriage return stands on the same line. -/
theorem CommentAt.split_flatten_of_cr {k : Text} (hnote : note ≠ []) (hn : '\n' ∉ note)
    (h : g.CommentAt opener (Line.split text) number before marker own after m)
    (hk : k ∈ marker :: g.keptLines own) (hcr : k.getLast? = some '\r') (terminator : Text) :
    ∃ init n, before ++ g.annotate note terminator marker own ++ after = init ++ [k, n] ∧
      Line.split (init ++ [k, n]).flatten = init ++ [k ++ n] := by
  obtain ⟨init, heq, hended, hopen, hlast, hafter⟩ := h.exists_kept_eq_of_cr hk hcr
  have hending : Line.ending k ≠ [] := by
    intro hnil
    rw [← Line.body_append_ending k, getLast?_append_eq_iff (by decide) (Line.endsOutside_body k),
      hnil] at hcr
    cases hcr
  have hkept : ∀ l ∈ marker :: g.keptLines own, Line.ending l ≠ [] := by
    intro l hl
    rw [heq, List.mem_append, List.mem_singleton] at hl
    rcases hl with hl | rfl
    · exact (hended l (List.mem_append_right _ hl)).ending_ne_nil
    · exact hending
  have hline : '\n' ∉ indent marker ++ note ++ Line.ending k := by
    have hmarker : Line.Ended marker ∨ Line.Open marker := by
      have hmem : marker ∈ init ++ [k] := heq ▸ List.mem_cons_self
      rcases List.mem_append.1 hmem with hmem | hmem
      · exact .inl (hended marker (List.mem_append_right _ hmem))
      · exact .inr (List.mem_singleton.1 hmem ▸ hopen)
    have hindent : '\n' ∉ indent marker := fun hc =>
      Line.not_mem_body hmarker ((List.takeWhile_prefix _).subset hc)
    have hend : '\n' ∉ Line.ending k := fun hc =>
      hopen.2 (Line.body_append_ending k ▸ List.mem_append_right _ hc)
    simp [hindent, hn, hend]
  refine ⟨before ++ init, indent marker ++ note ++ Line.ending k, ?_, ?_⟩
  · rw [annotate_of_forall_ending hnote hkept, hlast, heq, hafter]
    simp
  · -- put together, the two lines are an open line
    have hcut : Line.IsCut (before ++ init ++ [k ++ (indent marker ++ note ++ Line.ending k)]) := by
      refine (Line.isCut_append_iff (by simp)).2 ⟨hended, Line.isCut_singleton_iff.2 (.inr ?_)⟩
      exact ⟨by simp [hopen.1], by rw [List.mem_append, not_or]; exact ⟨hopen.2, hline⟩⟩
    rw [← Line.split_flatten hcut]
    simp

/-- After an edit without line breaks in its note, the new lines are those of the new text, unless a
note has come behind a carriage return: then the last two of them are one line. The new text ends
in a line feed just if the text did. -/
theorem split_flatten_edit {expected : Option (Text × Text)} {new : List Text}
    (hn : '\n' ∉ note ∧ '\r' ∉ note)
    (h : g.edit opener note expected number (Line.split text) = .ok new) :
    (Line.split new.flatten = new ↔
      note = [] ∨ ∀ l ∈ g.keptComment opener (Line.split text) number, l.getLast? ≠ some '\r') ∧
    (note ≠ [] → ∀ l ∈ g.keptComment opener (Line.split text) number, l.getLast? = some '\r' →
      ∃ init n, new = init ++ [l, n] ∧ Line.split new.flatten = init ++ [l ++ n]) ∧
    (new.flatten.getLast? = some '\n' ↔ text.getLast? = some '\n') := by
  obtain ⟨before, marker, own, after, m, hat, -, rfl⟩ := edit_eq_ok_iff.1 h
  rw [hat.keptComment_eq]
  have hglued : note ≠ [] → ∀ l ∈ marker :: g.keptLines own, l.getLast? = some '\r' → _ :=
    fun hnote l hl hcr => hat.split_flatten_of_cr hnote hn.1 hl hcr
      (terminatorFor (Line.split text) marker)
  refine ⟨⟨fun hsplit => ?_, fun hkept => ?_⟩, fun hnote l hl hcr => ?_, ?_⟩
  · rw [or_iff_not_imp_left]
    intro hnote l hl hcr
    -- one line too few
    obtain ⟨init, n, hnew, hone⟩ := hglued hnote l hl hcr
    rw [← hnew, hsplit, hnew] at hone
    have := congrArg List.length hone
    simp at this
  · exact Line.split_flatten (isCut_edited_of_kept hn.1 hat fun hnote =>
      hkept.resolve_left hnote)
  · obtain ⟨init, n, hnew, hone⟩ := hglued hnote l hl hcr
    exact ⟨init, n, hnew, hnew ▸ hone⟩
  · exact getLast?_edited_eq_iff (by decide) hn hat

/-- A text that ends in a carriage return, behind a marker. -/
def sampleReturn : Text := "x\n// TODO: a\r".toList

theorem edit_sampleReturn : (ofSettings sampleBoard).edit "//".toList "// DONE".toList none 2
    (Line.split sampleReturn) =
      .ok (["x\n", "// TODO: a\r", "// DONE\r"].map String.toList) := by
  cbv

theorem split_flatten_edit_sampleReturn :
    ∃ new, (ofSettings sampleBoard).edit "//".toList "// DONE".toList none 2
        (Line.split sampleReturn) = .ok new ∧
      (Line.split new.flatten = new ↔ "// DONE".toList = [] ∨
        ∀ l ∈ (ofSettings sampleBoard).keptComment "//".toList (Line.split sampleReturn) 2,
          l.getLast? ≠ some '\r') ∧
      (∃ init n, new = init ++ ["// TODO: a\r".toList, n] ∧
        Line.split new.flatten = init ++ ["// TODO: a\r".toList ++ n]) ∧
      (new.flatten.getLast? = some '\n' ↔ sampleReturn.getLast? = some '\n') ∧
      new = ["x\n", "// TODO: a\r", "// DONE\r"].map String.toList := by
  have hkept : (ofSettings sampleBoard).keptComment "//".toList (Line.split sampleReturn) 2 =
      ["// TODO: a\r".toList] := by cbv
  obtain ⟨hsplit, hglued, hlast⟩ := split_flatten_edit (by decide) edit_sampleReturn
  refine ⟨_, edit_sampleReturn, hsplit, hglued (by decide) _ ?_ (by decide), hlast, rfl⟩
  rw [hkept]
  exact List.mem_singleton_self _

/-- The new lines need not be those of the new text. -/
theorem not_split_flatten_sampleReturn :
    ¬ ∀ (text note : Text) (new : List Text), '\n' ∉ note ∧ '\r' ∉ note →
      (ofSettings sampleBoard).edit "//".toList note none 2 (Line.split text) = .ok new →
      Line.split new.flatten = new := by
  intro hall
  exact absurd (hall _ _ _ (by decide) edit_sampleReturn) (by decide)

/-! ## Lines that keep their terminators -/

/-- After an edit of a text that ends in a line feed, all lines that are not taken away stand there
as they were and in their order, and a note is the only new line. Only the last line of a comment
that has lost the line behind it, and has got no note, takes the terminator of that line. -/
theorem terminators_of_edit {expected : Option (Text × Text)} {new : List Text}
    (htext : text.getLast? = some '\n')
    (h : g.edit opener note expected number (Line.split text) = .ok new) :
    ∃ before marker own after m,
      g.CommentAt opener (Line.split text) number before marker own after m ∧
      (note ≠ [] → new = before ++ (marker :: g.keptLines own ++
        [indent marker ++ note ++ Line.ending (own.getLastD marker)]) ++ after) ∧
      (note = [] → (∀ l ∈ own.getLast?, g.isStatusLine l = false) →
        new = before ++ (marker :: g.keptLines own) ++ after) ∧
      (note = [] → ∀ init l, marker :: g.keptLines own = init ++ [l] →
        new = before ++ (init ++ [Line.body l ++ Line.ending (own.getLastD marker)]) ++ after) := by
  obtain ⟨before, marker, own, after, m, hat, -, rfl⟩ := edit_eq_ok_iff.1 h
  have hended : ∀ l ∈ marker :: g.keptLines own, Line.Ended l := fun l hl =>
    Line.ended_of_mem_split htext (hat.kept_mem_lines l hl)
  have hnil : ∀ init l, marker :: g.keptLines own = init ++ [l] →
      g.annotate [] (terminatorFor (Line.split text) marker) marker own =
        init ++ [Line.body l ++ Line.ending (own.getLastD marker)] := fun init l heq =>
    annotate_nil_of_concat (fun k hk => hended k (heq ▸ List.mem_append_left _ hk)) heq _
  refine ⟨before, marker, own, after, m, hat, fun hnote => ?_, ?_, ?_⟩
  · rw [annotate_of_forall_ending hnote fun l hl => (hended l hl).ending_ne_nil]
  · rintro rfl hlast
    -- the last line is kept, and it is the line whose terminator the comment keeps
    obtain ⟨init, hkept⟩ : ∃ init, marker :: g.keptLines own = init ++ [own.getLastD marker] := by
      obtain rfl | ⟨own, l, rfl⟩ := List.eq_nil_or_concat' own
      · exact ⟨[], rfl⟩
      · refine ⟨marker :: g.keptLines own, ?_⟩
        rw [keptLines, List.filter_append, List.getLastD_concat, List.filter_cons_of_pos]
        · rfl
        · rw [hlast l (by simp)]
          rfl
    rw [hnil _ _ hkept, Line.body_append_ending, hkept]
  · rintro rfl init l heq
    rw [hnil init l heq]

/-- A text with two kinds of terminators, and a status line at the end of its comment. -/
def sampleEndings : Text := "// TODO: a\n// b\n// DONE\r\nx\n".toList

theorem edit_sampleEndings : (ofSettings sampleBoard).edit "//".toList [] none 1
    (Line.split sampleEndings) =
      .ok (["// TODO: a\n", "// b\r\n", "x\n"].map String.toList) := by
  cbv

theorem terminators_of_edit_sampleEndings :
    sampleEndings.getLast? = some '\n' ∧
    ∃ new, (ofSettings sampleBoard).edit "//".toList [] none 1 (Line.split sampleEndings) =
        .ok new ∧
      (∃ before marker own after m,
        (ofSettings sampleBoard).CommentAt "//".toList (Line.split sampleEndings) 1 before marker
          own after m ∧
        (([] : Text) ≠ [] → new = before ++ (marker :: (ofSettings sampleBoard).keptLines own ++
          [indent marker ++ [] ++ Line.ending (own.getLastD marker)]) ++ after) ∧
        (([] : Text) = [] → (∀ l ∈ own.getLast?, (ofSettings sampleBoard).isStatusLine l = false) →
          new = before ++ (marker :: (ofSettings sampleBoard).keptLines own) ++ after) ∧
        (([] : Text) = [] → ∀ init l,
          marker :: (ofSettings sampleBoard).keptLines own = init ++ [l] →
          new = before ++ (init ++ [Line.body l ++ Line.ending (own.getLastD marker)]) ++ after)) ∧
      new = ["// TODO: a\n", "// b\r\n", "x\n"].map String.toList := by
  exact ⟨by decide, _, edit_sampleEndings, terminators_of_edit (by decide) edit_sampleEndings, rfl⟩

/-- A line that is not taken away need not keep its terminator. -/
theorem not_forall_mem_sampleEndings :
    ¬ ∀ (text : Text) (new : List Text), text.getLast? = some '\n' →
      (ofSettings sampleBoard).edit "//".toList [] none 1 (Line.split text) = .ok new →
      ∀ l ∈ Line.split text, (ofSettings sampleBoard).isStatusLine l = false → l ∈ new := by
  intro hall
  have hkept : (ofSettings sampleBoard).isStatusLine "// b\n".toList = false := by cbv
  have hmem := hall _ _ (by decide) edit_sampleEndings "// b\n".toList (by decide) hkept
  exact absurd hmem (by decide)

end MarkerBoard.Grammar
