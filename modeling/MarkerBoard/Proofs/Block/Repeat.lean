import MarkerBoard.Proofs.Block.Form
import MarkerBoard.Proofs.Block.Marker
import MarkerBoard.Proofs.Block.Terminator

/-!
# Editing a comment again

An edit takes all status lines away, and the note that it writes is one of them. So of several
edits at one marker only the last one counts: the next edit finds the same comment, takes away what
the one before has written, and puts its own note in its place.

What has to be watched are the terminators. A new line gets that of the marker, and the comment
keeps that of its last line. If the first edit writes nothing, the line that comes last then has the
terminator of a line that is gone. Another note behind it would be in a new place, and this is seen
if the lines of the text do not all end alike.

Main results:

* `Grammar.annotate_nil` — without status lines there is nothing to take away.
* `Grammar.CommentAt.edited` — the comment that the next edit finds.
* `Grammar.edit_edit` — only the last edit counts.
-/
namespace MarkerBoard

/-! ## Lines with new terminators -/

namespace Line

variable {terminator line : Text}

/-- The line with its own terminator, or with the given one if it has none. -/
def renew (terminator line : Text) : Text := body line ++ (parts terminator line).2

theorem isEol_of_mem_parts (ht : ∀ c ∈ terminator, isEol c = true) (line : Text) :
    ∀ c ∈ (parts terminator line).2, isEol c = true := by
  rw [parts]
  split
  · exact ht
  · exact fun c => isEol_of_mem_ending

theorem body_renew (ht : ∀ c ∈ terminator, isEol c = true) (line : Text) :
    body (renew terminator line) = body line :=
  body_append (endsOutside_body line) (isEol_of_mem_parts ht line)

theorem ending_renew (ht : ∀ c ∈ terminator, isEol c = true) (line : Text) :
    ending (renew terminator line) = (parts terminator line).2 :=
  ending_append (endsOutside_body line) (isEol_of_mem_parts ht line)

/-- A line that has a terminator keeps it. -/
theorem parts_renew (ht : ∀ c ∈ terminator, isEol c = true) (line : Text) :
    parts terminator (renew terminator line) = parts terminator line := by
  have hending := ending_renew ht line
  have hbody := body_renew ht line
  by_cases hnil : ending line = []
  · -- then the line has been given the terminator, which it is given again, or has
    have hsecond : (parts terminator line).2 = terminator := by rw [parts, if_pos hnil]
    rw [parts, parts, hending, hbody, hsecond, if_pos hnil, ite_self]
  · have hsecond : (parts terminator line).2 = ending line := by rw [parts, if_neg hnil]
    rw [parts, parts, hending, hbody, hsecond]

/-- A line that has a terminator stays as it is. -/
theorem renew_eq_self (h : ending line ≠ []) : renew terminator line = line := by
  rw [renew, parts, if_neg h]
  exact body_append_ending line

theorem renew_of_ended (h : Ended line) : renew terminator line = line :=
  renew_eq_self h.ending_ne_nil

/-- The line has no terminator but a line feed. -/
def IsPlain (line : Text) : Prop := ending line = [] ∨ ending line = ['\n']

/-- In a text without carriage returns there are no other lines. -/
theorem isPlain_of_mem_split {text : Text} (h : '\r' ∉ text) (hl : line ∈ split text) :
    IsPlain line := by
  have hcr : '\r' ∉ line := fun hc => h (by
    rw [← flatten_split text]
    exact List.mem_flatten_of_mem hl hc)
  have hwhole : Whole line := whole_of_mem_split (fun hlast => h (List.mem_of_getLast? hlast)) hl
  refine hwhole.ending_eq_nil_or.imp_right ?_
  rintro ⟨t, ht, hending⟩
  -- what stands before the line feed could only be carriage returns
  cases t with
  | nil => exact hending
  | cons c t =>
    have hc : c ∈ ending line := by
      rw [hending]
      simp
    have heol := isEol_of_mem_ending hc
    have hline : c ∈ line := by
      rw [← body_append_ending line]
      exact List.mem_append_right _ hc
    rw [isEol, Bool.or_eq_true, beq_iff_eq, beq_iff_eq] at heol
    rcases heol with rfl | rfl
    · exact absurd List.mem_cons_self ht
    · exact absurd hline hcr

/-- With line feeds for terminators, only the texts of plain lines matter. -/
theorem map_parts_of_isPlain {lines : List Text} (h : ∀ l ∈ lines, IsPlain l) :
    lines.map (parts ['\n']) = (lines.map body).map (·, ['\n']) := by
  rw [List.map_map]
  refine List.map_congr_left fun l hl => ?_
  rw [parts]
  rcases h l hl with hnil | hlf
  · rw [if_pos hnil]
    rfl
  · rw [hlf]
    rfl

end Line

/-! ## The new comment -/

namespace Grammar

variable {g : Grammar} {opener note text terminator : Text} {lines before own after : List Text}
  {number : Int} {marker : Text} {m : MarkerLine}

/-- A comment is cut into lines as the text is. -/
theorem CommentAt.isCut (h : g.CommentAt opener (Line.split text) number before marker own after m) :
    Line.IsCut (marker :: own) := by
  have hsplit := h.lines_eq ▸ Line.isCut_split text
  rw [Line.isCut_append_iff (by simp), ← List.cons_append] at hsplit
  exact hsplit.2.of_append

/-- Which lines are kept depends on their texts. -/
theorem map_body_keptLines (g : Grammar) (own : List Text) : (g.keptLines own).map Line.body =
    (own.map Line.body).filter fun t => (g.statusLine? t).isNone := by
  rw [List.filter_map]
  congr 1
  refine List.filter_congr fun l _ => ?_
  simp [isStatusLine]

/-- Without a note, the last line that is kept gets the terminator of the comment. -/
theorem annotate_nil_of_concat {init : List Text} {l : Text} (hinit : ∀ k ∈ init, Line.Ended k)
    (hkept : marker :: g.keptLines own = init ++ [l]) (terminator : Text) :
    g.annotate [] terminator marker own =
      init ++ [Line.body l ++ Line.ending (own.getLastD marker)] := by
  rw [annotate_eq, hkept]
  -- all lines but the last one are ended
  show Line.assemble _ ((init ++ [l]).map _ ++ []) = _
  rw [List.append_nil, List.map_append, List.map_singleton, Line.assemble_concat, List.map_map]
  congr 1
  refine (List.map_congr_left fun k hk => ?_).trans (List.map_id init)
  exact Line.renew_of_ended (hinit k hk)

/-- A comment without status lines is what an edit without a note makes of it. -/
theorem annotate_nil (hcut : Line.IsCut (marker :: own)) (hkept : g.keptLines own = own)
    (terminator : Text) : g.annotate [] terminator marker own = marker :: own := by
  obtain ⟨init, l, hinit⟩ := (List.eq_nil_or_concat' (marker :: own)).resolve_left (by simp)
  rw [hinit, Line.isCut_append_iff (by simp)] at hcut
  -- the last line gets its own terminator
  rw [annotate_nil_of_concat hcut.1 (hkept.symm ▸ hinit), getLastD_eq_of_cons hinit,
    Line.body_append_ending, hinit]

/-- With a note, all other lines of a comment get terminators. -/
theorem annotate_of_ne_nil (hnote : note ≠ []) : g.annotate note terminator marker own =
    (marker :: g.keptLines own).map (Line.renew terminator) ++
      [indent marker ++ note ++ Line.ending (own.getLastD marker)] := by
  rw [annotate_eq, addedTexts, if_neg hnote, List.map_singleton, Line.assemble_concat,
    List.map_map]
  rfl

/-- The comment keeps the terminator of its last line. -/
theorem ending_getLastD_annotate {marker' : Text} {own' : List Text}
    (hn : Text.EndsOutside Line.isEol note)
    (h : g.annotate note terminator marker own = marker' :: own') :
    Line.ending (own'.getLastD marker') = Line.ending (own.getLastD marker) := by
  rw [annotate_eq] at h
  set parts := (marker :: g.keptLines own).map (Line.parts terminator) ++
    (addedTexts note marker).map (·, terminator) with hparts
  have hbodies : ∀ p ∈ parts, Text.EndsOutside Line.isEol p.1 :=
    forall_parts (fun l _ => Line.endsOutside_body l)
      fun hne => Text.endsOutside_append hne hn
  obtain ⟨init, p, hp⟩ := (List.eq_nil_or_concat' parts).resolve_left (by simp [hparts])
  rw [hp, Line.assemble_concat] at h
  rw [getLastD_eq_of_cons h.symm]
  exact Line.ending_append (hbodies p (by simp [hp])) fun c => Line.isEol_of_mem_ending

/-! ## What moves write -/

/-- What moves write at the end of a comment: nothing, or the note of a column at some time and by
a user with a name on one line. -/
def IsMoveNote (g : Grammar) (opener note : Text) : Prop :=
  note = [] ∨ ∃ name ∈ g.names, ∃ (time : Moment) (user : Text), ('\n' ∉ user ∧ '\r' ∉ user) ∧
    note = Comment.note opener name time user

/-- A written note is a status line, whatever its time and its user are. -/
theorem isSome_statusLine?_note {name indent : Text} (hname : name ∈ g.names)
    (ho : opener ∈ Comment.openers) (hi : ∀ c ∈ indent, Text.isBlank c = true) (time : Moment)
    (user : Text) : (g.statusLine? (indent ++ Comment.note opener name time user)).isSome := by
  rw [Comment.note_eq]
  -- a space stands before the name, and white space follows it
  exact isSome_statusLine?_iff.2 ⟨opener, ho, indent, [' '], name, List.mem_append_right _ hname, _,
    rfl, hi, by decide, isSome_statusEnd?_of_blank (by decide) _⟩

namespace IsMoveNote

theorem oneLine (hg : g.Plain) (ho : opener ∈ Comment.openers) (h : g.IsMoveNote opener note) :
    '\n' ∉ note ∧ '\r' ∉ note := by
  rcases h with rfl | ⟨name, hname, time, user, huser, rfl⟩
  · simp
  · exact Line.forall_isEol_iff.1 (Comment.isEol_of_mem_note time ho (hg.isEol_of_mem_name hname)
      (Line.forall_isEol_iff.2 huser))

/-- The line that a move adds is a status line of the comment, and no marker. -/
theorem of_mem_addedTexts (hg : g.Plain) (ho : opener ∈ Comment.openers)
    (h : g.IsMoveNote opener note) {t : Text} (ht : t ∈ addedTexts note marker) :
    Comment.isOwn opener t = true ∧ g.marker? t = none ∧ (g.statusLine? t).isSome := by
  rcases h with rfl | ⟨name, hname, time, user, -, rfl⟩
  · exact absurd ht List.not_mem_nil
  · rw [addedTexts, if_neg (Comment.note_ne_nil _ _ _ _), List.mem_singleton] at ht
    subst ht
    have hi := isBlank_of_mem_indent marker
    exact ⟨isOwn_note ho hi, marker?_note hg hname ho hi time user,
      isSome_statusLine?_note hname ho hi time user⟩

end IsMoveNote

/-! ## Editing again -/

/-- The comment that the next edit finds in the new text. -/
theorem CommentAt.edited (hcr : text.getLast? ≠ some '\r') (hn : '\n' ∉ note ∧ '\r' ∉ note)
    (h : g.CommentAt opener (Line.split text) number before marker own after m)
    (ha : ∀ t ∈ addedTexts note marker, Comment.isOwn opener t = true ∧ g.marker? t = none)
    {new : List Text}
    (hnew : new = before ++ g.annotate note (terminatorFor (Line.split text) marker) marker own ++
      after) :
    ∃ marker' own', g.annotate note (terminatorFor (Line.split text) marker) marker own =
        marker' :: own' ∧
      Line.body marker' = Line.body marker ∧
      own'.map Line.body = (g.keptLines own).map Line.body ++ addedTexts note marker ∧
      Line.split new.flatten = new ∧
      g.CommentAt opener (Line.split new.flatten) number before marker' own' after m := by
  have hsplit : Line.split new.flatten = new := hnew ▸ Line.split_flatten (isCut_edited hcr hn.1 h)
  obtain ⟨marker', own', hannotate, hmarker, hown, hat⟩ := h.annotated hn ha
  refine ⟨marker', own', hannotate, hmarker, hown, hsplit, ?_⟩
  rwa [hsplit, hnew]

/-- The lines that the next edit keeps are those that were kept. -/
theorem map_body_keptLines_edited {own' : List Text}
    (ha : ∀ t ∈ addedTexts note marker, (g.statusLine? t).isSome)
    (hown : own'.map Line.body = (g.keptLines own).map Line.body ++ addedTexts note marker) :
    (g.keptLines own').map Line.body = (g.keptLines own).map Line.body := by
  have hadded : (addedTexts note marker).filter (fun t => (g.statusLine? t).isNone) = [] := by
    rw [List.filter_eq_nil_iff]
    intro t ht
    rw [Option.isNone_eq_false_iff.2 (ha t ht)]
    simp
  rw [map_body_keptLines, hown, List.filter_append, hadded, List.append_nil, map_body_keptLines,
    List.filter_filter]
  simp

theorem indent_congr {marker' : Text} (h : Line.body marker' = Line.body marker) :
    indent marker' = indent marker := by
  rw [indent, indent, h]

theorem terminatorFor_ne_nil (lines : List Text) (marker : Text) :
    terminatorFor lines marker ≠ [] := by
  rw [terminatorFor]
  split
  · rw [Line.firstEnding]
    cases hfind : (lines.map Line.ending).find? (· ≠ []) with
    | none => simp
    | some e => simpa using List.find?_some hfind
  · assumption

/-- The marker has the terminator that new lines get, or gets it itself. -/
theorem parts_terminatorFor (lines : List Text) (marker : Text) :
    (Line.parts (terminatorFor lines marker) marker).2 = terminatorFor lines marker := by
  rw [Line.parts]
  split
  · rfl
  · next hne =>
    rw [terminatorFor]
    split
    · next hnil => exact absurd hnil hne
    · rfl

/-- In lines that end in line feeds, so do new lines. -/
theorem terminatorFor_of_isPlain (h : ∀ l ∈ lines, Line.IsPlain l) (hm : marker ∈ lines) :
    terminatorFor lines marker = ['\n'] := by
  rw [terminatorFor]
  split
  · exact (Line.firstEnding_of_endsIn h).elim id And.left
  · next hne => exact (h marker hm).resolve_left hne

section Again

variable {new : List Text}

/-- After an edit with a note, every kept line has got its terminator, and the next edit finds what
it would have found at first. -/
theorem annotate_of_edited (hg : g.Plain) (ho : opener ∈ Comment.openers)
    (hnote : g.IsMoveNote opener note) (hne : note ≠ []) {marker' : Text} {own' : List Text}
    (hannotate : g.annotate note (terminatorFor lines marker) marker own = marker' :: own')
    (lines' : List Text) (note' : Text) :
    g.annotate note' (terminatorFor lines' marker') marker' own' =
      g.annotate note' (terminatorFor lines marker) marker own := by
  set t := terminatorFor lines marker with ht
  have heol : ∀ c ∈ t, Line.isEol c = true := fun c => isEol_of_mem_terminatorFor
  have hlast := ending_getLastD_annotate (ScanContext.endsOutside_note (hnote.oneLine hg ho)) hannotate
  rw [annotate_of_ne_nil hne, List.map_cons, List.cons_append, List.cons.injEq] at hannotate
  obtain ⟨rfl, rfl⟩ := hannotate
  have hbody : Line.body (Line.renew t marker) = Line.body marker := Line.body_renew heol marker
  -- the new marker has a terminator, the same one as all new lines
  have hterminator : terminatorFor lines' (Line.renew t marker) = t := by
    have hending : Line.ending (Line.renew t marker) = t := by
      rw [Line.ending_renew heol, ht, parts_terminatorFor]
    rw [terminatorFor, hending]
    have htne : t ≠ [] := terminatorFor_ne_nil lines marker
    clear_value t
    split
    · exact absurd rfl htne
    · rfl
  -- the kept lines are no status lines still, but the note is one
  have hkept : g.keptLines ((g.keptLines own).map (Line.renew t) ++
      [indent marker ++ note ++ Line.ending (own.getLastD marker)]) =
        (g.keptLines own).map (Line.renew t) := by
    have hstatus : g.isStatusLine (indent marker ++ note ++ Line.ending (own.getLastD marker)) =
        true := by
      have hoff := ScanContext.endsOutside_note (hnote.oneLine hg ho)
      rw [isStatusLine, Line.body_append (Text.endsOutside_append hne hoff)
        fun c => Line.isEol_of_mem_ending]
      have hadded : indent marker ++ note ∈ addedTexts note marker := by
        rw [addedTexts, if_neg hne]
        exact List.mem_singleton_self _
      exact (hnote.of_mem_addedTexts hg ho hadded).2.2
    rw [keptLines, List.filter_append, List.filter_cons_of_neg (by rw [hstatus]; simp),
      List.filter_nil, List.append_nil, List.filter_eq_self]
    intro l hl
    obtain ⟨k, hk, rfl⟩ := List.mem_map.1 hl
    rw [isStatusLine, Line.body_renew heol]
    exact (List.mem_filter.1 hk).2
  have hparts : (Line.renew t marker :: (g.keptLines own).map (Line.renew t)).map (Line.parts t) =
      (marker :: g.keptLines own).map (Line.parts t) := by
    rw [← List.map_cons, List.map_map]
    exact List.map_congr_left fun l _ => Line.parts_renew heol l
  rw [hterminator, annotate_eq, annotate_eq, hlast, hkept, hparts, addedTexts, addedTexts,
    indent_congr hbody]

/-- If only line feeds end lines, the next edit gives every line the terminator that the first one
would have given it. -/
theorem annotate_of_isPlain (hplain : ∀ l ∈ lines, Line.IsPlain l)
    (hlines : lines = before ++ marker :: (own ++ after)) (hn : '\n' ∉ note ∧ '\r' ∉ note)
    (ha : ∀ t ∈ addedTexts note marker, (g.statusLine? t).isSome) {marker' : Text}
    {own' : List Text}
    (hannotate : g.annotate note (terminatorFor lines marker) marker own = marker' :: own')
    (hbody : Line.body marker' = Line.body marker)
    (hown : own'.map Line.body = (g.keptLines own).map Line.body ++ addedTexts note marker)
    {lines' : List Text} (hlines' : lines' = before ++ marker' :: (own' ++ after)) (note' : Text) :
    g.annotate note' (terminatorFor lines' marker') marker' own' =
      g.annotate note' (terminatorFor lines marker) marker own := by
  have hmem : ∀ l ∈ marker :: own, l ∈ lines := by
    intro l hl
    rw [hlines, ← List.cons_append]
    exact List.mem_append_right _ (List.mem_append_left _ hl)
  have ht := terminatorFor_of_isPlain hplain (hmem marker List.mem_cons_self)
  have hlast := ending_getLastD_annotate (ScanContext.endsOutside_note hn) hannotate
  have hkept := map_body_keptLines_edited ha hown
  -- the lines of the new comment are plain, and so are all lines of the new text
  have hnew : ∀ l ∈ marker' :: own', Line.IsPlain l := by
    rw [← hannotate, ht]
    exact endsIn_annotate (by decide) hn fun l hl => hplain l (hmem l hl)
  have hplain' : ∀ l ∈ lines', Line.IsPlain l := by
    intro l hl
    rw [hlines', ← List.cons_append, List.mem_append, List.mem_append] at hl
    rcases hl with hl | hl | hl
    · exact hplain l (by rw [hlines]; exact List.mem_append_left _ hl)
    · exact hnew l hl
    · exact hplain l (by rw [hlines]; simp [hl])
  have ht' : terminatorFor lines' marker' = ['\n'] :=
    terminatorFor_of_isPlain hplain' (by rw [hlines']; simp)
  -- so the parts of both comments are the texts of their lines with line feeds
  have hparts : (marker' :: g.keptLines own').map (Line.parts ['\n']) =
      (marker :: g.keptLines own).map (Line.parts ['\n']) := by
    have hold : ∀ l ∈ marker :: g.keptLines own, Line.IsPlain l := fun l hl =>
      hplain l (hmem l (g.cons_keptLines_subset marker own hl))
    have hnext : ∀ l ∈ marker' :: g.keptLines own', Line.IsPlain l := fun l hl =>
      hnew l (g.cons_keptLines_subset marker' own' hl)
    rw [Line.map_parts_of_isPlain hold, Line.map_parts_of_isPlain hnext,
      List.map_cons (f := Line.body), List.map_cons (f := Line.body), hkept, hbody]
  rw [annotate_eq, annotate_eq, ht, ht', hlast, hparts, addedTexts, addedTexts, indent_congr hbody]

/-- The next edit writes what it would have written at first. If the first one has written nothing,
this takes that nothing is written again or that only line feeds end lines. -/
theorem annotate_again (hg : g.Plain) (ho : opener ∈ Comment.openers)
    (hcr : text.getLast? ≠ some '\r') (hnote : g.IsMoveNote opener note)
    (h : g.CommentAt opener (Line.split text) number before marker own after m)
    (hnew : new = before ++ g.annotate note (terminatorFor (Line.split text) marker) marker own ++
      after) :
    ∃ marker' own', Line.split new.flatten = new ∧
      g.CommentAt opener (Line.split new.flatten) number before marker' own' after m ∧
      ∀ note', note ≠ [] ∨ note' = [] ∨ '\r' ∉ text →
        g.annotate note' (terminatorFor (Line.split new.flatten) marker') marker' own' =
          g.annotate note' (terminatorFor (Line.split text) marker) marker own := by
  have ha : ∀ t ∈ addedTexts note marker, _ := fun t => hnote.of_mem_addedTexts hg ho
  obtain ⟨marker', own', hannotate, hbody, hown, hsplit, hat⟩ :=
    h.edited hcr (hnote.oneLine hg ho) (fun t ht => ⟨(ha t ht).1, (ha t ht).2.1⟩) hnew
  refine ⟨marker', own', hsplit, hat, ?_⟩
  intro note' hlast
  by_cases hne : note = []
  swap
  · exact annotate_of_edited hg ho hnote hne hannotate _ _
  have hstatus : ∀ t ∈ addedTexts note marker, (g.statusLine? t).isSome := fun t ht =>
    (ha t ht).2.2
  rcases hlast with hn | rfl | hplain
  · exact absurd hne hn
  · -- nothing is written twice, and the first edit has left no status line
    subst hne
    have hkept : g.keptLines own' = own' := by
      rw [keptLines, List.filter_eq_self]
      intro l hl
      have hl : Line.body l ∈ own'.map Line.body := List.mem_map_of_mem hl
      rw [hown, addedTexts, if_pos rfl, List.append_nil, map_body_keptLines] at hl
      rw [isStatusLine, Bool.not_eq_true', Option.isSome_eq_false_iff]
      exact (List.mem_filter.1 hl).2
    rw [annotate_nil hat.isCut hkept, hannotate]
  · exact annotate_of_isPlain (fun l => Line.isPlain_of_mem_split hplain) h.lines_eq
      (hnote.oneLine hg ho) hstatus hannotate hbody hown hat.lines_eq note'

end Again

/-- Of two edits at a marker only the last one counts. It writes, byte for byte, what it would have
written alone, if the first one has written a note, or the second one does not, or no carriage
return ends a line. So an edit that is repeated changes nothing, and a comment without status lines
gets its text back when its note is taken away again. -/
theorem edit_edit {note' keyword title : Text} (hg : g.Plain) (ho : opener ∈ Comment.openers)
    (hcr : text.getLast? ≠ some '\r') (hnote : g.IsMoveNote opener note)
    (hnote' : g.IsMoveNote opener note')
    (hmarker : g.MarkerAt (Line.split text) number keyword title)
    {expected : Option (Text × Text)} (he : ∀ e ∈ expected, e = (keyword, title)) :
    ∃ first again second direct,
      g.edit opener note expected number (Line.split text) = .ok first ∧
      g.edit opener note expected number (Line.split first.flatten) = .ok again ∧
      g.edit opener note' expected number (Line.split first.flatten) = .ok second ∧
      g.edit opener note' expected number (Line.split text) = .ok direct ∧
      again.flatten = first.flatten ∧
      (note ≠ [] ∨ note' = [] ∨ '\r' ∉ text → second.flatten = direct.flatten) ∧
      (note' = [] → (∀ l ∈ g.ownLines opener ((Line.split text).drop number.toNat),
        g.isStatusLine l = false) → second.flatten = text) := by
  -- the comment at the marker
  obtain ⟨hnumber, marker, m, hline, hm, rfl, rfl⟩ := hmarker
  obtain ⟨hlt, hget⟩ := List.getElem?_eq_some_iff.1 hline
  have hdrop := List.drop_eq_getElem_cons hlt
  rw [hget] at hdrop
  have hat : g.CommentAt opener (Line.split text) number _ marker _ _ m :=
    commentAt_of_drop (by omega) hdrop hm
  have hnext : (number - 1).toNat + 1 = number.toNat := by omega
  rw [hnext] at hat
  -- and the one that the next edit finds there
  obtain ⟨marker', own', -, hat', hagain⟩ := annotate_again hg ho hcr hnote hat rfl
  refine ⟨_, _, _, _, edit_of_commentAt hat he, edit_of_commentAt hat' he,
    edit_of_commentAt hat' he, edit_of_commentAt hat he, ?_, ?_, ?_⟩
  · rw [hagain note (or_iff_not_imp_left.2 fun h => .inl (not_not.1 h))]
  · intro hlast
    rw [hagain note' hlast]
  · rintro rfl hstatus
    have hkept : g.keptLines (g.ownLines opener ((Line.split text).drop number.toNat)) =
        g.ownLines opener ((Line.split text).drop number.toNat) := by
      rw [keptLines, List.filter_eq_self]
      intro l hl
      rw [hstatus l hl]
      rfl
    rw [hagain [] (.inr (.inl rfl)), annotate_nil hat.isCut hkept, List.append_assoc, List.cons_append,
      ← hat.lines_eq, Line.flatten_split]

/-- A text in which two lines end in different ways, and the last one not at all. -/
def sampleMixed : Text := "x\n// TODO: a\r\n// b".toList

/-- The note of a column in the sample text. -/
def sampleNote : Text := Comment.note "//".toList "DONE".toList Moment.first "ann".toList

set_option maxRecDepth 4000 in
theorem edit_edit_sampleMixed :
    ∃ first again second direct,
      (ofSettings ScanContext.sampleBoard).edit "//".toList sampleNote none 2
        (Line.split sampleMixed) = .ok first ∧
      (ofSettings ScanContext.sampleBoard).edit "//".toList sampleNote none 2
        (Line.split first.flatten) = .ok again ∧
      (ofSettings ScanContext.sampleBoard).edit "//".toList [] none 2
        (Line.split first.flatten) = .ok second ∧
      (ofSettings ScanContext.sampleBoard).edit "//".toList [] none 2
        (Line.split sampleMixed) = .ok direct ∧
      again.flatten = first.flatten ∧ second.flatten = direct.flatten ∧
      second.flatten = sampleMixed ∧
      first.flatten = "x\n// TODO: a\r\n// b\r\n// DONE 1-01-01 00:00 by ann".toList := by
  have hnote : (ofSettings ScanContext.sampleBoard).IsMoveNote "//".toList sampleNote :=
    .inr ⟨"DONE".toList, by decide, Moment.first, "ann".toList, by decide, rfl⟩
  have hmarker : (ofSettings ScanContext.sampleBoard).MarkerAt (Line.split sampleMixed) 2
      "TODO".toList "a".toList :=
    ⟨by decide, "// TODO: a\r\n".toList, _, by decide, by cbv, by decide, by decide⟩
  have hfirst : (ofSettings ScanContext.sampleBoard).edit "//".toList sampleNote none 2
      (Line.split sampleMixed) = .ok ["x\n".toList, "// TODO: a\r\n".toList, "// b\r\n".toList,
        "// DONE 1-01-01 00:00 by ann".toList] := by cbv
  have hown : (ofSettings ScanContext.sampleBoard).ownLines "//".toList
      ((Line.split sampleMixed).drop (Int.toNat 2)) = ["// b".toList] := by cbv
  have hstatus : (ofSettings ScanContext.sampleBoard).isStatusLine "// b".toList = false := by cbv
  obtain ⟨first, again, second, direct, h, hagain, hsecond, hdirect, hrepeat, hlast, hback⟩ :=
    edit_edit ⟨by decide, by decide, by decide, by decide, by decide, by decide⟩ (by decide)
      (by decide) hnote (.inl rfl) hmarker (fun e he => absurd he (Option.not_mem_none e))
  refine ⟨first, again, second, direct, h, hagain, hsecond, hdirect, hrepeat,
    hlast (.inr (.inl rfl)), hback rfl fun l hl => ?_, ?_⟩
  · rw [hown, List.mem_singleton] at hl
    rw [hl, hstatus]
  rw [Except.ok.inj (h.symm.trans hfirst)]
  decide

end Grammar
end MarkerBoard
