import MarkerBoard.Block.Edit
import MarkerBoard.Proofs.Line.Cut

/-!
# What an edit does

An edit succeeds exactly where the expected marker stands. It replaces the comment of the marker
and leaves the lines around it; the new comment has the marker, the lines of the old comment that
are no status lines, and the note.

Main results:

* `Grammar.edit_eq_ok_iff` — when an edit succeeds, and with what lines.
* `Grammar.map_body_annotate` — the texts of the lines of a new comment.
* `Grammar.isCut_edited_of_kept`, `Grammar.isCut_edited` — the new lines are the lines of a text
  again.
-/
namespace MarkerBoard

namespace Grammar
variable {g : Grammar} {opener note : Text} {lines before own after : List Text}
  {number : Int} {marker : Text} {m : MarkerLine}

/-- Lines around the comment of a marker at a line number. -/
structure CommentAt (g : Grammar) (opener : Text) (lines : List Text) (number : Int)
    (before : List Text) (marker : Text) (own after : List Text) (m : MarkerLine) : Prop where
  lines_eq : lines = before ++ marker :: (own ++ after)
  number_eq : number = before.length + 1
  marker_eq : g.marker? (Line.body marker) = some m
  own_continues : ∀ l ∈ own, g.continues opener l = true
  after_ends : ∀ l ∈ after.head?, g.continues opener l = false

/-- The terminator that new lines get: that of the marker, or of the first line with one. -/
def terminatorFor (lines : List Text) (marker : Text) : Text :=
  match Line.ending marker with
  | [] => Line.firstEnding lines
  | e => e

/-- The lines of a comment are lines of the text. -/
theorem CommentAt.mem_lines (h : g.CommentAt opener lines number before marker own after m) :
    ∀ l ∈ marker :: own, l ∈ lines := by
  intro l hl
  rw [h.lines_eq, ← List.cons_append]
  exact List.mem_append_right _ (List.mem_append_left _ hl)

theorem CommentAt.ownLines_eq (h : g.CommentAt opener lines number before marker own after m) :
    g.ownLines opener (own ++ after) = own := by
  rw [ownLines, List.takeWhile_append_of_pos h.own_continues]
  cases after with
  | nil => simp
  | cons l after =>
    rw [List.takeWhile_cons_of_neg (by simp [h.after_ends l rfl]), List.append_nil]

theorem CommentAt.dropWhile_eq
    (h : g.CommentAt opener lines number before marker own after m) :
    (own ++ after).dropWhile (g.continues opener) = after := by
  rw [List.dropWhile_append_of_pos h.own_continues]
  cases after with
  | nil => rfl
  | cons l after => exact List.dropWhile_cons_of_neg (by simp [h.after_ends l rfl])

/-- The marker stands behind the lines above it. -/
theorem CommentAt.start_eq (h : g.CommentAt opener lines number before marker own after m) :
    (number - 1).toNat = before.length := by
  rw [h.number_eq]
  omega

theorem CommentAt.next_eq (h : g.CommentAt opener lines number before marker own after m) :
    number.toNat = (before ++ [marker]).length := by
  rw [h.number_eq, List.length_append, List.length_singleton]
  omega

theorem CommentAt.take_eq (h : g.CommentAt opener lines number before marker own after m) :
    lines.take (number - 1).toNat = before := by
  rw [h.start_eq, h.lines_eq, List.take_left]

theorem CommentAt.getElem?_eq (h : g.CommentAt opener lines number before marker own after m) :
    lines[(number - 1).toNat]? = some marker := by
  rw [h.start_eq, h.lines_eq, List.getElem?_append_right (Nat.le_refl _), Nat.sub_self,
    List.getElem?_cons_zero]

theorem CommentAt.drop_eq (h : g.CommentAt opener lines number before marker own after m) :
    lines.drop number.toNat = own ++ after := by
  rw [h.lines_eq, List.append_cons, h.next_eq, List.drop_left]

theorem edit_of_commentAt (h : g.CommentAt opener lines number before marker own after m)
    {expected : Option (Text × Text)} (he : ∀ e ∈ expected, e = (m.keyword, m.titleText)) :
    g.edit opener note expected number lines =
      .ok (before ++ g.annotate note (terminatorFor lines marker) marker own ++ after) := by
  have hdrop : lines.drop before.length = marker :: (own ++ after) := by
    rw [h.lines_eq, List.drop_left]
  have htake : lines.take before.length = before := h.start_eq ▸ h.take_eq
  have hexp : expected.all (· = (m.keyword, m.titleText)) = true := by
    rw [Option.all_eq_true]
    intro e h
    simpa using he e h
  have hnumber : ¬ number < 1 := by
    rw [h.number_eq]
    omega
  simp only [edit, h.start_eq, hdrop, hnumber, h.marker_eq, hexp, h.ownLines_eq, htake, if_true,
    if_false, List.drop_left]
  rfl

/-- The comment that an edit finds at a marker. -/
theorem commentAt_of_drop {rest : List Text} (hnumber : ¬ number < 1)
    (hdrop : lines.drop (number - 1).toNat = marker :: rest)
    (hm : g.marker? (Line.body marker) = some m) :
    g.CommentAt opener lines number (lines.take (number - 1).toNat) marker
      (g.ownLines opener rest) (rest.dropWhile (g.continues opener)) m := by
  have hlength : (lines.take (number - 1).toNat).length = (number - 1).toNat := by
    have := congrArg List.length hdrop
    rw [List.length_drop, List.length_cons] at this
    rw [List.length_take]
    omega
  refine ⟨?_, ?_, hm, fun l hl => List.mem_takeWhile_imp hl, ?_⟩
  · rw [ownLines, List.takeWhile_append_dropWhile, ← hdrop, List.take_append_drop]
  · rw [hlength]
    omega
  · intro l hl
    have := List.head?_dropWhile_not (g.continues opener) rest
    rw [Option.mem_def.1 hl] at this
    simpa using this

theorem drop_ownLines (g : Grammar) (opener : Text) (rest : List Text) :
    rest.drop (g.ownLines opener rest).length = rest.dropWhile (g.continues opener) := by
  have hdrop : (g.ownLines opener rest ++ rest.dropWhile (g.continues opener)).drop
      (g.ownLines opener rest).length = rest.dropWhile (g.continues opener) := List.drop_left
  rwa [ownLines, List.takeWhile_append_dropWhile] at hdrop

theorem edit_eq_ok_iff {expected : Option (Text × Text)} {new : List Text} :
    g.edit opener note expected number lines = .ok new ↔
      ∃ before marker own after m, g.CommentAt opener lines number before marker own after m ∧
        (∀ e ∈ expected, e = (m.keyword, m.titleText)) ∧
        new = before ++ g.annotate note (terminatorFor lines marker) marker own ++ after := by
  constructor
  · intro h
    rw [edit] at h
    -- there is a line at the number, it is a marker, and it is the expected one
    split at h
    · simp at h
    next marker rest hdrop =>
    split at h
    · simp at h
    next hnumber =>
    split at h
    · simp at h
    next m hm =>
    split at h
    · next hexp =>
      rw [Option.all_eq_true] at hexp
      refine ⟨_, marker, _, _, m, commentAt_of_drop hnumber hdrop hm,
        fun e he => by simpa using hexp e he, ?_⟩
      rw [← drop_ownLines]
      exact (Except.ok.inj h).symm
    · simp at h
  · rintro ⟨before, marker, own, after, m, hc, he, rfl⟩
    exact edit_of_commentAt hc he

end Grammar

/-! ## Assembling lines -/

namespace Line

theorem assemble_concat (last : Text) (parts : List (Text × Text)) (p : Text × Text) :
    assemble last (parts ++ [p]) = parts.map (fun q => q.1 ++ q.2) ++ [p.1 ++ last] := by
  induction parts with
  | nil => rfl
  | cons q parts ih =>
    cases parts with
    | nil => rfl
    | cons r parts =>
      rw [List.cons_append, List.cons_append, assemble, ← List.cons_append, ih]
      · rfl
      · simp

theorem length_assemble (last : Text) {parts : List (Text × Text)} :
    (assemble last parts).length = parts.length := by
  obtain rfl | ⟨parts, p, rfl⟩ := parts.eq_nil_or_concat'
  · rfl
  · simp [assemble_concat]

theorem map_body_assemble {last : Text} {parts : List (Text × Text)}
    (hp : ∀ p ∈ parts, Text.EndsOutside isEol p.1 ∧ ∀ c ∈ p.2, isEol c = true)
    (hl : ∀ c ∈ last, isEol c = true) :
    (assemble last parts).map body = parts.map Prod.fst := by
  obtain rfl | ⟨parts, p, rfl⟩ := parts.eq_nil_or_concat'
  · rfl
  · rw [assemble_concat, List.map_append, List.map_append, List.map_map]
    congr 1
    · apply List.map_congr_left
      intro q hq
      have := hp q (List.mem_append_left _ hq)
      exact body_append this.1 this.2
    · simp [body_append (hp p (by simp)).1 hl]

/-- Parts that make up the lines of a text: all but the last one have terminators, and the last one
is not empty. -/
def FormLines (parts : List (Text × Text)) : Prop :=
  ∃ front p, parts = front ++ [p] ∧ (∀ q ∈ front, '\n' ∉ q.1 ∧ Ended q.2) ∧ p.1 ≠ [] ∧ '\n' ∉ p.1

/-- An ended line keeps its terminator. -/
theorem ended_parts_of_ended {l : Text} (terminator : Text) (h : Ended l) :
    Ended (parts terminator l).2 := by
  obtain ⟨t, ht, hending⟩ := ended_ending h
  rw [parts, if_neg (by simp [hending])]
  exact ⟨t, ht, hending⟩

/-- A whole line keeps its terminator or gets one. -/
theorem ended_parts_of_whole {terminator l : Text} (ht : Ended terminator) (h : Whole l) :
    Ended (parts terminator l).2 := by
  rw [parts]
  split
  · exact ht
  · next hne => exact h.ending_eq_nil_or.resolve_left hne

theorem formLines_map_parts {lines : List Text} {l : Text} (terminator : Text)
    (hlines : ∀ k ∈ lines, Ended k) (hl : body l ≠ [] ∧ '\n' ∉ body l) :
    FormLines ((lines ++ [l]).map (parts terminator)) := by
  refine ⟨lines.map (parts terminator), parts terminator l, List.map_append, ?_, hl⟩
  intro q hq
  obtain ⟨k, hk, rfl⟩ := List.mem_map.1 hq
  exact ⟨not_mem_body_of_ended (hlines k hk), ended_parts_of_ended terminator (hlines k hk)⟩

theorem formLines_concat {terminator t : Text} {lines : List Text} (hterminator : Ended terminator)
    (hlines : ∀ k ∈ lines, Whole k) (ht : t ≠ [] ∧ '\n' ∉ t) :
    FormLines (lines.map (parts terminator) ++ [(t, terminator)]) := by
  refine ⟨lines.map (parts terminator), (t, terminator), rfl, ?_, ht⟩
  intro q hq
  obtain ⟨k, hk, rfl⟩ := List.mem_map.1 hq
  exact ⟨(hlines k hk).not_mem_body, ended_parts_of_whole hterminator (hlines k hk)⟩

/-- Assembled lines are ended if the last terminator is; otherwise the last line is open. -/
theorem isCut_assemble {last : Text} {parts : List (Text × Text)} (h : FormLines parts)
    (hl : Ended last ∨ '\n' ∉ last) : IsCut (assemble last parts) ∧
      (Ended last → ∀ l ∈ assemble last parts, Ended l) := by
  obtain ⟨parts, p, rfl, hparts, hp⟩ := h
  have hinit : ∀ l ∈ parts.map (fun q => q.1 ++ q.2), Ended l := by
    intro l hl
    obtain ⟨q, hq, rfl⟩ := List.mem_map.1 hl
    exact ended_append (hparts q hq).1 (hparts q hq).2
  have hlast : Ended last → Ended (p.1 ++ last) := ended_append hp.2
  rw [assemble_concat]
  refine ⟨(isCut_append_iff (by simp)).2 ⟨hinit, isCut_singleton_iff.2 ?_⟩, ?_⟩
  · refine hl.imp hlast fun hn => ⟨by simp [hp.1], ?_⟩
    rw [List.mem_append, not_or]
    exact ⟨hp.2, hn⟩
  · intro he l hl
    rcases List.mem_append.1 hl with hl | hl
    · exact hinit l hl
    · rw [List.mem_singleton.1 hl]
      exact hlast he

end Line

/-! ## The new comment -/

namespace Grammar
variable {g : Grammar} {opener note : Text} {lines before own after : List Text}
  {number : Int} {marker : Text} {m : MarkerLine}

/-- The white space in front of a marker. -/
def indent (marker : Text) : Text := (Line.body marker).takeWhile Text.isBlank

/-- The lines of a comment that an edit keeps. -/
def keptLines (g : Grammar) (own : List Text) : List Text :=
  own.filter fun line => !g.isStatusLine line

theorem cons_keptLines_subset (g : Grammar) (marker : Text) (own : List Text) :
    marker :: g.keptLines own ⊆ marker :: own :=
  List.cons_subset_cons _ (List.filter_subset_self _)

/-- The lines that an edit keeps are lines of the text. -/
theorem CommentAt.kept_mem_lines
    (h : g.CommentAt opener lines number before marker own after m) :
    ∀ l ∈ marker :: g.keptLines own, l ∈ lines :=
  fun l hl => h.mem_lines l (g.cons_keptLines_subset marker own hl)

/-- The texts that an edit adds to a comment: that of the note, if there is one. -/
def addedTexts (note marker : Text) : List Text :=
  if note = [] then [] else [indent marker ++ note]

theorem annotate_eq (g : Grammar) (note terminator marker : Text) (own : List Text) :
    g.annotate note terminator marker own =
      Line.assemble (Line.ending (own.getLastD marker))
        ((marker :: g.keptLines own).map (Line.parts terminator) ++
          (addedTexts note marker).map (·, terminator)) := by
  rw [annotate, addedTexts]
  split <;> rfl

theorem length_annotate (g : Grammar) (note terminator marker : Text) (own : List Text) :
    (g.annotate note terminator marker own).length =
      1 + (g.keptLines own).length + (addedTexts note marker).length := by
  rw [annotate_eq, Line.length_assemble]
  simp
  omega

/-- A line of the marker's comment has a visible character. -/
theorem ne_nil_of_continues {line : Text} (h : g.continues opener line = true) :
    Line.body line ≠ [] := by
  intro hb
  simp [continues, hb, Comment.isOwn, Text.trim, Text.dropEnds, Text.dropEnd] at h

theorem ne_nil_of_opening? {t : Text} (h : (opening? t).isSome) : t ≠ [] := by
  rintro rfl
  exact absurd h (by decide)

theorem isSome_opening?_of_marker? {t : Text} (h : g.marker? t = some m) :
    (opening? t).isSome := by
  cases ho : opening? t with
  | none => simp [marker?, ho] at h
  | some o => rfl

theorem ne_nil_of_marker? {t : Text} (h : g.marker? t = some m) : t ≠ [] :=
  ne_nil_of_opening? (isSome_opening?_of_marker? h)

theorem isEol_of_mem_firstEnding {c : Char} (h : c ∈ Line.firstEnding lines) :
    Line.isEol c = true := by
  rw [Line.firstEnding] at h
  cases hf : (lines.map Line.ending).find? (· ≠ []) with
  | none =>
    rw [hf, Option.getD_none, List.mem_singleton] at h
    simp [h, Line.isEol]
  | some e =>
    obtain ⟨l, -, rfl⟩ := List.mem_map.1 (List.mem_of_find?_eq_some hf)
    rw [hf] at h
    exact Line.isEol_of_mem_ending h

theorem isEol_of_mem_terminatorFor {c : Char} (h : c ∈ terminatorFor lines marker) :
    Line.isEol c = true := by
  rw [terminatorFor] at h
  split at h
  · exact isEol_of_mem_firstEnding h
  · next e => exact Line.isEol_of_mem_ending h

/-- What holds of the marker, of the other lines and of the note holds of all parts of the new
comment. -/
theorem forall_parts {terminator : Text} {P : Text × Text → Prop}
    (hl : ∀ l ∈ marker :: own, P (Line.parts terminator l))
    (hn : note ≠ [] → P (indent marker ++ note, terminator)) :
    ∀ p ∈ (marker :: g.keptLines own).map (Line.parts terminator) ++
      (addedTexts note marker).map (·, terminator), P p := by
  intro p hp
  rcases List.mem_append.1 hp with hp | hp
  · obtain ⟨l, h, rfl⟩ := List.mem_map.1 hp
    rcases List.mem_cons.1 h with rfl | h
    · exact hl l List.mem_cons_self
    · exact hl l (List.mem_cons_of_mem _ (List.mem_of_mem_filter h))
  · obtain ⟨t, h, rfl⟩ := List.mem_map.1 hp
    rw [addedTexts] at h
    split at h
    · exact absurd h List.not_mem_nil
    · next hne =>
      rw [List.mem_singleton.1 h]
      exact hn hne

theorem map_body_annotate {terminator : Text} (ht : ∀ c ∈ terminator, Line.isEol c = true)
    (hn : Text.EndsOutside Line.isEol note) :
    (g.annotate note terminator marker own).map Line.body =
      (marker :: g.keptLines own).map Line.body ++ addedTexts note marker := by
  rw [annotate_eq, Line.map_body_assemble]
  · rw [List.map_append, List.map_map, List.map_map]
    congr 1
    rw [Function.comp_def]
    exact List.map_id _
  · refine forall_parts (fun l _ => ⟨Line.endsOutside_body l, ?_⟩)
      fun hne => ⟨Text.endsOutside_append hne hn, ht⟩
    rw [Line.parts]
    split
    · exact ht
    · exact fun c => Line.isEol_of_mem_ending
  · exact fun c => Line.isEol_of_mem_ending

theorem ended_firstEnding (h : ∀ l ∈ lines, Line.Whole l) :
    Line.Ended (Line.firstEnding lines) := by
  rw [Line.firstEnding]
  cases hf : (lines.map Line.ending).find? (· ≠ []) with
  | none => exact ⟨[], by simp, rfl⟩
  | some e =>
    have hne : e ≠ [] := by simpa using List.find?_some hf
    obtain ⟨l, hl, rfl⟩ := List.mem_map.1 (List.mem_of_find?_eq_some hf)
    exact (h l hl).ending_eq_nil_or.resolve_left hne

theorem ended_terminatorFor (h : ∀ l ∈ lines, Line.Whole l) (hm : marker ∈ lines) :
    Line.Ended (terminatorFor lines marker) := by
  rw [terminatorFor]
  split
  · exact ended_firstEnding h
  · next e => exact (h marker hm).ending_eq_nil_or.resolve_left e

/-- The last line of a comment, or its marker. -/
theorem getLastD_eq_of_cons {init : List Text} {l : Text} (h : marker :: own = init ++ [l]) :
    own.getLastD marker = l := by
  have hlast := congrArg List.getLast? h
  rw [List.getLast?_concat, List.getLast?_cons] at hlast
  rw [List.getLastD_eq_getLast?]
  exact Option.some.inj hlast

/-- Of the lines that an edit keeps, only the last one may be the last line of the comment. -/
theorem exists_kept_eq_concat {l : Text} {init : List Text} (g : Grammar)
    (hlines : marker :: own = init ++ [l]) :
    ∃ kept k, marker :: g.keptLines own = kept ++ [k] ∧ kept ⊆ init := by
  obtain ⟨kept, k, hk⟩ := (List.eq_nil_or_concat' (marker :: g.keptLines own)).resolve_left
    (by simp)
  have hsub : (kept ++ [k]).reverse.Sublist (init ++ [l]).reverse := by
    rw [← hk, ← hlines, List.reverse_sublist]
    exact List.filter_sublist.cons_cons marker
  rw [List.reverse_concat, List.reverse_concat] at hsub
  exact ⟨kept, k, hk, (List.reverse_sublist.1 hsub.tail).subset⟩

/-- A comment is made of lines again, unless the note comes behind a carriage return. -/
theorem isCut_annotate {terminator l : Text} {init : List Text}
    (hlines : marker :: own = init ++ [l]) (hinit : ∀ k ∈ init, Line.Ended k)
    (hl : Line.Ended l ∨ Line.Open l) (hb : ∀ k ∈ marker :: own, Line.body k ≠ [])
    (hn : '\n' ∉ note)
    (hnote : note ≠ [] → Line.Ended terminator ∧
      ∀ k ∈ marker :: g.keptLines own, k.getLast? ≠ some '\r') :
    Line.IsCut (g.annotate note terminator marker own) ∧
      (Line.Ended l → ∀ k ∈ g.annotate note terminator marker own, Line.Ended k) := by
  have hkept : ∀ k ∈ marker :: g.keptLines own, (Line.Ended k ∨ Line.Open k) ∧
      Line.body k ≠ [] := by
    intro k hk
    have hk : k ∈ marker :: own := g.cons_keptLines_subset marker own hk
    refine ⟨?_, hb k hk⟩
    rw [hlines] at hk
    rcases List.mem_append.1 hk with hk | hk
    · exact .inl (hinit k hk)
    · rwa [List.mem_singleton.1 hk]
  have hlast : Line.Ended (Line.ending l) ∨ '\n' ∉ Line.ending l := by
    refine hl.imp Line.ended_ending fun ho hc => ho.2 ?_
    rw [← Line.body_append_ending l]
    exact List.mem_append_right _ hc
  have hparts : Line.FormLines ((marker :: g.keptLines own).map (Line.parts terminator) ++
      (addedTexts note marker).map (·, terminator)) := by
    by_cases hne : note = []
    · -- without a note, each kept line is ended or the last one
      obtain ⟨kept, k, hk, hsub⟩ := exists_kept_eq_concat g hlines
      obtain ⟨hany, hbody⟩ := hkept k (by rw [hk]; simp)
      rw [addedTexts, if_pos hne, List.map_nil, List.append_nil, hk]
      exact Line.formLines_map_parts terminator (fun q hq => hinit q (hsub hq))
        ⟨hbody, Line.not_mem_body hany⟩
    · -- with a note, each kept line has a terminator or gets one
      obtain ⟨hterminator, hcr⟩ := hnote hne
      rw [addedTexts, if_neg hne, List.map_singleton]
      refine Line.formLines_concat hterminator
        (fun q hq => Line.whole_of_getLast? (hkept q hq).1 (hcr q hq)) ⟨by simp [hne], ?_⟩
      rw [List.mem_append, not_or]
      exact ⟨fun hi => Line.not_mem_body (hkept marker List.mem_cons_self).1
        ((List.takeWhile_prefix _).subset hi), hn⟩
  rw [annotate_eq, getLastD_eq_of_cons hlines]
  obtain ⟨hcut, hall⟩ := Line.isCut_assemble hparts hlast
  exact ⟨hcut, fun h => hall (Line.ended_ending h)⟩

/-- A marker that does not end in a carriage return gives new lines a full terminator. -/
theorem CommentAt.ended_terminatorFor {text : Text}
    (h : g.CommentAt opener (Line.split text) number before marker own after m)
    (hcr : marker.getLast? ≠ some '\r') :
    Line.Ended (terminatorFor (Line.split text) marker) := by
  have hsplit := Line.isCut_split text
  rw [h.lines_eq, List.append_cons] at hsplit
  by_cases hrest : own ++ after = []
  · -- the marker is the last line, and all lines are whole
    rw [hrest, List.append_nil, Line.isCut_append_iff (by simp), Line.isCut_singleton_iff] at hsplit
    refine Grammar.ended_terminatorFor (fun k hk => ?_) (by rw [h.lines_eq]; simp)
    rw [h.lines_eq, hrest] at hk
    rcases List.mem_append.1 hk with hk | hk
    · exact .inl (hsplit.1 k hk)
    · rw [List.mem_singleton.1 hk]
      exact Line.whole_of_getLast? hsplit.2 hcr
  · rw [Line.isCut_append_iff hrest] at hsplit
    obtain ⟨t, ht, hending⟩ := Line.ended_ending (hsplit.1 marker (by simp))
    have hterminator : terminatorFor (Line.split text) marker = Line.ending marker := by
      rw [terminatorFor, hending]
      split
      · next hnil => simp at hnil
      · rfl
    rw [hterminator]
    exact ⟨t, ht, hending⟩

/-- All lines of a text up to the last one of a comment are ended. -/
theorem CommentAt.isCut_of_concat {text l : Text} {init : List Text}
    (h : g.CommentAt opener (Line.split text) number before marker own after m)
    (hlines : marker :: own = init ++ [l]) : (∀ k ∈ before, Line.Ended k) ∧
      (∀ k ∈ init, Line.Ended k) ∧ Line.IsCut ([l] ++ after) := by
  have hsplit := Line.isCut_split text
  rwa [h.lines_eq, ← List.cons_append, hlines, Line.isCut_append_iff (by simp), List.append_assoc,
    Line.isCut_append_iff (by simp)] at hsplit

/-- The lines after an edit are again the lines of a text, unless the note comes behind a carriage
return. -/
theorem isCut_edited_of_kept {text : Text} (hn : '\n' ∉ note)
    (h : g.CommentAt opener (Line.split text) number before marker own after m)
    (hcr : note ≠ [] → ∀ k ∈ marker :: g.keptLines own, k.getLast? ≠ some '\r') :
    Line.IsCut (before ++ g.annotate note (terminatorFor (Line.split text) marker) marker own ++
      after) := by
  have hbody : ∀ k ∈ marker :: own, Line.body k ≠ [] := by
    intro k hk
    rcases List.mem_cons.1 hk with rfl | hk
    · exact ne_nil_of_marker? h.marker_eq
    · exact ne_nil_of_continues (h.own_continues k hk)
  have hannotate : g.annotate note (terminatorFor (Line.split text) marker) marker own ≠ [] := by
    intro hnil
    have := congrArg List.length hnil
    rw [length_annotate, List.length_nil] at this
    omega
  have hnote := fun hne : note ≠ [] =>
    And.intro (h.ended_terminatorFor (hcr hne marker List.mem_cons_self)) (hcr hne)
  obtain ⟨init, l, hlines⟩ := (List.eq_nil_or_concat' (marker :: own)).resolve_left (by simp)
  obtain ⟨hbefore, hinit, hsplit⟩ := h.isCut_of_concat hlines
  by_cases hafter : after = []
  · -- the comment ends the text, and its last line may be open
    rw [hafter, List.append_nil, Line.isCut_singleton_iff] at hsplit
    rw [hafter, List.append_nil, Line.isCut_append_iff hannotate]
    exact ⟨hbefore, (isCut_annotate hlines hinit hsplit hbody hn hnote).1⟩
  · -- lines follow, so every line of the old comment is ended, and so is the new comment
    rw [Line.isCut_append_iff hafter] at hsplit
    have hl := hsplit.1 l (List.mem_singleton_self l)
    rw [Line.isCut_append_iff hafter]
    refine ⟨fun k hk => ?_, hsplit.2⟩
    rcases List.mem_append.1 hk with hk | hk
    · exact hbefore k hk
    · exact (isCut_annotate hlines hinit (.inl hl) hbody hn hnote).2 hl k hk

/-- The lines after an edit are again the lines of a text. -/
theorem isCut_edited {text : Text} (hcr : text.getLast? ≠ some '\r') (hn : '\n' ∉ note)
    (h : g.CommentAt opener (Line.split text) number before marker own after m) :
    Line.IsCut (before ++ g.annotate note (terminatorFor (Line.split text) marker) marker own ++
      after) := by
  refine isCut_edited_of_kept hn h fun _ k hk => ?_
  exact (Line.whole_of_mem_split hcr (h.kept_mem_lines k hk)).getLast?_ne

end Grammar
end MarkerBoard
