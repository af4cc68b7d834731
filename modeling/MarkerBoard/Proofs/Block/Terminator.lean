import MarkerBoard.Proofs.Block.Frame

/-!
# Terminators of a new comment

An edit gives new lines the terminator of the marker, or of the first line of the text that has one,
and the comment keeps the terminator of its last line. If the lines of a text end alike, this is the
same terminator everywhere, and they end alike after the edit.

Main results:

* `Line.whole_of_endsIn` — where lines end alike, none ends in a carriage return alone.
* `Grammar.terminatorFor_of_endsIn` — the terminator of new lines, if all lines end alike.
* `Grammar.endsIn_annotate` — the lines of a new comment end alike still.
* `Grammar.exists_annotate_eq_cons` — the lines of a new comment, by their texts.
* `Grammar.CommentAt.annotated` — the comment that the next edit finds.
-/
namespace MarkerBoard

/-! ## Lines that end alike -/

namespace Line

variable {e line : Text} {lines : List Text}

theorem Ended.ending_ne_nil (h : Ended line) : ending line ≠ [] := by
  obtain ⟨t, -, ht⟩ := ended_ending h
  simp [ht]

/-- The line has no terminator but the given one. -/
def EndsIn (e line : Text) : Prop := ending line = [] ∨ ending line = e

/-- Assembled lines have their own terminators or, if they are the last ones, the new one. -/
theorem endsIn_of_mem_assemble {last : Text} {parts : List (Text × Text)}
    (he : ∀ c ∈ e, isEol c = true)
    (hparts : ∀ p ∈ parts, Text.EndsOutside isEol p.1 ∧ (p.2 = [] ∨ p.2 = e))
    (hlast : last = [] ∨ last = e) : ∀ l ∈ assemble last parts, EndsIn e l := by
  have hline : ∀ {t e' : Text}, Text.EndsOutside isEol t → (e' = [] ∨ e' = e) →
      EndsIn e (t ++ e') := by
    intro t e' ht he'
    have heol : ∀ c ∈ e', isEol c = true := by
      rcases he' with rfl | rfl
      · simp
      · exact he
    rw [EndsIn, ending_append ht heol]
    exact he'
  obtain rfl | ⟨parts, p, rfl⟩ := parts.eq_nil_or_concat'
  · exact fun l hl => absurd hl List.not_mem_nil
  · rw [assemble_concat]
    intro l hl
    rcases List.mem_append.1 hl with hl | hl
    · obtain ⟨q, hq, rfl⟩ := List.mem_map.1 hl
      have := hparts q (List.mem_append_left _ hq)
      exact hline this.1 this.2
    · rw [List.mem_singleton.1 hl]
      exact hline (hparts p (by simp)).1 hlast

/-- The first line that has a terminator has the given one, unless no line has any. -/
theorem firstEnding_of_endsIn (h : ∀ l ∈ lines, EndsIn e l) :
    firstEnding lines = e ∨ firstEnding lines = ['\n'] ∧ ∀ l ∈ lines, ending l = [] := by
  rw [firstEnding]
  cases hfind : (lines.map ending).find? (· ≠ []) with
  | none =>
    refine .inr ⟨rfl, fun l hl => ?_⟩
    simpa using List.find?_eq_none.1 hfind _ (List.mem_map_of_mem hl)
  | some e' =>
    obtain ⟨k, hk, rfl⟩ := List.mem_map.1 (List.mem_of_find?_eq_some hfind)
    exact .inl ((h k hk).resolve_left (by simpa using List.find?_some hfind))

/-- In a text whose lines end alike, no line ends in a carriage return alone, if one of them is
ended. -/
theorem whole_of_endsIn {text : Text} (h : ∀ l ∈ split text, EndsIn e l) (hl : line ∈ split text)
    (hended : Ended line) : ∀ k ∈ split text, Whole k := by
  intro k hk
  obtain ⟨ended, rest, hsplit, hinit, hrest⟩ := isCut_split text
  rw [hsplit, List.mem_append] at hk
  rcases hk with hk | hk
  · exact .inl (hinit k hk)
  obtain rfl | ⟨o, ho, rfl⟩ := hrest
  · exact absurd hk List.not_mem_nil
  rw [List.mem_singleton] at hk
  subst hk
  refine .inr ⟨ho, (h k (by rw [hsplit]; simp)).resolve_right fun heq => ho.2 ?_⟩
  -- the terminator of the ended line has a line feed, the open line has none
  obtain ⟨t, -, hline⟩ := ended_ending hended
  have hsame : ending line = e := (h line hl).resolve_left (by rw [hline]; simp)
  rw [← body_append_ending k, heq, ← hsame, hline]
  simp

end Line

namespace Grammar

open ScanContext (endsOutside_note)

variable {g : Grammar} {opener note : Text} {lines before own after : List Text} {number : Int}
  {marker e : Text} {m : MarkerLine}

theorem terminatorFor_of_ne_nil (h : Line.ending marker ≠ []) (lines : List Text) :
    terminatorFor lines marker = Line.ending marker := by
  rw [terminatorFor]
  split
  · contradiction
  · rfl

theorem terminatorFor_of_endsIn {line : Text} (h : ∀ l ∈ lines, Line.EndsIn e l)
    (hm : marker ∈ lines) (hl : line ∈ lines) (hne : Line.ending line ≠ []) :
    terminatorFor lines marker = e := by
  rw [terminatorFor]
  split
  · exact (Line.firstEnding_of_endsIn h).resolve_right fun hnone => hne (hnone.2 line hl)
  · next hm' => exact (h marker hm).resolve_left hm'

/-- In lines that end alike, so do those of a new comment. -/
theorem endsIn_annotate (he : ∀ c ∈ e, Line.isEol c = true) (hn : '\n' ∉ note ∧ '\r' ∉ note)
    (h : ∀ l ∈ marker :: own, Line.EndsIn e l) :
    ∀ l ∈ g.annotate note e marker own, Line.EndsIn e l := by
  rw [annotate_eq]
  refine Line.endsIn_of_mem_assemble he ?_ ?_
  · refine forall_parts (fun l hl => ⟨Line.endsOutside_body l, ?_⟩) fun hne =>
      ⟨Text.endsOutside_append hne (endsOutside_note hn), .inr rfl⟩
    rw [Line.parts]
    split
    · exact .inr rfl
    · exact h l hl
  · obtain ⟨init, l, hinit⟩ := (List.eq_nil_or_concat' (marker :: own)).resolve_left (by simp)
    rw [getLastD_eq_of_cons hinit]
    exact h l (by simp [hinit])

/-- A new comment begins with its marker. -/
theorem exists_annotate_eq_cons (g : Grammar) (marker : Text) (own : List Text) {terminator : Text}
    (ht : ∀ c ∈ terminator, Line.isEol c = true)
    (hn : '\n' ∉ note ∧ '\r' ∉ note) :
    ∃ marker' own', g.annotate note terminator marker own = marker' :: own' ∧
      Line.body marker' = Line.body marker ∧
      own'.map Line.body = (g.keptLines own).map Line.body ++ addedTexts note marker := by
  have hmap : (g.annotate note terminator marker own).map Line.body =
      (marker :: g.keptLines own).map Line.body ++ addedTexts note marker :=
    map_body_annotate ht (endsOutside_note hn)
  cases hannotate : g.annotate note terminator marker own with
  | nil =>
    rw [hannotate] at hmap
    cases hmap
  | cons marker' own' =>
    rw [hannotate, List.map_cons, List.map_cons, List.cons_append, List.cons.injEq] at hmap
    exact ⟨marker', own', rfl, hmap.1, hmap.2⟩

/-- The comment that the next edit finds. Its lines have the texts of those that were kept, and of
the note. -/
theorem CommentAt.annotated (hn : '\n' ∉ note ∧ '\r' ∉ note)
    (h : g.CommentAt opener lines number before marker own after m)
    (ha : ∀ t ∈ addedTexts note marker, Comment.isOwn opener t = true ∧ g.marker? t = none) :
    ∃ marker' own', g.annotate note (terminatorFor lines marker) marker own = marker' :: own' ∧
      Line.body marker' = Line.body marker ∧
      own'.map Line.body = (g.keptLines own).map Line.body ++ addedTexts note marker ∧
      g.CommentAt opener (before ++ g.annotate note (terminatorFor lines marker) marker own ++ after)
        number before marker' own' after m := by
  have heol : ∀ c ∈ terminatorFor lines marker, Line.isEol c = true :=
    fun c => isEol_of_mem_terminatorFor
  obtain ⟨marker', own', hannotate, hmarker, hown⟩ := exists_annotate_eq_cons g marker own heol hn
  refine ⟨marker', own', hannotate, hmarker, hown, ?_, h.number_eq, ?_, ?_, h.after_ends⟩
  · rw [hannotate, List.append_assoc, List.cons_append]
  · rw [hmarker]
    exact h.marker_eq
  · -- whether a line continues the comment is seen from its text
    intro l hl
    have hbody : Line.body l ∈ (g.keptLines own).map Line.body ++ addedTexts note marker := by
      rw [← hown]
      exact List.mem_map_of_mem hl
    rcases List.mem_append.1 hbody with hkept | hadded
    · obtain ⟨k, hk, hkl⟩ := List.mem_map.1 hkept
      have hcontinues := h.own_continues k (List.mem_of_mem_filter hk)
      rwa [continues, hkl] at hcontinues
    · obtain ⟨hisOwn, hnone⟩ := ha _ hadded
      rw [continues, hisOwn, hnone]
      rfl

end Grammar
end MarkerBoard
