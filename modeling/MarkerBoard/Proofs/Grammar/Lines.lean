import MarkerBoard.Block.Edit
import MarkerBoard.Proofs.Grammar.Opening
import MarkerBoard.Proofs.Grammar.Transition
import MarkerBoard.Proofs.Grammar.Words
import MarkerBoard.Proofs.Line.Cut

/-!
# How the forms of lines are nested

Markers, notes, priorities and status lines are all lines with a word: white space, an opener, white
space, a word of a list, and a continuation that the word asks for. A reader may try the words in
any order, and leave out as little or as much white space as it likes; that it finds a word only
means that there is one. So a form of lines has another one in it if its words are among those of
the other, and each continuation that it accepts is accepted by the other.

Every marker and every note is a status line, and all of them are descriptions. So the lines that
belong to an item are the descriptions that are no markers, and a comment without its status lines
has no notes.

Main results:

* `Grammar.isSome_bind_word?_iff` — the lines on which a reader of words finds one.
* `Grammar.HasWord.mono` — when one form of lines has another one in it.
* `Grammar.isSome_statusLine?_of_marker?`, `Grammar.isSome_statusLine?_of_note?` — markers and notes
  are status lines.
* `Grammar.isSome_blockLine?` — which lines belong to the item above them.
-/
namespace MarkerBoard.Grammar

variable {α β γ : Type} {accept : Text → Option α} {accept' : Text → Option β}
  {words words' : List Text} {g : Grammar} {line : Text}

/-! ## Lines with a word -/

/-- The line is white space, an opener, white space, one of the words, and a continuation that is
accepted. -/
def HasWord (accept : Text → Option α) (words : List Text) (line : Text) : Prop :=
  ∃ opener ∈ Comment.openers, ∃ before between, ∃ word ∈ words, ∃ rest,
    line = before ++ (opener ++ (between ++ (word ++ rest))) ∧
    (∀ c ∈ before, Text.isBlank c = true) ∧ (∀ c ∈ between, Text.isBlank c = true) ∧
    (accept rest).isSome

/-- Where a reader asks for an opener and then for a word, it finds them just if they are there. -/
theorem isSome_bind_word?_iff {make : Text × Text → Text × α → γ} :
    ((opening? line).bind fun o => (word? accept words o.2).bind fun found =>
      some (make o found)).isSome ↔ HasWord accept words line := by
  have hreader : ((opening? line).bind fun o => (word? accept words o.2).bind fun found =>
      some (make o found)).isSome ↔
        ∃ o, opening? line = some o ∧ (word? accept words o.2).isSome := by
    rw [Option.isSome_bind, Option.any_eq_true]
    refine exists_congr fun o => and_congr_right fun _ => ?_
    cases word? accept words o.2 <;> simp
  rw [hreader, Prod.exists]
  simp only [opening?_eq_some_iff, isSome_word?_iff]
  constructor
  · rintro ⟨opener, t, ⟨ho, before, rfl, hbefore⟩, between, word, hword, rest, rfl, hbetween, ha⟩
    exact ⟨opener, ho, before, between, word, hword, rest, rfl, hbefore, hbetween, ha⟩
  · rintro ⟨opener, ho, before, between, word, hword, rest, rfl, hbefore, hbetween, ha⟩
    exact ⟨opener, _, ⟨ho, before, rfl, hbefore⟩, between, word, hword, rest, rfl, hbetween, ha⟩

theorem isSome_marker?_iff : (g.marker? line).isSome ↔ HasWord title? g.keywords line :=
  isSome_bind_word?_iff

theorem isSome_priority?_iff : (g.priority? line).isSome ↔ HasWord wordEnd? g.labels line :=
  isSome_bind_word?_iff

theorem isSome_statusLine?_iff :
    (g.statusLine? line).isSome ↔ HasWord statusEnd? (g.keywords ++ g.names) line :=
  isSome_bind_word?_iff

theorem isSome_note?_iff : (g.note? line).isSome ↔ HasWord transition? g.names line :=
  isSome_bind_word?_iff

/-- With more words and more continuations there are more lines. -/
theorem HasWord.mono (hwords : words ⊆ words')
    (haccept : ∀ rest, (accept rest).isSome → (accept' rest).isSome)
    (h : HasWord accept words line) : HasWord accept' words' line := by
  obtain ⟨opener, ho, before, between, word, hword, rest, hline, hbefore, hbetween, ha⟩ := h
  exact ⟨opener, ho, before, between, word, hwords hword, rest, hline, hbefore, hbetween,
    haccept rest ha⟩

theorem isSome_description? : (description? line).isSome = (opening? line).isSome := by
  rw [description?, Option.bind_eq_bind, Option.isSome_bind]
  cases opening? line <;> rfl

/-- A description is any line with an opener. -/
theorem HasWord.isSome_description? (h : HasWord accept words line) :
    (description? line).isSome := by
  obtain ⟨opener, ho, before, between, word, -, rest, rfl, hbefore, -⟩ := h
  rw [Grammar.isSome_description?, opening?_append ho hbefore]
  rfl

/-! ## Status lines -/

/-- What stands after the keyword of a marker begins with a colon. -/
theorem exists_colon_of_title? {t : Text} (h : (title? t).isSome) : ∃ rest, t = ':' :: rest := by
  unfold title? at h
  split at h
  · exact ⟨_, rfl⟩
  · cases h

theorem isSome_statusEnd?_of_title? {t : Text} (h : (title? t).isSome) : (statusEnd? t).isSome := by
  obtain ⟨rest, rfl⟩ := exists_colon_of_title? h
  simp [statusEnd?]

/-- What stands after the name of a note begins with white space. -/
theorem exists_blank_of_transition? {t : Text} (h : (transition? t).isSome) :
    ∃ c rest, t = c :: rest ∧ Text.isBlank c = true := by
  have hblanks : (blanks? t).isSome := Option.isSome_of_isSome_bind h
  obtain ⟨r, hr⟩ := Option.isSome_iff_exists.1 hblanks
  obtain ⟨blanks, hne, hblank, rfl⟩ := exists_of_blanks? hr
  obtain ⟨c, blanks, rfl⟩ := List.exists_cons_of_ne_nil hne
  exact ⟨c, blanks ++ r, rfl, hblank c List.mem_cons_self⟩

theorem isSome_statusEnd?_of_blank {c : Char} (hc : Text.isBlank c = true) (t : Text) :
    (statusEnd? (c :: t)).isSome := by
  simp [statusEnd?, hc]

theorem isSome_statusEnd?_of_transition? {t : Text} (h : (transition? t).isSome) :
    (statusEnd? t).isSome := by
  obtain ⟨c, rest, rfl, hc⟩ := exists_blank_of_transition? h
  exact isSome_statusEnd?_of_blank hc rest

/-- A marker is a status line. -/
theorem isSome_statusLine?_of_marker? (h : (g.marker? line).isSome) :
    (g.statusLine? line).isSome :=
  isSome_statusLine?_iff.2 ((isSome_marker?_iff.1 h).mono (List.subset_append_left _ _)
    fun _ => isSome_statusEnd?_of_title?)

/-- A note is a status line. -/
theorem isSome_statusLine?_of_note? (h : (g.note? line).isSome) : (g.statusLine? line).isSome :=
  isSome_statusLine?_iff.2 ((isSome_note?_iff.1 h).mono (List.subset_append_right _ _)
    fun _ => isSome_statusEnd?_of_transition?)

/-- A note with a terminator is a status line without it: the name of a note ends before the colon
of its stamp, which no terminator reaches. -/
theorem isSome_statusLine?_body_of_note? (h : (g.note? line).isSome) :
    (g.statusLine? (Line.body line)).isSome := by
  obtain ⟨opener, ho, before, between, name, hname, rest, rfl, hbefore, hbetween, ha⟩ :=
    isSome_note?_iff.1 h
  obtain ⟨front, back, rfl, -, hlength⟩ := exists_colon_of_transition? ha
  have hbody : Line.body (before ++ (opener ++ (between ++ (name ++ (front ++ ':' :: back))))) =
      before ++ (opener ++ (between ++ (name ++ (front ++ ':' :: Line.body back)))) := by
    simpa using Line.body_append_cons (by decide)
      (before ++ (opener ++ (between ++ (name ++ front)))) back
  rw [hbody]
  refine isSome_statusLine?_iff.2 ⟨opener, ho, before, between, name,
    List.mem_append_right _ hname, _, rfl, hbefore, hbetween, ?_⟩
  -- without the terminator, the same white space comes after the name
  obtain ⟨c, rest, hrest, hc⟩ := exists_blank_of_transition? ha
  cases front with
  | nil => exact absurd hlength (by simp)
  | cons d front =>
    rw [(List.cons.inj hrest).1]
    exact isSome_statusEnd?_of_blank hc _

/-! ## Lines of an item -/

theorem isSome_blockLine? : (g.blockLine? line).isSome =
    ((description? (Line.body line)).isSome && (g.marker? (Line.body line)).isNone) := by
  rw [blockLine?]
  split
  · next h =>
    obtain ⟨m, hm⟩ := Option.isSome_iff_exists.1 h
    rw [hm]
    simp
  · next h =>
    rw [Option.not_isSome_iff_eq_none.1 h]
    split
    · next a ha =>
      rw [(isSome_note?_iff.1 (by rw [ha]; rfl)).isSome_description?]
      rfl
    · split
      · next p hp =>
        rw [(isSome_priority?_iff.1 (by rw [hp]; rfl)).isSome_description?]
        rfl
      · simp

/-- Only notes are added as notes. -/
theorem note?_of_blockLine? {a : NoteLine} (h : g.blockLine? line = some (.note a)) :
    g.note? (Line.body line) = some a := by
  rw [blockLine?] at h
  split at h
  · exact absurd h (by simp)
  · split at h
    · next a' ha =>
      cases h
      exact ha
    · split at h
      · exact absurd h (by simp)
      · obtain ⟨d, -, hd⟩ := Option.map_eq_some_iff.1 h
        exact absurd hd (by simp)

/-- A line that is no status line adds no note. -/
theorem blockLine?_ne_note (h : g.isStatusLine line = false) (a : NoteLine) :
    g.blockLine? line ≠ some (.note a) := by
  intro hb
  have := isSome_statusLine?_of_note? (by rw [note?_of_blockLine? hb]; rfl :
    (g.note? (Line.body line)).isSome)
  rw [isStatusLine, this] at h
  exact absurd h (by simp)

/-- A note bears one of the names. -/
theorem mem_names_of_note? {a : NoteLine} (h : g.note? line = some a) : a.name ∈ g.names := by
  simp only [note?, Option.bind_eq_bind, Option.bind_eq_some_iff] at h
  obtain ⟨⟨opener, t⟩, -, ⟨name, stamp, user, close⟩, hword, ha⟩ := h
  cases ha
  obtain ⟨rest, -, hfirst⟩ := List.exists_of_findSome?_eq_some hword
  exact Text.mem_longestFirst.1 (firstWord?_eq_some hfirst).1

/-- A note that opens no item adds itself. -/
theorem blockLine?_of_note? {a : NoteLine} (hm : g.marker? (Line.body line) = none)
    (ha : g.note? (Line.body line) = some a) : g.blockLine? line = some (.note a) := by
  rw [blockLine?]
  rw [hm, ha]
  rfl

end MarkerBoard.Grammar
