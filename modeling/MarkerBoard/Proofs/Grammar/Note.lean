import MarkerBoard.Proofs.Grammar.Lines
import MarkerBoard.Proofs.Grammar.Transition

/-!
# Notes read back

A note that a move writes is read as a note of the same column, stamp and user, also when other
names begin with the name or the name begins with them, and it opens no item. This rests on the
words of the board: keywords have no white space, and names no colon.

Main results:

* `Grammar.note?_note` — a written note is read back.
* `Grammar.marker?_note` — a written note is no marker.
* `Grammar.isOwn_note` — a written note is a comment of its file.
-/
namespace MarkerBoard

/-- Keywords without white space, and names that fit on a line and end where their colon would
be. -/
structure Grammar.Plain (g : Grammar) : Prop where
  keyword_blank : ∀ k ∈ g.keywords, ∀ c ∈ k, Text.isBlank c = false
  name_ne_nil : ∀ n ∈ g.names, n ≠ []
  name_trim : ∀ n ∈ g.names, Text.trim n = n
  name_colon : ∀ n ∈ g.names, ':' ∉ n
  name_lf : ∀ n ∈ g.names, '\n' ∉ n
  name_cr : ∀ n ∈ g.names, '\r' ∉ n

namespace Comment

/-- What a note ends in after its user. -/
def closeOf (opener : Text) : Text := if opener = markupOpener then ' ' :: markupClose else []

theorem closes_closeOf (opener : Text) : Grammar.Closes (closeOf opener) := by
  rw [closeOf]
  split
  · exact Or.inr rfl
  · exact Or.inl rfl

theorem note_eq (opener name : Text) (time : Moment) (user : Text) :
    note opener name time user = opener ++ ' ' :: (name ++ ' ' :: (time.toMinuteText ++
      ([' ', 'b', 'y', ' '] ++ (user ++ closeOf opener)))) := by
  rw [note, closeOf]
  split <;> simp

theorem note_ne_nil (opener name : Text) (time : Moment) (user : Text) :
    note opener name time user ≠ [] := by
  rw [note_eq]
  simp

end Comment

namespace Grammar

variable {g : Grammar} {opener name user indent : Text} {time : Moment}

theorem Plain.beginsOutside_name (hg : g.Plain) (hn : name ∈ g.names) (t : Text) :
    Text.BeginsOutside Text.isBlank (name ++ t) := by
  intro c hc
  rw [List.head?_append_of_ne_nil _ (hg.name_ne_nil name hn), ← hg.name_trim name hn] at hc
  exact Text.beginsOutside_dropEnds Text.isBlank name c hc

/-- Text without a colon in front of a colon is read off the text. -/
theorem eq_of_append_colon {s s' t t' : Text} (hs : ':' ∉ s) (hs' : ':' ∉ s')
    (h : s ++ ':' :: t = s' ++ ':' :: t') : s = s' := by
  have htake : ∀ u v : Text, ':' ∉ u → (u ++ ':' :: v).takeWhile (· ≠ ':') = u := by
    intro u v hu
    rw [List.takeWhile_append_of_pos, List.takeWhile_cons_of_neg (by simp), List.append_nil]
    intro c hc
    simpa using fun e : c = ':' => hu (e ▸ hc)
  rw [← htake s t hs, h, htake s' t' hs']

/-- What comes before a colon reaches at least to the first one. -/
theorem exists_append_of_append_colon {s s' t t' : Text} (hs : ':' ∉ s)
    (h : s ++ ':' :: t = s' ++ ':' :: t') : ∃ more, s' = s ++ more := by
  rcases List.append_eq_append_iff.1 h with ⟨more, h, -⟩ | ⟨more, h, h'⟩
  · exact ⟨more, h⟩
  · cases more with
    | nil => exact ⟨[], by simpa using h.symm⟩
    | cons c more =>
      rw [List.cons_append, List.cons.injEq] at h'
      rw [h, ← h'.1] at hs
      exact absurd (List.mem_append_right _ List.mem_cons_self) hs

/-- The stamp of a note belongs to no longer name: its first colon would come too soon. -/
theorem transition?_eq_none_of_longer (hg : g.Plain) {v r : Text} {user : Text}
    (hm : 1000 ≤ time.year) (hv : v ∈ g.names)
    (h : name ++ ' ' :: (time.toMinuteText ++ user) = v ++ r) (hlen : name.length < v.length) :
    transition? r = none := by
  by_contra hsome
  obtain ⟨front, back, rfl, hfront, hfrontLen⟩ :=
    exists_colon_of_transition? (Option.isSome_iff_ne_none.2 hsome)
  obtain ⟨stamp, minute, hstamp, hcolon, hstampLen⟩ := exists_toMinuteText_colon time
  -- the longer name goes on into the stamp, so the colon of its transition is that of the stamp
  have hname : name <+: v ++ (front ++ ':' :: back) := h ▸ List.prefix_append name _
  obtain ⟨more, rfl⟩ :=
    List.prefix_of_prefix_length_le hname (List.prefix_append v _) (by omega)
  have hmore : ':' ∉ more := fun hc =>
    hg.name_colon _ hv (List.mem_append_right _ hc)
  rw [List.append_assoc, List.append_cancel_left_eq, hstamp] at h
  have heq : ' ' :: stamp = more ++ front := by
    have hsplit : (' ' :: stamp) ++ ':' :: (minute ++ user) = (more ++ front) ++ ':' :: back := by
      simpa using h
    refine eq_of_append_colon ?_ ?_ hsplit
    · simpa using hcolon
    · rw [List.mem_append, not_or]
      exact ⟨hmore, hfront⟩
  have := congrArg List.length heq
  have := hstampLen hm
  simp only [List.length_cons, List.length_append] at *
  omega

/-- A written note is read back. -/
theorem note?_note (hg : g.Plain) (hn : name ∈ g.names) (ho : opener ∈ Comment.openers)
    (hi : ∀ c ∈ indent, Text.isBlank c = true) (hm : 1000 ≤ time.year)
    (hu : Comment.Signer user) :
    ∃ close, g.note? (indent ++ Comment.note opener name time user) =
      some ⟨opener, name, time.toMinuteText, Text.trim user, close⟩ := by
  obtain ⟨close, hclose⟩ := transition?_eq hm hu (Comment.closes_closeOf opener)
  refine ⟨close, ?_⟩
  have hword : word? transition? g.names (' ' :: (name ++ ' ' :: (time.toMinuteText ++
      ([' ', 'b', 'y', ' '] ++ (user ++ Comment.closeOf opener))))) =
      some (name, time.toMinuteText, Text.trim user, close) := by
    refine word?_eq_of_firstWord? ?_
    rw [Text.trimStart, List.dropWhile_cons_of_pos (by decide),
      Text.dropWhile_eq_self (hg.beginsOutside_name hn _)]
    exact firstWord?_longestFirst_eq hn hclose fun v hv r h hlen =>
      transition?_eq_none_of_longer hg hm hv h hlen
  rw [note?, Comment.note_eq, opening?_append ho hi]
  simp only [Option.bind_eq_bind, Option.bind_some]
  rw [hword]
  rfl

/-- A written note opens no item: a keyword would reach over the white space after the name. -/
theorem marker?_note (hg : g.Plain) (hn : name ∈ g.names) (ho : opener ∈ Comment.openers)
    (hi : ∀ c ∈ indent, Text.isBlank c = true) (time : Moment) (user : Text) :
    g.marker? (indent ++ Comment.note opener name time user) = none := by
  by_contra hsome
  rw [Comment.note_eq, marker?, opening?_append ho hi] at hsome
  simp only [Option.bind_eq_bind, Option.bind_some] at hsome
  obtain ⟨blanks, k, hk, rest, happ, hblanks, hrest⟩ := isSome_word?_iff.1
    (Option.isSome_of_isSome_bind (Option.isSome_iff_ne_none.2 hsome))
  obtain ⟨title, rfl⟩ := exists_colon_of_title? hrest
  obtain ⟨stamp, minute, hstamp, hstampColon, -⟩ := exists_toMinuteText_colon time
  -- the keyword reaches at least to the first colon, which is in the stamp
  obtain ⟨more, hmore⟩ : ∃ more, blanks ++ k = (' ' :: (name ++ ' ' :: stamp)) ++ more := by
    have hnot : ':' ∉ ' ' :: (name ++ ' ' :: stamp) := by
      simp only [List.mem_cons, List.mem_append, not_or]
      exact ⟨by decide, hg.name_colon name hn, by decide, hstampColon⟩
    rw [hstamp] at happ
    have happ' : (' ' :: (name ++ ' ' :: stamp)) ++ (':' :: (minute ++
        ([' ', 'b', 'y', ' '] ++ (user ++ Comment.closeOf opener)))) =
          (blanks ++ k) ++ (':' :: title) := by simpa using happ
    exact exists_append_of_append_colon hnot happ'
  -- so it has the white space before or after the name in it, which no keyword has
  have hspace : ' ' ∉ k := fun h => absurd (hg.keyword_blank k hk ' ' h) (by decide)
  cases blanks with
  | nil =>
    rw [List.nil_append] at hmore
    exact hspace (by rw [hmore]; exact List.mem_cons_self)
  | cons b blanks =>
    simp only [List.cons_append, List.cons.injEq] at hmore
    obtain ⟨-, hmore⟩ := hmore
    cases blanks with
    | nil =>
      rw [List.nil_append] at hmore
      exact hspace (by rw [hmore]; simp)
    | cons c blanks =>
      have hc := hg.beginsOutside_name hn (' ' :: stamp ++ more) c (by
        rw [← List.append_assoc, ← hmore]
        rfl)
      rw [hblanks c (by simp)] at hc
      exact absurd hc (by decide)

/-- A written note is a comment of its file. -/
theorem isOwn_note (ho : opener ∈ Comment.openers) (hi : ∀ c ∈ indent, Text.isBlank c = true) :
    Comment.isOwn opener (indent ++ Comment.note opener name time user) = true := by
  obtain ⟨rest, hnote⟩ : ∃ rest, Comment.note opener name time user = opener ++ rest :=
    ⟨_, Comment.note_eq opener name time user⟩
  have htrim : Text.trim (indent ++ Comment.note opener name time user) =
      opener ++ Text.dropEnd Text.isBlank rest := by
    rw [Text.trim, Text.dropEnds, hnote, Text.dropWhile_append_eq hi (beginsOutside_opener ho rest),
      Text.dropEnd_append (Comment.endsOutside_opener ho)]
  rw [Comment.isOwn, htrim]
  obtain ⟨c, opener, rfl⟩ := List.exists_cons_of_ne_nil (Comment.opener_ne_nil ho)
  simp only [List.cons_append, List.isEmpty_cons, Bool.not_false, Bool.true_and]
  split
  · rw [Text.hasPart, ← List.cons_append, Text.startsWith_append, Bool.true_or]
  · rw [← List.cons_append, Text.startsWith_append]

end Grammar
end MarkerBoard
