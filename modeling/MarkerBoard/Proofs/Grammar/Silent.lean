import MarkerBoard.Grammar.Line
import MarkerBoard.Proofs.Grammar.Lines
import MarkerBoard.Proofs.Line.Cut
import MarkerBoard.Proofs.Text.Utf8

/-!
# Texts without markers

A marker stands behind the opener of a comment and ahead of a colon. A text is silent on every
board, whatever its keywords are, if no line begins like a comment, or if it has no colon.

Whether a line begins like a comment shows in its first visible characters, so reading a text
character by character finds out.

Main results:

* `Grammar.isSilent_of_reads` — no line begins like a comment.
* `Grammar.isSilent_of_no_colon` — no colon.
-/
namespace MarkerBoard

namespace Line

/-- What has been read of a line that does not begin like a comment. -/
inductive Progress
  /-- Nothing but white space. -/
  | blank
  /-- White space and a dash. -/
  | dash
  /-- So much that no comment opens at the start of the line. -/
  | text
deriving DecidableEq

/-- The progress with one more character, unless a comment opens with it. -/
def Progress.next (p : Progress) (c : Char) : Option Progress :=
  if c = '\n' then some .blank
  else match p with
    | .blank =>
      if Text.isBlank c then some .blank
      else if c = '-' then some .dash
      else if c = '/' ∨ c = '#' ∨ c = '<' then none
      else some .text
    | .dash => if c = '-' then none else some .text
    | .text => some .text

/-- Reading a text takes a line from one progress to another, and no line in it begins like a
comment. -/
def Reads (p : Progress) (t : Text) (q : Progress) : Prop := t.foldlM Progress.next p = some q

variable {p q r : Progress} {c : Char} {s t : Text}

theorem Reads.append (hs : Reads p s q) (ht : Reads q t r) : Reads p (s ++ t) r := by
  unfold Reads at *
  rw [List.foldlM_append, hs]
  exact ht

theorem reads_cons_iff : Reads p (c :: t) r ↔ ∃ q, p.next c = some q ∧ Reads q t r := by
  unfold Reads
  rw [List.foldlM_cons, Option.bind_eq_bind, Option.bind_eq_some_iff]

theorem exists_reads_of_append (h : Reads p (s ++ t) r) : ∃ q, Reads p s q ∧ Reads q t r := by
  unfold Reads at *
  rwa [List.foldlM_append, Option.bind_eq_bind, Option.bind_eq_some_iff] at h

/-- Up to its end, a line of text may hold anything. -/
theorem reads_text (h : '\n' ∉ t) : Reads .text t .text := by
  induction t with
  | nil => rfl
  | cons c t ih =>
    rw [List.mem_cons, not_or] at h
    obtain ⟨hc, ht⟩ := h
    exact reads_cons_iff.2 ⟨.text, by rw [Progress.next, if_neg (Ne.symm hc)], ih ht⟩

/-- White space makes no progress. -/
theorem reads_blank (h : ∀ c ∈ t, Text.isBlank c = true) : Reads .blank t .blank := by
  induction t with
  | nil => rfl
  | cons c t ih =>
    obtain ⟨hc, ht⟩ := List.forall_mem_cons.1 h
    refine reads_cons_iff.2 ⟨.blank, ?_, ih ht⟩
    simp only [Progress.next, hc, if_true, ite_self]

/-- The lines of a text begin as reading it shows: the first one goes on from the progress that
there is, and each of the others starts anew. -/
theorem exists_reads_of_mem_split (h : Reads p t r) :
    (∀ line ∈ (split t).head?, ∃ q, Reads p line q) ∧
      ∀ line ∈ (split t).tail, ∃ q, Reads .blank line q := by
  induction t generalizing p with
  | nil => simp [split]
  | cons c t ih =>
    obtain ⟨q, hq, ht⟩ := reads_cons_iff.1 h
    obtain ⟨hhead, htail⟩ := ih ht
    by_cases hc : c = '\n'
    · -- the line ends here, so whatever follows is read from the start of a line
      subst hc
      obtain rfl : q = .blank := by
        have hnext : p.next '\n' = some .blank := if_pos rfl
        exact (Option.some.inj (hnext.symm.trans hq)).symm
      rw [split, if_pos rfl]
      refine ⟨?_, ?_⟩
      · rintro line hline
        cases hline
        exact ⟨.blank, reads_cons_iff.2 ⟨.blank, hq, rfl⟩⟩
      · rw [List.tail_cons]
        cases hsplit : split t with
        | nil => simp
        | cons line lines =>
          rw [hsplit] at hhead htail
          exact List.forall_mem_cons.2 ⟨hhead line rfl, htail⟩
    · rw [split, if_neg hc]
      cases hsplit : split t with
      | nil =>
        refine ⟨?_, by simp⟩
        rintro line hline
        cases hline
        exact ⟨q, reads_cons_iff.2 ⟨q, hq, rfl⟩⟩
      | cons line lines =>
        rw [hsplit] at hhead htail
        refine ⟨?_, htail⟩
        rintro line' hline
        cases hline
        obtain ⟨q', hq'⟩ := hhead line rfl
        exact ⟨q', reads_cons_iff.2 ⟨q, hq, hq'⟩⟩

/-- Reading a text from the start of a line, so are its lines. -/
theorem exists_reads_of_mem (h : Reads .blank t r) {line : Text} (hline : line ∈ split t) :
    ∃ q, Reads .blank line q := by
  obtain ⟨hhead, htail⟩ := exists_reads_of_mem_split h
  cases hsplit : split t with
  | nil =>
    rw [hsplit] at hline
    cases hline
  | cons first lines =>
    rw [hsplit] at hline hhead htail
    rcases List.mem_cons.1 hline with rfl | hline
    · exact hhead line rfl
    · exact htail line hline

end Line

namespace Grammar

open Line

/-- No line of the text opens an item, whatever the words of the board are. -/
def IsSilent (t : Text) : Prop :=
  ∀ (g : Grammar), ∀ line ∈ Line.split t, g.marker? (Line.body line) = none

/-- The bytes are no text, or a silent one. -/
def IsSilentBytes (bytes : List UInt8) : Prop := ∀ t, Utf8.decode bytes = .ok t → IsSilent t

variable {g : Grammar} {line t : Text}

theorem isSilentBytes_encode (h : IsSilent t) : IsSilentBytes (Utf8.encode t) := by
  intro t' ht
  rw [Utf8.decode_encode] at ht
  cases ht
  exact h

/-! ## Openers -/

/-- A line that begins with an opener is not read to its end. -/
theorem opening?_eq_none_of_reads {q : Progress} (h : Reads .blank line q) :
    opening? (Line.body line) = none := by
  by_contra hne
  obtain ⟨⟨opener, rest⟩, hopen⟩ := Option.ne_none_iff_exists'.1 hne
  rw [opening?] at hopen
  obtain ⟨o, ho, hafter⟩ := List.exists_of_findSome?_eq_some hopen
  obtain ⟨rest', hrest, -⟩ := Option.map_eq_some_iff.1 hafter
  -- the line is white space, the opener and more
  have hbody : Line.body line = (Line.body line).takeWhile Text.isBlank ++ (o ++ rest') := by
    rw [← Text.after?_eq_some_iff.1 hrest]
    exact List.takeWhile_append_dropWhile.symm
  rw [← Line.body_append_ending line, hbody] at h
  obtain ⟨_, h, -⟩ := exists_reads_of_append h
  obtain ⟨_, hblank, h⟩ := exists_reads_of_append h
  obtain ⟨_, hopener, -⟩ := exists_reads_of_append h
  cases hblank.symm.trans (reads_blank fun c hc => List.mem_takeWhile_imp hc)
  simp only [Comment.openers, List.mem_cons, List.not_mem_nil, or_false] at ho
  rcases ho with rfl | rfl | rfl | rfl
  · cases hopener
  · cases hopener
  · cases hopener
  · cases hopener

/-- A text that is read from the start of a line to its end is silent. -/
theorem isSilent_of_reads {q : Progress} (h : Reads .blank t q) : IsSilent t := by
  intro g line hline
  obtain ⟨q', hq'⟩ := exists_reads_of_mem h hline
  rw [marker?, opening?_eq_none_of_reads hq']
  rfl

/-! ## Colons -/

/-- A marker has a colon. -/
theorem colon_of_marker? (h : (g.marker? line).isSome) : ':' ∈ line := by
  -- the colon is what follows the keyword
  obtain ⟨opener, -, before, between, keyword, -, _, rfl, -, -, htitle⟩ := isSome_marker?_iff.1 h
  obtain ⟨rest, rfl⟩ := exists_colon_of_title? htitle
  simp

/-- A text without a colon is silent. -/
theorem isSilent_of_no_colon (h : ':' ∉ t) : IsSilent t := by
  intro g line hline
  by_contra hne
  have hcolon := colon_of_marker? (Option.isSome_iff_ne_none.2 hne)
  refine h ?_
  rw [← Line.flatten_split t]
  refine List.mem_flatten.2 ⟨line, hline, ?_⟩
  rw [← Line.body_append_ending line]
  exact List.mem_append_left _ hcolon

end Grammar
end MarkerBoard
