import MarkerBoard.Line
import MarkerBoard.Proofs.Text.Ends
import Mathlib.Data.Set.Function

/-!
# Texts and their lines

A list of lines is a cut when every line is ended by a line feed and has no other one, except that
the last line may be a part of a line without its line feed. Splitting a text gives a cut, and a
cut is what splitting its text gives back.

Main results:

* `Line.isCut_split` — the lines of a text are a cut.
* `Line.split_flatten` — the lines of a cut put together are split into the same lines.
* `Line.isCut_iff` — which lists are cuts, told line by line.
* `Line.body_append`, `Line.ending_append` — text and terminator of a line can be told apart.
* `Line.bijOn_split` — texts and lists of lines stand for each other.
-/
namespace MarkerBoard.Line

/-- The line is ended by its only line feed. -/
def Ended (line : Text) : Prop := ∃ t, '\n' ∉ t ∧ line = t ++ ['\n']

/-- The line is not empty and has no line feed. -/
def Open (line : Text) : Prop := line ≠ [] ∧ '\n' ∉ line

/-- All lines are ended, except that the last one may be open. -/
def IsCut (lines : List Text) : Prop :=
  ∃ ended rest, lines = ended ++ rest ∧ (∀ l ∈ ended, Ended l) ∧
    (rest = [] ∨ ∃ l, Open l ∧ rest = [l])

/-! ## Splitting -/

theorem split_append_of_ended {line : Text} (h : Ended line) (t : Text) :
    split (line ++ t) = line :: split t := by
  obtain ⟨s, hs, rfl⟩ := h
  induction s with
  | nil => simp [split]
  | cons c s ih =>
    rw [List.mem_cons, not_or] at hs
    obtain ⟨hc, hs⟩ := hs
    have ih := ih hs
    rw [List.append_assoc] at ih ⊢
    rw [List.cons_append, split, if_neg (Ne.symm hc), ih]
    rfl

theorem split_flatten_append {lines : List Text} (h : ∀ l ∈ lines, Ended l) (t : Text) :
    split (lines.flatten ++ t) = lines ++ split t := by
  induction lines with
  | nil => rfl
  | cons line lines ih =>
    rw [List.flatten_cons, List.append_assoc,
      split_append_of_ended (h line List.mem_cons_self),
      ih fun l hl => h l (List.mem_cons_of_mem _ hl)]
    rfl

theorem split_of_open {line : Text} (h : Open line) : split line = [line] := by
  obtain ⟨hne, h⟩ := h
  induction line with
  | nil => exact absurd rfl hne
  | cons c t ih =>
    rw [List.mem_cons, not_or] at h
    obtain ⟨hc, ht⟩ := h
    rw [split, if_neg (Ne.symm hc)]
    cases t with
    | nil => rfl
    | cons d t => rw [ih (by simp) ht]

/-- Only the last line of a cut may be open. -/
theorem isCut_append_iff {lines rest : List Text} (h : rest ≠ []) :
    IsCut (lines ++ rest) ↔ (∀ l ∈ lines, Ended l) ∧ IsCut rest := by
  constructor
  · intro hc
    induction lines with
    | nil => exact ⟨by simp, hc⟩
    | cons line lines ih =>
      obtain ⟨ended, last, hl, he, hr⟩ := hc
      cases ended with
      | cons l ended =>
        rw [List.cons_append, List.cons_append, List.cons.injEq] at hl
        obtain ⟨rfl, hl⟩ := hl
        have ih := ih ⟨ended, last, hl, fun m hm => he m (List.mem_cons_of_mem _ hm), hr⟩
        exact ⟨by simpa using ⟨he line List.mem_cons_self, ih.1⟩, ih.2⟩
      | nil =>
        -- the only line left is the open one, so nothing can follow it
        obtain rfl | ⟨l, -, rfl⟩ := hr
        · simp at hl
        · simp only [List.cons_append, List.nil_append, List.cons.injEq, List.append_eq_nil_iff]
            at hl
          exact absurd hl.2.2 h
  · rintro ⟨he, ended, last, rfl, he', hr⟩
    refine ⟨lines ++ ended, last, by simp, ?_, hr⟩
    intro l hl
    rcases List.mem_append.1 hl with hl | hl
    · exact he l hl
    · exact he' l hl

theorem isCut_of_ended {lines : List Text} (h : ∀ l ∈ lines, Ended l) : IsCut lines :=
  ⟨lines, [], by simp, h, Or.inl rfl⟩

/-- The lines at the start of the lines of a text are the lines of a text. -/
theorem IsCut.of_append {lines rest : List Text} (h : IsCut (lines ++ rest)) : IsCut lines := by
  by_cases hrest : rest = []
  · rwa [hrest, List.append_nil] at h
  · exact isCut_of_ended ((isCut_append_iff hrest).1 h).1

theorem isCut_singleton_iff {line : Text} : IsCut [line] ↔ Ended line ∨ Open line := by
  constructor
  · rintro ⟨ended, rest, h, he, rfl | ⟨l, hl, rfl⟩⟩
    · rw [List.append_nil] at h
      exact Or.inl (he line (by simp [← h]))
    · cases ended with
      | nil =>
        rw [List.nil_append, List.cons.injEq] at h
        exact Or.inr (h.1 ▸ hl)
      | cons e ended => simp at h
  · rintro (h | h)
    · exact isCut_of_ended (by simpa using h)
    · exact ⟨[], [line], rfl, by simp, Or.inr ⟨line, h, rfl⟩⟩

theorem split_flatten {lines : List Text} (h : IsCut lines) : split lines.flatten = lines := by
  obtain ⟨ended, rest, rfl, he, rfl | ⟨l, hl, rfl⟩⟩ := h
  · have := split_flatten_append he []
    simpa [split] using this
  · rw [List.flatten_append, split_flatten_append he]
    simp [split_of_open hl]

theorem isCut_cons_of_ended {line : Text} {lines : List Text} (h : Ended line)
    (hs : IsCut lines) : IsCut (line :: lines) := by
  obtain ⟨ended, rest, rfl, he, hr⟩ := hs
  exact ⟨line :: ended, rest, rfl, by simpa using ⟨h, he⟩, hr⟩

theorem isCut_split (t : Text) : IsCut (split t) := by
  induction t with
  | nil => exact ⟨[], [], rfl, by simp, Or.inl rfl⟩
  | cons c t ih =>
    by_cases hc : c = '\n'
    · subst hc
      rw [split, if_pos rfl]
      exact isCut_cons_of_ended ⟨[], by simp, rfl⟩ ih
    · rw [split, if_neg hc]
      obtain ⟨ended, rest, hsplit, he, hr⟩ := ih
      rw [hsplit]
      cases ended with
      | cons line ended =>
        -- the character joins a line that is ended
        obtain ⟨s, hs, rfl⟩ := he line List.mem_cons_self
        have hline : Ended (c :: (s ++ ['\n'])) := ⟨c :: s, by simpa [Ne.symm hc] using hs, rfl⟩
        exact isCut_cons_of_ended hline
          ⟨ended, rest, rfl, fun l hl => he l (List.mem_cons_of_mem _ hl), hr⟩
      | nil =>
        obtain rfl | ⟨l, hl, rfl⟩ := hr
        · exact ⟨[], [[c]], rfl, by simp, Or.inr ⟨[c], ⟨by simp, by simpa using Ne.symm hc⟩, rfl⟩⟩
        · refine ⟨[], [c :: l], rfl, by simp, Or.inr ⟨c :: l, ⟨by simp, ?_⟩, rfl⟩⟩
          simpa [Ne.symm hc] using hl.2

/-! ## Lists of lines, told line by line -/

/-- No line is empty, each but the last one ends in a line feed, and none has a line feed before its
end. -/
structure AreLines (lines : List Text) : Prop where
  ne_nil : ∀ l ∈ lines, l ≠ []
  ended : ∀ l ∈ lines.dropLast, l.getLast? = some '\n'
  inner : ∀ l ∈ lines, '\n' ∉ l.dropLast

theorem ended_iff {line : Text} :
    Ended line ↔ line.getLast? = some '\n' ∧ '\n' ∉ line.dropLast := by
  constructor
  · rintro ⟨t, ht, rfl⟩
    exact ⟨List.getLast?_concat, by rwa [List.dropLast_concat]⟩
  · rintro ⟨hlast, hinner⟩
    exact ⟨line.dropLast, hinner, (List.dropLast_append_getLast? '\n' hlast).symm⟩

/-- A line feed is the last character of a line, or the line has none. -/
theorem ended_or_open_iff {line : Text} :
    Ended line ∨ Open line ↔ line ≠ [] ∧ '\n' ∉ line.dropLast := by
  constructor
  · rintro (h | h)
    · obtain ⟨t, ht, rfl⟩ := h
      exact ⟨by simp, by rwa [List.dropLast_concat]⟩
    · exact ⟨h.1, fun hlf => h.2 (List.dropLast_subset line hlf)⟩
  · rintro ⟨hne, hinner⟩
    obtain ⟨t, c, rfl⟩ := (List.eq_nil_or_concat' line).resolve_left hne
    rw [List.dropLast_concat] at hinner
    by_cases hc : c = '\n'
    · exact .inl ⟨t, hinner, by rw [hc]⟩
    · exact .inr ⟨hne, by simp [hinner, Ne.symm hc]⟩

theorem isCut_iff {lines : List Text} : IsCut lines ↔ AreLines lines := by
  obtain rfl | ⟨init, l, rfl⟩ := lines.eq_nil_or_concat'
  · exact iff_of_true (isCut_of_ended (by simp)) ⟨by simp, by simp, by simp⟩
  rw [isCut_append_iff (by simp), isCut_singleton_iff, ended_or_open_iff]
  constructor
  · rintro ⟨hinit, hne, hinner⟩
    refine ⟨?_, ?_, ?_⟩
    · refine List.forall_mem_append.2 ⟨fun k hk => ?_, List.forall_mem_singleton.2 hne⟩
      exact (ended_or_open_iff.1 (.inl (hinit k hk))).1
    · rw [List.dropLast_concat]
      exact fun k hk => (ended_iff.1 (hinit k hk)).1
    · refine List.forall_mem_append.2 ⟨fun k hk => ?_, List.forall_mem_singleton.2 hinner⟩
      exact (ended_iff.1 (hinit k hk)).2
  · rintro ⟨hne, hended, hinner⟩
    rw [List.dropLast_concat] at hended
    refine ⟨fun k hk => ended_iff.2 ⟨hended k hk, hinner k (List.mem_append_left _ hk)⟩, ?_, ?_⟩
    · exact hne l (List.mem_append_right _ (List.mem_singleton_self l))
    · exact hinner l (List.mem_append_right _ (List.mem_singleton_self l))

theorem areLines_split (t : Text) : AreLines (split t) := isCut_iff.1 (isCut_split t)

theorem ne_nil_of_mem_split {t line : Text} (hl : line ∈ split t) : line ≠ [] :=
  (areLines_split t).ne_nil line hl

/-- A list of lines survives being put together and split just if it is the list of some text. -/
theorem split_flatten_eq_iff {lines : List Text} :
    split lines.flatten = lines ↔ AreLines lines := by
  constructor
  · intro h
    rw [← h]
    exact areLines_split lines.flatten
  · exact fun h => split_flatten (isCut_iff.2 h)

/-! ## Text and terminator -/

theorem ending_eq_rtakeWhile (line : Text) : ending line = line.rtakeWhile isEol := rfl

theorem isEol_of_mem_ending {line : Text} {c : Char} (h : c ∈ ending line) : isEol c = true :=
  List.mem_rtakeWhile_imp h

theorem forall_isEol_iff {t : Text} : (∀ c ∈ t, isEol c = false) ↔ '\n' ∉ t ∧ '\r' ∉ t := by
  constructor
  · exact fun h => ⟨fun hc => absurd (h _ hc) (by decide), fun hc => absurd (h _ hc) (by decide)⟩
  · rintro ⟨hlf, hcr⟩ c hc
    simp only [isEol, Bool.or_eq_false_iff, beq_eq_false_iff_ne]
    exact ⟨fun e => hlf (e ▸ hc), fun e => hcr (e ▸ hc)⟩

theorem endsOutside_body (line : Text) : Text.EndsOutside isEol (body line) :=
  Text.endsOutside_dropEnd isEol line

/-- A terminator put after a text that has none at its end is the line's terminator. -/
theorem body_append {t e : Text} (ht : Text.EndsOutside isEol t) (he : ∀ c ∈ e, isEol c = true) :
    body (t ++ e) = t := by
  rw [body, Text.dropEnd_append_of_all he, Text.dropEnd_eq_self ht]

theorem ending_append {t e : Text} (ht : Text.EndsOutside isEol t) (he : ∀ c ∈ e, isEol c = true) :
    ending (t ++ e) = e := by
  have hline := body_append_ending (t ++ e)
  rw [body_append ht he] at hline
  exact List.append_cancel_left hline

/-- The terminator of a line comes after its last character that belongs to none. -/
theorem body_append_cons {c : Char} (hc : isEol c = false) (front back : Text) :
    body (front ++ c :: back) = front ++ c :: body back := by
  have hends : Text.EndsOutside isEol (front ++ [c]) := by
    intro d hd
    rw [List.getLast?_concat] at hd
    exact Option.some.inj hd ▸ hc
  have hdrop := Text.dropEnd_append hends back
  rwa [List.append_assoc, List.append_assoc] at hdrop

/-- The terminator of an ended line is an ended line itself. -/
theorem ended_ending {line : Text} (h : Ended line) : Ended (ending line) := by
  obtain ⟨s, hs, rfl⟩ := h
  rw [ending_eq_rtakeWhile, List.rtakeWhile_concat_pos _ _ _ (by decide)]
  exact ⟨s.rtakeWhile isEol, fun h => hs ((List.rtakeWhile_suffix ..).subset h), rfl⟩

theorem not_mem_body_of_ended {line : Text} (h : Ended line) : '\n' ∉ body line := by
  obtain ⟨s, hs, rfl⟩ := h
  have : body (s ++ ['\n']) = body s :=
    Text.dropEnd_append_of_all (by simp [isEol])
  rw [this]
  exact fun h => hs ((List.rdropWhile_prefix ..).subset h)

theorem ended_append {t e : Text} (ht : '\n' ∉ t) (he : Ended e) : Ended (t ++ e) := by
  obtain ⟨s, hs, rfl⟩ := he
  exact ⟨t ++ s, by simp [ht, hs], by simp⟩

/-! ## Texts that do not end in a carriage return -/

/-- The line is ended, or it is the open last line of a text and ends in no carriage return. -/
def Whole (line : Text) : Prop := Ended line ∨ Open line ∧ ending line = []

theorem not_mem_body {line : Text} (h : Ended line ∨ Open line) : '\n' ∉ body line := by
  obtain h | h := h
  · exact not_mem_body_of_ended h
  · exact fun hm => h.2 ((List.rdropWhile_prefix ..).subset hm)

theorem Whole.not_mem_body {line : Text} (h : Whole line) : '\n' ∉ body line :=
  Line.not_mem_body (h.imp_right And.left)

theorem Whole.ending_eq_nil_or {line : Text} (h : Whole line) :
    ending line = [] ∨ Ended (ending line) := by
  obtain h | ⟨-, h⟩ := h
  · exact Or.inr (ended_ending h)
  · exact Or.inl h

theorem Whole.getLast?_ne {line : Text} (h : Whole line) : line.getLast? ≠ some '\r' := by
  obtain ⟨t, -, rfl⟩ | ⟨-, hending⟩ := h
  · simp
  · intro hlast
    rw [ending_eq_rtakeWhile, List.rtakeWhile_eq_nil_iff] at hending
    have hne : line ≠ [] := by
      rintro rfl
      cases hlast
    rw [List.getLast?_eq_some_getLast hne, Option.some.injEq] at hlast
    exact hending hne (by rw [hlast]; rfl)

theorem whole_of_getLast? {line : Text} (h : Ended line ∨ Open line)
    (hcr : line.getLast? ≠ some '\r') : Whole line := by
  refine h.imp_right fun ho => ⟨ho, ?_⟩
  rw [ending_eq_rtakeWhile, List.rtakeWhile_eq_nil_iff]
  intro hne hc
  rw [List.getLast?_eq_some_getLast hne, Ne, Option.some.injEq] at hcr
  rw [isEol, Bool.or_eq_true, beq_iff_eq, beq_iff_eq] at hc
  obtain hc | hc := hc
  · exact ho.2 (hc ▸ List.getLast_mem hne)
  · exact hcr hc

theorem whole_of_mem_split {t : Text} (h : t.getLast? ≠ some '\r') {line : Text}
    (hl : line ∈ split t) : Whole line := by
  obtain ⟨ended, rest, hs, he, hr⟩ := isCut_split t
  rw [hs, List.mem_append] at hl
  obtain hl | hl := hl
  · exact Or.inl (he line hl)
  obtain rfl | ⟨l, ho, rfl⟩ := hr
  · simp at hl
  rw [List.mem_singleton] at hl
  subst hl
  refine whole_of_getLast? (.inr ho) ?_
  rwa [← flatten_split t, hs, List.flatten_append, List.flatten_singleton,
    List.getLast?_append_of_ne_nil _ ho.1] at h

/-- If a text ends in a line feed, so do all its lines. -/
theorem ended_of_mem_split {t line : Text} (h : t.getLast? = some '\n') (hl : line ∈ split t) :
    Ended line := by
  obtain ⟨ended, rest, hs, he, hr⟩ := isCut_split t
  rw [hs, List.mem_append] at hl
  refine hl.elim (he line) fun hl => ?_
  obtain rfl | ⟨l, ho, rfl⟩ := hr
  · exact absurd hl List.not_mem_nil
  · -- an open line would be the last one
    rw [← flatten_split t, hs, List.flatten_append, List.flatten_singleton,
      List.getLast?_append_of_ne_nil _ ho.1] at h
    exact absurd (List.mem_of_getLast? h) ho.2

/-! ## Texts and lists of lines -/

/-- Texts and lists of lines stand for each other: splitting and putting together undo each other.
So a list of texts is split again where it was put together just if it is a list of lines. Each line
is its text and its terminator, where the text does not end in a carriage return or line feed, and
the terminator has nothing else in it. -/
theorem bijOn_split :
    Set.BijOn split Set.univ {lines | AreLines lines} ∧
    (∀ t, (split t).flatten = t) ∧
    (∀ lines, split lines.flatten = lines ↔ AreLines lines) ∧
    ∀ line, body line ++ ending line = line ∧
      (body line).getLast? ≠ some '\r' ∧ (body line).getLast? ≠ some '\n' ∧
      ending line ⊆ ['\r', '\n'] := by
  refine ⟨?_, flatten_split, fun _ => split_flatten_eq_iff, fun line => ⟨?_, ?_, ?_, ?_⟩⟩
  · have hinv : Set.InvOn List.flatten split Set.univ {lines | AreLines lines} :=
      ⟨fun t _ => flatten_split t, fun _ h => split_flatten_eq_iff.2 h⟩
    exact hinv.bijOn (fun t _ => areLines_split t) fun _ _ => Set.mem_univ _
  · exact body_append_ending line
  · exact fun hcr => absurd (endsOutside_body line _ hcr) (by decide)
  · exact fun hlf => absurd (endsOutside_body line _ hlf) (by decide)
  · intro c hc
    have heol := isEol_of_mem_ending hc
    rw [isEol, Bool.or_eq_true, beq_iff_eq, beq_iff_eq] at heol
    rw [List.mem_cons, List.mem_singleton]
    exact heol.symm

/-- A carriage return ends no line, but it is never a part of the text at the end of one. -/
example : (split "a\rb\r\r\n\n\r".toList).map (fun l => (body l, ending l)) =
    [("a\rb".toList, "\r\r\n".toList), ([], "\n".toList), ([], "\r".toList)] := by decide

end MarkerBoard.Line
