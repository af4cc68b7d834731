import Mathlib.Data.List.DropRight
import MarkerBoard.Text.Basic

/-!
# The ends of texts

Trimming takes a class of characters away from an end of a text. What is left has no such
character at that end, and what was taken away consists of them.

Main results:

* `Text.exists_dropEnd_append` — a text is what trimming its end leaves, then characters of the
  class.
* `Text.dropEnd_append_of_all` — characters of the class that are added at the end are taken away
  again.
* `Text.dropEnd_eq_self` — nothing is taken away from a text that ends outside the class.
* `Text.exists_dropEnds_append`, `Text.dropEnds_eq` — the same for both ends at once.
-/
namespace MarkerBoard.Text

variable {p : Char → Bool}

/-- The text is empty or ends in a character outside the class. -/
def EndsOutside (p : Char → Bool) (t : Text) : Prop := ∀ c ∈ t.getLast?, p c = false

/-- The text is empty or begins with a character outside the class. -/
def BeginsOutside (p : Char → Bool) (t : Text) : Prop := ∀ c ∈ t.head?, p c = false

/-! ## At the start -/

theorem dropWhile_eq_self {t : Text} (h : BeginsOutside p t) : t.dropWhile p = t := by
  cases t with
  | nil => rfl
  | cons c t => rw [List.dropWhile_cons_of_neg (by simp [h c rfl])]

theorem beginsOutside_dropWhile (p : Char → Bool) (t : Text) :
    BeginsOutside p (t.dropWhile p) := by
  intro c hc
  have h := List.head?_dropWhile_not p t
  rw [Option.mem_def.1 hc] at h
  simpa using h

/-- Trimming the start takes away exactly a run of the class that stands before other text. -/
theorem dropWhile_append_eq {s t : Text} (hs : ∀ c ∈ s, p c = true) (ht : BeginsOutside p t) :
    (s ++ t).dropWhile p = t := by
  rw [List.dropWhile_append_of_pos hs, dropWhile_eq_self ht]

/-- White space in front of a visible character is trimmed, and nothing else. -/
theorem trimStart_append_eq {s t : Text} (hs : ∀ c ∈ s, isBlank c = true)
    (ht : BeginsOutside isBlank t) : trimStart (s ++ t) = t :=
  dropWhile_append_eq hs ht

/-! ## At the end -/

theorem exists_dropEnd_append (p : Char → Bool) (t : Text) :
    ∃ rest, t = dropEnd p t ++ rest ∧ ∀ c ∈ rest, p c = true :=
  ⟨t.rtakeWhile p, (List.rdropWhile_append_rtakeWhile).symm, fun _ => List.mem_rtakeWhile_imp⟩

theorem endsOutside_dropEnd (p : Char → Bool) (t : Text) : EndsOutside p (dropEnd p t) := by
  intro c hc
  rw [dropEnd, List.getLast?_reverse] at hc
  exact beginsOutside_dropWhile p t.reverse c hc

theorem dropEnd_eq_self {t : Text} (h : EndsOutside p t) : dropEnd p t = t := by
  rw [dropEnd, dropWhile_eq_self, List.reverse_reverse]
  intro c hc
  rw [List.head?_reverse] at hc
  exact h c hc

theorem dropEnd_append_of_all {t rest : Text} (h : ∀ c ∈ rest, p c = true) :
    dropEnd p (t ++ rest) = dropEnd p t := by
  rw [dropEnd, dropEnd, List.reverse_append, List.dropWhile_append_of_pos]
  intro c hc
  exact h c (List.mem_reverse.1 hc)

theorem endsOutside_append {s t : Text} (ht : t ≠ []) (h : EndsOutside p t) :
    EndsOutside p (s ++ t) := by
  intro c hc
  obtain ⟨u, d, rfl⟩ := (List.eq_nil_or_concat' t).resolve_left ht
  refine h c ?_
  simpa using hc

theorem dropEnd_append {s : Text} (hs : EndsOutside p s) (t : Text) :
    dropEnd p (s ++ t) = s ++ dropEnd p t := by
  obtain ⟨rest, ht, hrest⟩ := exists_dropEnd_append p t
  conv_lhs => rw [ht, ← List.append_assoc, dropEnd_append_of_all hrest]
  refine dropEnd_eq_self ?_
  by_cases hne : dropEnd p t = []
  · rw [hne, List.append_nil]
    exact hs
  · exact endsOutside_append hne (endsOutside_dropEnd p t)

theorem endsOutside_of_forall {t : Text} (h : ∀ c ∈ t, p c = false) : EndsOutside p t :=
  fun c hc => h c (List.mem_of_getLast? hc)

/-! ## At both ends -/

theorem beginsOutside_dropEnd {t : Text} (h : BeginsOutside p t) :
    BeginsOutside p (dropEnd p t) := by
  obtain ⟨rest, ht, -⟩ := exists_dropEnd_append p t
  intro c hc
  refine h c ?_
  rw [ht, List.head?_append, Option.mem_def.1 hc]
  rfl

theorem exists_dropEnds_append (p : Char → Bool) (t : Text) :
    ∃ front back, t = front ++ (dropEnds p t ++ back) ∧ (∀ c ∈ front, p c = true) ∧
      ∀ c ∈ back, p c = true := by
  obtain ⟨back, hback, hall⟩ := exists_dropEnd_append p (t.dropWhile p)
  refine ⟨t.takeWhile p, back, ?_, fun c hc => List.mem_takeWhile_imp hc, hall⟩
  rw [dropEnds, ← hback, List.takeWhile_append_dropWhile]

theorem beginsOutside_dropEnds (p : Char → Bool) (t : Text) : BeginsOutside p (dropEnds p t) :=
  beginsOutside_dropEnd (beginsOutside_dropWhile p t)

theorem endsOutside_dropEnds (p : Char → Bool) (t : Text) : EndsOutside p (dropEnds p t) :=
  endsOutside_dropEnd p _

theorem dropEnds_dropEnds (p : Char → Bool) (t : Text) :
    dropEnds p (dropEnds p t) = dropEnds p t := by
  rw [dropEnds, dropWhile_eq_self (beginsOutside_dropEnds p t),
    dropEnd_eq_self (endsOutside_dropEnds p t)]

end MarkerBoard.Text
