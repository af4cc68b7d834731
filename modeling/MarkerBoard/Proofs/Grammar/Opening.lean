import MarkerBoard.Grammar.Basic
import MarkerBoard.Proofs.Text.Ends

/-!
# The opener of a line

A line is a comment if an opener is the first thing to be seen on it. No opener begins with another
one, and none has white space in it. So a line has one opener at most, and there is one way to cut
it into white space, the opener and the rest.

Main results:

* `Grammar.opening?_eq_some_iff` — the opener of a line, and what follows it.
-/
namespace MarkerBoard

variable {opener indent line t : Text}

namespace Comment

theorem opener_ne_nil (ho : opener ∈ openers) : opener ≠ [] := by
  rintro rfl
  exact absurd ho (by decide)

theorem endsOutside_opener (ho : opener ∈ openers) : Text.EndsOutside Text.isBlank opener := by
  simp only [openers, List.mem_cons, List.not_mem_nil, or_false] at ho
  rcases ho with rfl | rfl | rfl | rfl
  all_goals
    intro c hc
    cases hc
    decide

end Comment

namespace Grammar

theorem beginsOutside_opener (ho : opener ∈ Comment.openers) (t : Text) :
    Text.BeginsOutside Text.isBlank (opener ++ t) := by
  simp only [Comment.openers, List.mem_cons, List.not_mem_nil, or_false] at ho
  rcases ho with rfl | rfl | rfl | rfl
  all_goals
    intro c hc
    cases hc
    decide

theorem opening?_blank_append (hi : ∀ c ∈ indent, Text.isBlank c = true) (t : Text) :
    opening? (indent ++ t) = opening? t := by
  rw [opening?, opening?, Text.trimStart, List.dropWhile_append_of_pos hi]
  rfl

/-- No opener begins with another one. -/
theorem opening?_append (ho : opener ∈ Comment.openers)
    (hi : ∀ c ∈ indent, Text.isBlank c = true) (t : Text) :
    opening? (indent ++ (opener ++ t)) = some (opener, t) := by
  rw [opening?, Text.trimStart_append_eq hi (beginsOutside_opener ho t)]
  simp only [Comment.openers, List.mem_cons, List.not_mem_nil, or_false] at ho
  rcases ho with rfl | rfl | rfl | rfl <;> rfl

theorem opening?_eq_some_iff : opening? line = some (opener, t) ↔ opener ∈ Comment.openers ∧
    ∃ before, line = before ++ (opener ++ t) ∧ ∀ c ∈ before, Text.isBlank c = true := by
  constructor
  · intro h
    obtain ⟨o, ho, hafter⟩ := List.exists_of_findSome?_eq_some h
    obtain ⟨t', ht', heq⟩ := Option.map_eq_some_iff.1 hafter
    cases heq
    refine ⟨ho, line.takeWhile Text.isBlank, ?_, fun c hc => List.mem_takeWhile_imp hc⟩
    rw [← Text.after?_eq_some_iff.1 ht', Text.trimStart, List.takeWhile_append_dropWhile]
  · rintro ⟨ho, before, rfl, hbefore⟩
    exact opening?_append ho hbefore t

end Grammar
end MarkerBoard
