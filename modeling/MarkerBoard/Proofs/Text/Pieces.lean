import MarkerBoard.Text.Basic

/-!
# Pieces between separators

Pieces without separators are found again when they are joined by a separator.

Main results:

* `Text.splitWhere_append_cons` — the first piece ends at the first separator.
* `Text.splitAtEach_join` — joined pieces come apart again.
* `Text.join_eq_iff_of_sublist` — a joined text shows whether a text has been left out.
* `Text.words_append_cons` — two words with a blank between them.
-/
namespace MarkerBoard.Text

variable {p : Char → Bool}

/-- A text without separators is a single piece. -/
theorem splitWhere_of_forall {t : Text} (h : ∀ c ∈ t, p c = false) : splitWhere p t = [t] := by
  induction t with
  | nil => rfl
  | cons c t ih =>
    rw [splitWhere, ih fun d hd => h d (List.mem_cons_of_mem _ hd)]
    simp [h c List.mem_cons_self]

theorem splitWhere_append_cons {s t : Text} {c : Char} (h : ∀ d ∈ s, p d = false)
    (hc : p c = true) : splitWhere p (s ++ c :: t) = s :: splitWhere p t := by
  induction s with
  | nil => simp [splitWhere, hc]
  | cons d s ih =>
    rw [List.cons_append, splitWhere, ih fun e he => h e (List.mem_cons_of_mem _ he)]
    simp [h d List.mem_cons_self]

theorem join_cons_cons (sep t u : Text) (ts : List Text) :
    join sep (t :: u :: ts) = t ++ (sep ++ join sep (u :: ts)) := by
  simp [join, List.intersperse]

theorem splitAtEach_join {c : Char} {ts : List Text} (hne : ts ≠ []) (h : ∀ t ∈ ts, c ∉ t) :
    splitAtEach c (join [c] ts) = ts := by
  have hout : ∀ t ∈ ts, ∀ d ∈ t, (d == c) = false := by
    intro t ht d hd
    simpa using fun e : d = c => h t ht (e ▸ hd)
  clear h
  induction ts with
  | nil => exact absurd rfl hne
  | cons t ts ih =>
    have ht := hout t List.mem_cons_self
    cases ts with
    | nil =>
      rw [join, List.intersperse_singleton, List.flatten_singleton, splitAtEach,
        splitWhere_of_forall ht]
    | cons u us =>
      have hjoin : join [c] (t :: u :: us) = t ++ c :: join [c] (u :: us) := join_cons_cons ..
      rw [hjoin, splitAtEach, splitWhere_append_cons ht (by simp), ← splitAtEach,
        ih (by simp) fun v hv => hout v (List.mem_cons_of_mem _ hv)]

theorem length_join_of_sublist {c : Char} {ts us : List Text} (h : ts.Sublist us)
    (hne : ∀ t ∈ us, t ≠ []) :
    (join [c] ts).length ≤ (join [c] us).length ∧
      ((join [c] ts).length = (join [c] us).length → ts = us) := by
  induction h with
  | slnil => exact ⟨Nat.le_refl _, fun _ => rfl⟩
  | @cons ts us u h ih =>
    -- a text that is left out makes the joined text shorter
    have hu := List.length_pos_iff.2 (hne u List.mem_cons_self)
    have ih := (ih fun t ht => hne t (List.mem_cons_of_mem _ ht)).1
    have hlt : (join [c] ts).length < (join [c] (u :: us)).length := by
      cases us with
      | nil =>
        rw [List.sublist_nil.1 h]
        simpa [join] using hu
      | cons v us =>
        rw [join_cons_cons, List.length_append, List.length_append]
        omega
    exact ⟨Nat.le_of_lt hlt, fun he => absurd he (Nat.ne_of_lt hlt)⟩
  | @cons_cons ts us u h ih =>
    have ih := ih fun t ht => hne t (List.mem_cons_of_mem _ ht)
    cases us with
    | nil =>
      rw [List.sublist_nil.1 h]
      exact ⟨Nat.le_refl _, fun _ => rfl⟩
    | cons v us =>
      cases ts with
      | nil =>
        have hlt : (join [c] [u]).length < (join [c] (u :: v :: us)).length := by
          rw [join_cons_cons, List.length_append, List.length_append, List.length_singleton, join,
            List.intersperse_singleton, List.flatten_singleton]
          omega
        exact ⟨Nat.le_of_lt hlt, fun he => absurd he (Nat.ne_of_lt hlt)⟩
      | cons t ts =>
        simp only [join_cons_cons, List.length_append]
        refine ⟨by omega, fun he => ?_⟩
        rw [ih.2 (by omega)]

/-- A joined text shows whether a text has been left out. -/
theorem join_eq_iff_of_sublist {c : Char} {ts us : List Text} (h : ts.Sublist us)
    (hne : ∀ t ∈ us, t ≠ []) : join [c] ts = join [c] us ↔ ts = us :=
  ⟨fun he => (length_join_of_sublist h hne).2 (congrArg List.length he), fun he => he ▸ rfl⟩

theorem words_append_cons {s t : Text} {c : Char} (hs : ∀ d ∈ s, isBlank d = false)
    (hc : isBlank c = true) (ht : ∀ d ∈ t, isBlank d = false) (hsn : s ≠ []) (htn : t ≠ []) :
    words (s ++ c :: t) = [s, t] := by
  rw [words, splitWhere_append_cons hs hc, splitWhere_of_forall ht]
  simp [hsn, htn]

end MarkerBoard.Text
