import MarkerBoard.Grammar.Basic
import Mathlib.Data.List.Basic

/-!
# Words at the start of a text

Several words may fit a text, because one begins with another. A reader takes the longest one
whose continuation it accepts, so a word is found if no longer one is accepted.

Main results:

* `Grammar.isSome_word?_iff` — when a word is found at all.
* `Grammar.length_le_of_firstWord?`, `Grammar.firstWord?_congr` — the longest word that fits is
  found, in whatever order equally long ones are asked for.
* `Grammar.firstWord?_longestFirst_eq` — a word is found if no longer one fits.
* `Grammar.findSome?_afterBlanks` — where words that begin without white space are found.
* `Grammar.word?_eq_of_firstWord?` — all leading white space is left out if that works.
-/
namespace MarkerBoard

namespace Text

theorem mem_longestFirst {w : Text} {words : List Text} : w ∈ longestFirst words ↔ w ∈ words := by
  rw [longestFirst, List.mem_mergeSort, List.mem_eraseDups]

theorem pairwise_longestFirst (words : List Text) :
    (longestFirst words).Pairwise fun a b => b.length ≤ a.length := by
  have h : (longestFirst words).Pairwise fun a b => decide (b.length ≤ a.length) = true :=
    List.pairwise_mergeSort
      (fun a b c hab hbc => by
        simp only [decide_eq_true_eq] at *
        omega)
      (fun a b => by
        simp only [Bool.or_eq_true, decide_eq_true_eq]
        omega)
      words.eraseDups
  exact h.imp fun hab => by simpa using hab

end Text

namespace Grammar

variable {α : Type} {accept : Text → Option α} {words : List Text} {t w rest : Text} {a : α}

/-- The first start of a text leaves all its leading white space out. -/
theorem exists_afterBlanks_eq (t : Text) : ∃ more, afterBlanks t = Text.trimStart t :: more := by
  induction t with
  | nil => exact ⟨[], rfl⟩
  | cons c t ih =>
    obtain ⟨more, h⟩ := ih
    by_cases hc : Text.isBlank c = true
    · refine ⟨more ++ [c :: t], ?_⟩
      rw [afterBlanks, if_pos hc, h, Text.trimStart, Text.trimStart,
        List.dropWhile_cons_of_pos hc]
      rfl
    · refine ⟨[], ?_⟩
      rw [afterBlanks, if_neg hc, Text.trimStart, List.dropWhile_cons_of_neg hc]

/-- The starts of a text leave out some of its leading white space, and nothing else. -/
theorem mem_afterBlanks_iff {s : Text} : s ∈ afterBlanks t ↔
    ∃ blanks, t = blanks ++ s ∧ ∀ c ∈ blanks, Text.isBlank c = true := by
  constructor
  · intro h
    induction t with
    | nil => exact ⟨[], by simpa [afterBlanks, eq_comm] using h, by simp⟩
    | cons c t ih =>
      rw [afterBlanks] at h
      split at h
      · next hc =>
        rcases List.mem_append.1 h with h | h
        · obtain ⟨blanks, rfl, hb⟩ := ih h
          exact ⟨c :: blanks, rfl, List.forall_mem_cons.2 ⟨hc, hb⟩⟩
        · exact ⟨[], (List.mem_singleton.1 h).symm, by simp⟩
      · exact ⟨[], (List.mem_singleton.1 h).symm, by simp⟩
  · rintro ⟨blanks, rfl, hb⟩
    induction blanks with
    | nil =>
      -- the text itself is the last start
      cases s with
      | nil => exact List.mem_singleton_self _
      | cons c s =>
        rw [List.nil_append, afterBlanks]
        split <;> simp
    | cons c blanks ih =>
      obtain ⟨hc, hb⟩ := List.forall_mem_cons.1 hb
      rw [List.cons_append, afterBlanks, if_pos hc]
      exact List.mem_append_left _ (ih hb)

/-! ## Finding a word -/

theorem isSome_firstWord?_iff :
    (firstWord? accept words t).isSome ↔
      ∃ w ∈ words, ∃ rest, t = w ++ rest ∧ (accept rest).isSome := by
  rw [firstWord?, List.findSome?_isSome_iff]
  refine exists_congr fun w => and_congr_right fun _ => ?_
  rw [Option.isSome_map, Option.isSome_bind, Option.any_eq_true]
  simp only [Text.after?_eq_some_iff]

/-- A word is found if one of the words fits after some of the white space, whichever other words
fit, and wherever they do. -/
theorem isSome_word?_iff :
    (word? accept words t).isSome ↔ ∃ blanks, ∃ w ∈ words, ∃ rest, t = blanks ++ (w ++ rest) ∧
      (∀ c ∈ blanks, Text.isBlank c = true) ∧ (accept rest).isSome := by
  rw [word?, List.findSome?_isSome_iff]
  simp only [isSome_firstWord?_iff, Text.mem_longestFirst, mem_afterBlanks_iff]
  constructor
  · rintro ⟨s, ⟨blanks, rfl, hb⟩, w, hw, rest, rfl, ha⟩
    exact ⟨blanks, w, hw, rest, rfl, hb, ha⟩
  · rintro ⟨blanks, w, hw, rest, rfl, hb, ha⟩
    exact ⟨w ++ rest, ⟨blanks, rfl, hb⟩, w, hw, rest, rfl, ha⟩

/-- If longer words are asked for first, the word that is found is the longest one that fits. -/
theorem length_le_of_firstWord? {order : List Text} {v r : Text}
    (hsorted : order.Pairwise fun a b => b.length ≤ a.length)
    (h : firstWord? accept order t = some (w, a)) (hv : v ∈ order) (ht : t = v ++ r)
    (hr : (accept r).isSome) : v.length ≤ w.length := by
  rw [firstWord?, List.findSome?_eq_some_iff] at h
  obtain ⟨before, w', after, rfl, hw', hbefore⟩ := h
  obtain ⟨b, -, hfound⟩ := Option.map_eq_some_iff.1 hw'
  cases hfound
  rcases List.mem_append.1 hv with hv | hv
  · -- it would have been found earlier
    obtain ⟨b, hb⟩ := Option.isSome_iff_exists.1 hr
    have hnone := hbefore v hv
    rw [ht, Text.after?_append, Option.bind_some, hb] at hnone
    cases hnone
  · rcases List.mem_cons.1 hv with rfl | hv
    · exact Nat.le_refl _
    · exact (List.pairwise_cons.1 (List.pairwise_append.1 hsorted).2.1).1 v hv

/-- Two words that fit a text are the same if they are equally long. -/
theorem firstWord?_eq_of_length {order : List Text} {found : Text × α}
    (hsorted : order.Pairwise fun a b => b.length ≤ a.length)
    (h : firstWord? accept order (w ++ rest) = some found) (hw : w ∈ order)
    (ha : accept rest = some a) (hlength : found.1.length ≤ w.length) : found = (w, a) := by
  obtain ⟨-, r, hr, hb⟩ := firstWord?_eq_some h
  have hle : w.length ≤ found.1.length :=
    length_le_of_firstWord? hsorted h hw rfl (by rw [ha]; rfl)
  obtain ⟨hword, hrest⟩ := List.append_inj hr (Nat.le_antisymm hle hlength)
  rw [← hrest, ha] at hb
  rw [hword, Option.some.inj hb]

/-- It does not matter in which order equally long words are asked for. -/
theorem firstWord?_congr {order order' : List Text} (hmem : ∀ w, w ∈ order ↔ w ∈ order')
    (hsorted : order.Pairwise fun a b => b.length ≤ a.length)
    (hsorted' : order'.Pairwise fun a b => b.length ≤ a.length) (t : Text) :
    firstWord? accept order t = firstWord? accept order' t := by
  have hsome : (firstWord? accept order t).isSome ↔ (firstWord? accept order' t).isSome := by
    simp only [isSome_firstWord?_iff, hmem]
  cases h : firstWord? accept order t with
  | none =>
    rw [h] at hsome
    exact (Option.not_isSome_iff_eq_none.1 fun h' => absurd (hsome.2 h') (by simp)).symm
  | some found =>
    obtain ⟨⟨w', a'⟩, h'⟩ := Option.isSome_iff_exists.1 (hsome.1 (by rw [h]; rfl))
    obtain ⟨hw, r, rfl, ha⟩ := firstWord?_eq_some h
    -- neither of the two words is longer than the other one
    obtain ⟨hw', r', hr', ha'⟩ := firstWord?_eq_some h'
    have hle := length_le_of_firstWord? hsorted h ((hmem w').2 hw') hr' (by rw [ha']; rfl)
    have hle' := length_le_of_firstWord? hsorted' h' ((hmem _).1 hw) rfl (by rw [ha]; rfl)
    rw [h', firstWord?_eq_of_length hsorted' h' ((hmem _).1 hw) ha hle]

/-- A word is found if its continuation is accepted and that of no longer word is. -/
theorem firstWord?_longestFirst_eq (hw : w ∈ words) (ha : accept rest = some a)
    (hlong : ∀ v ∈ words, ∀ r, w ++ rest = v ++ r → w.length < v.length → accept r = none) :
    firstWord? accept (Text.longestFirst words) (w ++ rest) = some (w, a) := by
  have hmem := Text.mem_longestFirst.2 hw
  obtain ⟨⟨v, b⟩, h⟩ : ∃ found, firstWord? accept (Text.longestFirst words) (w ++ rest) =
      some found :=
    Option.isSome_iff_exists.1 (isSome_firstWord?_iff.2 ⟨w, hmem, rest, rfl, by rw [ha]; rfl⟩)
  have hlength : v.length ≤ w.length := by
    by_contra hlt
    obtain ⟨hv, r, hr, hb⟩ := firstWord?_eq_some h
    rw [hlong v (Text.mem_longestFirst.1 hv) r hr (by omega)] at hb
    cases hb
  rw [h, firstWord?_eq_of_length (Text.pairwise_longestFirst words) h hmem ha hlength]

/-- Words that do not begin with white space are found after all of it. -/
theorem findSome?_afterBlanks {order : List Text}
    (h : ∀ w ∈ order, w ≠ [] ∧ ∀ c ∈ w.head?, Text.isBlank c = false) (t : Text) :
    (afterBlanks t).findSome? (firstWord? accept order) =
      firstWord? accept order (Text.trimStart t) := by
  induction t with
  | nil =>
    rw [afterBlanks, List.findSome?_cons, List.findSome?_nil]
    show _ = firstWord? accept order []
    cases firstWord? accept order [] <;> rfl
  | cons c t ih =>
    by_cases hc : Text.isBlank c = true
    · -- no word begins with the white space that is left
      have hnone : firstWord? accept order (c :: t) = none := by
        rw [← Option.not_isSome_iff_eq_none, isSome_firstWord?_iff]
        rintro ⟨w, hw, rest, hsplit, -⟩
        obtain ⟨hne, hhead⟩ := h w hw
        obtain ⟨d, w, rfl⟩ := List.exists_cons_of_ne_nil hne
        obtain ⟨rfl, -⟩ := List.cons.inj hsplit
        exact absurd (hhead c rfl) (by rw [hc]; simp)
      rw [afterBlanks, if_pos hc, List.findSome?_append, ih, List.findSome?_cons, hnone,
        List.findSome?_nil, Option.or_none, Text.trimStart, Text.trimStart,
        List.dropWhile_cons_of_pos hc]
    · rw [afterBlanks, if_neg hc, List.findSome?_cons, List.findSome?_nil, Text.trimStart,
        List.dropWhile_cons_of_neg hc]
      cases firstWord? accept order (c :: t) <;> rfl

/-- A word that is found with all leading white space left out is the word that counts. -/
theorem word?_eq_of_firstWord? {found : Text × α}
    (h : firstWord? accept (Text.longestFirst words) (Text.trimStart t) = some found) :
    word? accept words t = some found := by
  obtain ⟨more, he⟩ := exists_afterBlanks_eq t
  rw [word?, he, List.findSome?_cons, h]

end Grammar
end MarkerBoard
