import MarkerBoard.Proofs.Grammar.Silent
import MarkerBoard.Proofs.Json.RoundTrip

/-!
# Written values have no markers

The line breaks of a written value are those between its elements, because strings are written
without any. So each line begins with a bracket, a quote, a letter, or a number that may have a
minus sign, and none of these opens a comment.

Main results:

* `Json.reads_printAt` — no line of a written value begins like a comment.
-/
namespace MarkerBoard.Json

open Line Binary64

variable {p : Progress} {c : Char} {t : Text}

/-! ## Tokens -/

/-- A token that does not begin like a comment. -/
theorem reads_token (hp : p ≠ .dash) (hc : Progress.next .blank c = some .text) (ht : '\n' ∉ t) :
    Reads p (c :: t) .text := by
  refine reads_cons_iff.2 ⟨.text, ?_, reads_text ht⟩
  cases p with
  | blank => exact hc
  | dash => exact absurd rfl hp
  | text =>
    have hlf : c ≠ '\n' := by
      rintro rfl
      cases hc
    rw [Progress.next, if_neg hlf]

/-- A single dash in front of it does not change that. -/
theorem reads_signed (hp : p ≠ .dash) (hc : Progress.next .blank c = some .text) (ht : '\n' ∉ t)
    (negative : Bool) : Reads p ((if negative then ['-'] else []) ++ c :: t) .text := by
  cases negative with
  | false => exact reads_token hp hc ht
  | true =>
    have hlf : c ≠ '\n' := by
      rintro rfl
      cases hc
    have hdash : c ≠ '-' := by
      rintro rfl
      cases hc
    have hnext : Progress.next .dash c = some .text := by
      rw [Progress.next, if_neg hlf]
      exact if_neg hdash
    cases p with
    | blank => exact reads_cons_iff.2 ⟨.dash, rfl, reads_cons_iff.2 ⟨.text, hnext, reads_text ht⟩⟩
    | dash => exact absurd rfl hp
    | text =>
      have hlf' : Progress.next .text c = some .text := by rw [Progress.next, if_neg hlf]
      exact reads_cons_iff.2 ⟨.text, rfl, reads_cons_iff.2 ⟨.text, hlf', reads_text ht⟩⟩

theorem not_mem_of_isDelimiter (h : ∀ c ∈ t, isDelimiter c = false) : '\n' ∉ t := by
  intro hmem
  cases h _ hmem

/-! ## Numbers -/

/-- The text begins with a character that opens no comment. -/
def BeginsPlainly (t : Text) : Prop := ∃ c ∈ t.head?, Progress.next .blank c = some .text

theorem BeginsPlainly.append (h : BeginsPlainly t) (rest : Text) :
    BeginsPlainly (t ++ rest) := by
  obtain ⟨c, hc, hnext⟩ := h
  obtain ⟨t', rfl⟩ := List.head?_eq_some_iff.1 hc
  exact ⟨c, rfl, hnext⟩

theorem beginsPlainly_of_spells {n : Nat} (h : Text.Spells t n) (hne : t ≠ []) :
    BeginsPlainly t := by
  have hdigit : ∀ d < 10, Progress.next .blank (Nat.digitChar d) = some .text := by decide
  obtain ⟨ds, hds, rfl, -⟩ := h
  cases ds with
  | nil => exact absurd rfl hne
  | cons d ds => exact ⟨Nat.digitChar d, rfl, hdigit d (hds d List.mem_cons_self)⟩

theorem BeginsPlainly.reads (h : BeginsPlainly t) (hp : p ≠ .dash)
    (ht : ∀ c ∈ t, isDelimiter c = false) (negative : Bool) :
    Reads p ((if negative then ['-'] else []) ++ t) .text := by
  obtain ⟨c, hc, hnext⟩ := h
  obtain ⟨t', rfl⟩ := List.head?_eq_some_iff.1 hc
  exact reads_signed hp hnext (not_mem_of_isDelimiter (List.forall_mem_cons.1 ht).2) negative

theorem beginsPlainly_ofNat (n : Nat) : BeginsPlainly (Text.ofNat n) :=
  beginsPlainly_of_spells (Text.spells_ofNat n) (Text.ofNat_ne_nil n)

theorem beginsPlainly_layout (dec : Decimal) (k : Nat) : BeginsPlainly (layout dec k) := by
  have hds : BeginsPlainly (Text.padStart k '0' (Text.ofNat dec.digits)) := by
    refine beginsPlainly_of_spells (Text.spells_ofNatPadded k dec.digits) ?_
    unfold Text.padStart
    simp [Text.ofNat_ne_nil]
  rw [layout]
  generalize Text.padStart k '0' (Text.ofNat dec.digits) = ds at hds
  dsimp only
  split
  · refine BeginsPlainly.append ?_ _
    split
    · exact ⟨'0', rfl, rfl⟩
    · exact hds
    · obtain ⟨c, hc, hnext⟩ := hds
      cases hc
      exact ⟨_, rfl, hnext⟩
  split
  · exact ⟨'0', rfl, rfl⟩
  split
  · exact (hds.append _).append _
  · next hpositive _ =>
    -- at least one digit stands before the point
    obtain ⟨c, hc, hnext⟩ := hds
    obtain ⟨t', rfl⟩ := List.head?_eq_some_iff.1 hc
    obtain ⟨j, hj⟩ := Nat.exists_eq_succ_of_ne_zero (n := dec.point.toNat) (by omega)
    rw [hj]
    exact ⟨c, rfl, hnext⟩

theorem reads_ofInt (hp : p ≠ .dash) (n : Int) : Reads p (Text.ofInt n) .text := by
  have hn : Text.ofInt n = (if decide (n < 0) then ['-'] else []) ++ Text.ofNat n.natAbs := by
    rw [Text.ofInt]
    by_cases h : n < 0
    · simp [h]
    · simp [h]
  rw [hn]
  exact (beginsPlainly_ofNat _).reads hp (isDelimiter_of_spells (Text.spells_ofNat _)) _

theorem reads_toText (hp : p ≠ .dash) (x : Binary64) : Reads p x.toText .text := by
  cases x with
  | nan => exact reads_token (t := ['a', 'N']) hp rfl (by decide)
  | infinite negative =>
    have hword := reads_signed (c := 'I') (t := "nfinity".toList) hp rfl (by decide) negative
    cases negative with
    | false => exact hword
    | true => exact hword
  | finite negative m e =>
    rw [toText]
    split
    · exact reads_signed (t := ".0".toList) hp rfl (by decide) negative
    · exact (beginsPlainly_layout _ _).reads hp (isDelimiter_layout _ _) negative

/-! ## Strings -/

theorem not_mem_escape (c : Char) : '\n' ∉ escape c := by
  have hhex : ∀ d < 16, Nat.digitChar d ≠ '\n' := by decide
  unfold escape
  split_ifs with h₁ h₂ h₃ h₄ h₅ h₆ h₇ hcontrol
  · decide
  · decide
  · decide
  · decide
  · decide
  · decide
  · decide
  · have hhigh := hhex (c.toNat / 16) (by omega)
    have hlow := hhex (c.toNat % 16) (by omega)
    simp [Ne.symm hhigh, Ne.symm hlow]
  · simpa using Ne.symm h₃

theorem reads_printString (hp : p ≠ .dash) (t : Text) : Reads p (printString t) .text := by
  refine reads_token hp rfl fun hmem => ?_
  rcases List.mem_append.1 hmem with hmem | hquote
  · obtain ⟨c, -, hc⟩ := List.mem_flatMap.1 hmem
    exact not_mem_escape c hc
  · cases List.mem_singleton.1 hquote

/-! ## Values -/

/-- A new line starts with white space. -/
theorem reads_newline (p : Progress) (depth : Nat) : Reads p (newline depth) .blank := by
  refine reads_cons_iff.2 ⟨.blank, if_pos rfl, reads_blank fun c hc => ?_⟩
  rw [List.eq_of_mem_replicate hc]
  rfl

/-- What separates the elements of a container, and what ends it. -/
theorem reads_close (p : Progress) (depth : Nat) (hc : Progress.next .blank c = some .text) :
    Reads p (newline depth ++ [c]) .text :=
  (reads_newline p depth).append (reads_token (by decide) hc List.not_mem_nil)

mutual
/-- No line of a written value begins like a comment. -/
theorem reads_printAt : ∀ (v : Json) (depth : Nat) {p : Progress}, p ≠ .dash →
    Reads p (printAt depth v) .text
  | .null, _, _, hp => reads_token (t := "ull".toList) hp rfl (by decide)
  | .bool true, _, _, hp => reads_token (t := "rue".toList) hp rfl (by decide)
  | .bool false, _, _, hp => reads_token (t := "alse".toList) hp rfl (by decide)
  | .int n, _, _, hp => reads_ofInt hp n
  | .float x, _, _, hp => reads_toText hp x
  | .str t, _, _, hp => reads_printString hp t
  | .arr [], _, _, hp => reads_token hp rfl (by decide)
  | .arr (v :: vs), depth, p, hp => by
    have hopen : Reads p ('[' :: newline (depth + 1)) .blank :=
      (reads_token (t := []) hp rfl (by decide)).append (reads_newline _ _)
    have hfirst := hopen.append (reads_printAt v (depth + 1) (by decide))
    have hall := hfirst.append (reads_printRest vs (depth + 1))
    have hclose := hall.append (reads_close (c := ']') _ depth rfl)
    rwa [← List.append_assoc] at hclose
  | .obj [], _, _, hp => reads_token hp rfl (by decide)
  | .obj ((k, v) :: fields), depth, p, hp => by
    have hopen : Reads p ('{' :: newline (depth + 1)) .blank :=
      (reads_token (t := []) hp rfl (by decide)).append (reads_newline _ _)
    have hkey := (hopen.append (reads_printString (by decide) k)).append
      (reads_text (t := [':', ' ']) (by decide))
    have hfirst := hkey.append (reads_printAt v (depth + 1) (by decide))
    have hall := hfirst.append (reads_printFields fields (depth + 1))
    have hclose := hall.append (reads_close (c := '}') _ depth rfl)
    rwa [← List.append_assoc] at hclose

theorem reads_printRest : ∀ (vs : List Json) (depth : Nat),
    Reads .text (printRest depth vs) .text
  | [], _ => rfl
  | v :: vs, depth => by
    have hcomma : Reads .text (',' :: newline depth) .blank :=
      (reads_text (t := [',']) (by decide)).append (reads_newline _ _)
    exact (hcomma.append (reads_printAt v depth (by decide))).append (reads_printRest vs depth)

theorem reads_printFields : ∀ (fields : List (Text × Json)) (depth : Nat),
    Reads .text (printFields depth fields) .text
  | [], _ => rfl
  | (k, v) :: fields, depth => by
    have hcomma : Reads .text (',' :: newline depth) .blank :=
      (reads_text (t := [',']) (by decide)).append (reads_newline _ _)
    have hkey := (hcomma.append (reads_printString (by decide) k)).append
      (reads_text (t := [':', ' ']) (by decide))
    exact (hkey.append (reads_printAt v depth (by decide))).append (reads_printFields fields depth)
end

end MarkerBoard.Json
