import Mathlib.Algebra.Group.Nat.Defs
import Mathlib.Data.List.Basic
import Mathlib.Data.List.Induction
import MarkerBoard.Text.Digit
import MarkerBoard.Text.Basic

/-!
# Decimal digits read back

A text spells a number when its characters are the ASCII digits of the number, possibly after
zeros. Written numbers are spelled, so every reader of digits gives the number back.

Main results:

* `Text.spells_ofNat`, `Text.spells_ofNatPadded` — numbers are written in their digits.
* `Text.Spells.append` — digits behind digits are those of one number.
* `Text.Spells.mapM_asciiDigit?` — the digits are read one by one.
* `Text.length_ofNatPadded` — a number that fits its width takes exactly that width.
-/
namespace MarkerBoard.Text

/-- The text consists of decimal digits that make up a number. -/
def Spells (t : Text) (n : Nat) : Prop :=
  ∃ ds : List Nat, (∀ d ∈ ds, d < 10) ∧ t = ds.map Nat.digitChar ∧ natOfDigits ds = n

theorem asciiDigit?_digitChar {d : Nat} (h : d < 10) : asciiDigit? (Nat.digitChar d) = some d := by
  have : ∀ d < 10, asciiDigit? (Nat.digitChar d) = some d := by decide
  exact this d h

theorem digit?_digitChar {d : Nat} (h : d < 10) : digit? (Nat.digitChar d) = some d := by
  have : ∀ d < 10, digit? (Nat.digitChar d) = some d := by decide
  exact this d h

theorem isBlank_digitChar {d : Nat} (h : d < 10) : isBlank (Nat.digitChar d) = false := by
  have : ∀ d < 10, isBlank (Nat.digitChar d) = false := by decide
  exact this d h

theorem isAsciiDigit_digitChar {d : Nat} (h : d < 10) :
    isAsciiDigit (Nat.digitChar d) = true := by
  rw [isAsciiDigit, asciiDigit?_digitChar h]
  rfl

theorem natOfDigits_concat (ds : List Nat) (d : Nat) :
    natOfDigits (ds ++ [d]) = 10 * natOfDigits ds + d := by
  rw [natOfDigits, List.foldl_append]
  rfl

theorem natOfDigits_append (ds es : List Nat) :
    natOfDigits (ds ++ es) = natOfDigits ds * 10 ^ es.length + natOfDigits es := by
  induction es using List.reverseRecOn with
  | nil => simp [natOfDigits]
  | append_singleton es e ih =>
    rw [← List.append_assoc, natOfDigits_concat, natOfDigits_concat, ih, List.length_append,
      List.length_singleton, Nat.pow_succ, ← Nat.mul_assoc]
    omega

theorem natOfDigits_replicate_zero_append (k : Nat) (ds : List Nat) :
    natOfDigits (List.replicate k 0 ++ ds) = natOfDigits ds := by
  induction k with
  | zero => rfl
  | succ k ih => exact ih

/-! ## Writing -/

theorem spells_ofNat (n : Nat) : Spells (ofNat n) n := by
  induction n using Nat.strongRecOn with
  | _ n ih =>
    by_cases hn : n < 10
    · refine ⟨[n], by simpa using hn, Nat.toDigits_of_lt_base hn, ?_⟩
      simp [natOfDigits]
    · obtain ⟨ds, hds, ht, hv⟩ := ih (n / 10) (by omega)
      refine ⟨ds ++ [n % 10], ?_, ?_, ?_⟩
      · intro d hd
        rcases List.mem_append.1 hd with hd | hd
        · exact hds d hd
        · rw [List.mem_singleton.1 hd]
          omega
      · rw [ofNat, Nat.toDigits_of_base_le (by omega) (by omega), List.map_append, ← ht]
        rfl
      · rw [natOfDigits_concat, hv]
        omega

theorem spells_ofNatPadded (width n : Nat) : Spells (ofNatPadded width n) n := by
  obtain ⟨ds, hds, ht, hv⟩ := spells_ofNat n
  refine ⟨List.replicate (width - (ofNat n).length) 0 ++ ds, ?_, ?_, ?_⟩
  · intro d hd
    rcases List.mem_append.1 hd with hd | hd
    · rw [List.eq_of_mem_replicate hd]
      decide
    · exact hds d hd
  · rw [ofNatPadded, padStart, List.map_append, List.map_replicate, ← ht]
    rfl
  · rw [natOfDigits_replicate_zero_append, hv]

theorem spells_zeros (k : Nat) : Spells (List.replicate k '0') 0 := by
  refine ⟨List.replicate k 0, fun d hd => ?_, by rw [List.map_replicate]; rfl, ?_⟩
  · rw [List.eq_of_mem_replicate hd]
    decide
  · simpa [natOfDigits] using natOfDigits_replicate_zero_append k []

/-- One number behind the other. -/
theorem Spells.append {t u : Text} {n m : Nat} (ht : Spells t n) (hu : Spells u m) :
    Spells (t ++ u) (n * 10 ^ u.length + m) := by
  obtain ⟨ds, hds, rfl, hn⟩ := ht
  obtain ⟨es, hes, rfl, hm⟩ := hu
  refine ⟨ds ++ es, List.forall_mem_append.2 ⟨hds, hes⟩, List.map_append.symm, ?_⟩
  rw [natOfDigits_append, hn, hm, List.length_map]

theorem length_ofNat_le_iff {n k : Nat} (hk : 0 < k) : (ofNat n).length ≤ k ↔ n < 10 ^ k :=
  Nat.length_toDigits_le_iff (by decide) hk

theorem length_ofNatPadded {width n : Nat} (hw : 0 < width) (hn : n < 10 ^ width) :
    (ofNatPadded width n).length = width := by
  have := (length_ofNat_le_iff hw).2 hn
  rw [ofNatPadded, padStart, List.length_append, List.length_replicate]
  omega

/-- The length of a number tells its size. -/
theorem between_of_length {n : Nat} (hn : n ≠ 0) :
    10 ^ ((ofNat n).length - 1) ≤ n ∧ n < 10 ^ (ofNat n).length := by
  have hpos : 0 < (ofNat n).length := List.length_pos_of_ne_nil Nat.toDigits_ne_nil
  refine ⟨?_, (length_ofNat_le_iff hpos).1 (Nat.le_refl _)⟩
  by_cases hone : (ofNat n).length = 1
  · rw [hone]
    exact Nat.one_le_iff_ne_zero.2 hn
  · by_contra hless
    have hshort : (ofNat n).length ≤ (ofNat n).length - 1 :=
      (length_ofNat_le_iff (by omega)).2 (by omega)
    omega

theorem ofNat_ne_nil (n : Nat) : ofNat n ≠ [] := Nat.toDigits_ne_nil

/-! ## Reading -/

/-- A reader of single digits reads a text of digits. -/
theorem mapM_map_digitChar {read? : Char → Option Nat} (ds : List Nat)
    (h : ∀ d ∈ ds, read? (Nat.digitChar d) = some d) :
    (ds.map Nat.digitChar).mapM read? = some ds := by
  induction ds with
  | nil => rfl
  | cons d ds ih =>
    rw [List.map_cons, List.mapM_cons, h d List.mem_cons_self,
      ih fun e he => h e (List.mem_cons_of_mem _ he)]
    rfl

namespace Spells
variable {t : Text} {n : Nat}

theorem mapM_asciiDigit? (h : Spells t n) :
    ∃ ds, t.mapM asciiDigit? = some ds ∧ ds.length = t.length ∧ natOfDigits ds = n := by
  obtain ⟨ds, hds, rfl, hv⟩ := h
  exact ⟨ds, mapM_map_digitChar ds (fun d hd => asciiDigit?_digitChar (hds d hd)), by simp, hv⟩

theorem filterMap_asciiDigit? (h : Spells t n) :
    natOfDigits (t.filterMap asciiDigit?) = n := by
  obtain ⟨ds, hds, rfl, hv⟩ := h
  rw [List.filterMap_map, ← hv]
  congr 1
  rw [List.filterMap_congr (f := asciiDigit? ∘ Nat.digitChar) (g := some) fun d hd =>
    asciiDigit?_digitChar (hds d hd), List.filterMap_some]

theorem isAsciiDigit_of_mem (h : Spells t n) : ∀ c ∈ t, isAsciiDigit c = true := by
  obtain ⟨ds, hds, rfl, -⟩ := h
  intro c hc
  obtain ⟨d, hd, rfl⟩ := List.mem_map.1 hc
  exact isAsciiDigit_digitChar (hds d hd)

end Spells
end MarkerBoard.Text
