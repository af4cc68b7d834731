import Mathlib.Algebra.Order.Field.Power
import Mathlib.Algebra.Order.Floor.Semifield
import Mathlib.Data.Int.Log
import Mathlib.Data.Rat.Floor
import Mathlib.Tactic.FieldSimp
import Mathlib.Tactic.Linarith
import Mathlib.Tactic.NormNum
import Mathlib.Tactic.Positivity
import MarkerBoard.Number.Binary64
import MarkerBoard.Proofs.Text.Decimal

/-!
# The nearest number

Quotients and decimals are rounded to the nearest number of double precision. What comes out depends
on their exact value alone and not on how it has been written, and a value that is close enough to a
number leads to that number.

Exact values are rational numbers. Divided by the power of two at an exponent, the numbers with this
exponent are the natural numbers, so a value is rounded to a natural number there. It may carry over
to the next exponent.

Main results:

* `Binary64.ofRatio_eq`, `Binary64.ofDecimal_eq` — a quotient or a decimal leads to the nearest
  number.
* `Binary64.canonical_of_nearest` — what is rounded is in the form that each number has only once.
* `Binary64.nearest_of_close` — sixteen digits tell the numbers apart.
-/
namespace MarkerBoard.Binary64

theorem cast_pow2 (k : ℕ) : ((pow2 k : ℕ) : ℚ) = 2 ^ k := Nat.cast_pow 2 k

theorem cast_pow10 (k : ℕ) : ((pow10 k : ℕ) : ℚ) = 10 ^ k := Nat.cast_pow 10 k

/-- Powers with a negative exponent stand below the fraction line. -/
theorem zpow_natAbs (x : ℚ) (e : ℤ) :
    x ^ e = if e < 0 then (x ^ e.natAbs)⁻¹ else x ^ e.natAbs := by
  split_ifs with he
  · rw [← zpow_natCast, ← zpow_neg]
    congr 1
    omega
  · rw [← zpow_natCast]
    congr 1
    omega

theorem zpow_mul_zpow {x : ℚ} (hx : x ≠ 0) {a b c : ℤ} (h : a + b = c) : x ^ a * x ^ b = x ^ c := by
  rw [← zpow_add₀ hx, h]

/-! ## Rounding to natural numbers -/

/-- The nearest natural number, ties to even. -/
def roundRat (y : ℚ) : ℕ :=
  if 2 * (y - ⌊y⌋₊) < 1 then ⌊y⌋₊
  else if 1 < 2 * (y - ⌊y⌋₊) then ⌊y⌋₊ + 1
  else ⌊y⌋₊ + ⌊y⌋₊ % 2

theorem floor_le_roundRat (y : ℚ) : ⌊y⌋₊ ≤ roundRat y := by
  rw [roundRat]
  split_ifs <;> omega

theorem roundRat_le (y : ℚ) : roundRat y ≤ ⌊y⌋₊ + 1 := by
  rw [roundRat]
  split_ifs <;> omega

/-- A quotient and its remainder tell how to round the fraction. -/
theorem roundEven_eq (a : ℕ) {d : ℕ} (hd : 0 < d) :
    roundEven (a / d) (a % d) d = roundRat (a / d : ℚ) := by
  have hd' : (0 : ℚ) < d := by exact_mod_cast hd
  have hfloor : ⌊(a : ℚ) / d⌋₊ = a / d := Nat.floor_div_eq_div a d
  have hrest : 2 * ((a : ℚ) / d - (a / d : ℕ)) = 2 * (a % d : ℕ) / d := by
    have hsplit : (a : ℚ) = d * (a / d : ℕ) + (a % d : ℕ) := by
      exact_mod_cast (Nat.div_add_mod a d).symm
    field_simp
    linarith
  have hbelow : 2 * ((a % d : ℕ) : ℚ) / d < 1 ↔ 2 * (a % d) < d := by
    rw [div_lt_one hd']
    exact_mod_cast Iff.rfl
  have habove : 1 < 2 * ((a % d : ℕ) : ℚ) / d ↔ d < 2 * (a % d) := by
    rw [one_lt_div hd']
    exact_mod_cast Iff.rfl
  simp only [roundEven, roundRat, hfloor, hrest, hbelow, habove]

/-- A natural number is nearest to what is less than a half away. -/
theorem roundRat_of_close {y : ℚ} {m : ℕ} (hy : 0 ≤ y) (h : |y - m| < 1 / 2) : roundRat y = m := by
  obtain ⟨hlow, hhigh⟩ := abs_lt.1 h
  rw [roundRat]
  -- the integer part is the number itself or the one below it
  rcases le_or_gt (m : ℚ) y with hm | hm
  · have hfloor : ⌊y⌋₊ = m := (Nat.floor_eq_iff hy).2 ⟨hm, by linarith⟩
    rw [hfloor, if_pos (by linarith)]
  · obtain ⟨k, rfl⟩ : ∃ k, m = k + 1 := by
      cases m with
      | zero => exact absurd hm (by simpa using hy)
      | succ k => exact ⟨k, rfl⟩
    push_cast at hlow hhigh hm
    have hfloor : ⌊y⌋₊ = k := (Nat.floor_eq_iff hy).2 ⟨by linarith, by linarith⟩
    rw [hfloor, if_neg (by linarith), if_pos (by linarith)]

/-! ## Rounding to double precision -/

/-- The exponent that a positive number is rounded at. -/
def exponentOf (q : ℚ) : ℤ := max minExponent (Int.log 2 q - 52)

/-- A rounded significand at its exponent, which may have become too long, and the number too
great. -/
def carried (negative : Bool) (m : ℕ) (e : ℤ) : Binary64 :=
  let (m, e) := if m = pow2 53 then (pow2 52, e + 1) else (m, e)
  if maxExponent < e then infinite negative else finite negative m e

theorem carried_of_eq (negative : Bool) (e : ℤ) : carried negative (pow2 53) e =
    if maxExponent < e + 1 then infinite negative else finite negative (pow2 52) (e + 1) := by
  rw [carried, if_pos rfl]

theorem carried_of_ne {m : ℕ} (h : m ≠ pow2 53) (negative : Bool) (e : ℤ) :
    carried negative m e =
      if maxExponent < e then infinite negative else finite negative m e := by
  rw [carried, if_neg h]

/-- The number nearest to a rational number that is not negative. -/
def nearest (negative : Bool) (q : ℚ) : Binary64 :=
  if q = 0 then finite negative 0 minExponent
  else carried negative (roundRat (q / 2 ^ exponentOf q)) (exponentOf q)

/-- A quotient in units of a power of two is a fraction again, of which the integer part and the
rest are known. -/
theorem exists_scaled (num : ℕ) {den : ℕ} (hden : 0 < den) (e : ℤ) :
    ∃ a b : ℕ, 0 < b ∧ scaled num den e = (a / b, a % b, b) ∧
      (a / b : ℚ) = num / den / 2 ^ e := by
  have hden' : (den : ℚ) ≠ 0 := by positivity
  by_cases he : e < 0
  · refine ⟨num * pow2 e.natAbs, den, hden, by simp [scaled, he], ?_⟩
    rw [zpow_natAbs, if_pos he, Nat.cast_mul, cast_pow2]
    field_simp
  · refine ⟨num, den * pow2 e.natAbs, ?_, by simp [scaled, he], ?_⟩
    · exact Nat.mul_pos hden (Nat.pow_pos (by decide))
    · rw [zpow_natAbs, if_neg he, Nat.cast_mul, cast_pow2]
      field_simp

theorem log_eq_of_between {q : ℚ} {e : ℤ} (hlow : 2 ^ e ≤ q) (hhigh : q < 2 ^ (e + 1)) :
    Int.log 2 q = e := by
  have hq : 0 < q := lt_of_lt_of_le (by positivity) hlow
  have h1 : e ≤ Int.log 2 q := (Int.zpow_le_iff_le_log (by decide) hq).1 (by exact_mod_cast hlow)
  have h2 : Int.log 2 q < e + 1 :=
    (Int.lt_zpow_iff_log_lt (by decide) hq).1 (by exact_mod_cast hhigh)
  omega

/-- A quotient lies between the powers of two that the lengths of its parts tell. -/
theorem between_of_log2 {num den : ℕ} (hnum : num ≠ 0) (hden : 0 < den) :
    (2 : ℚ) ^ ((num.log2 : ℤ) - den.log2 - 1) < num / den ∧
      (num : ℚ) / den < 2 ^ ((num.log2 : ℤ) - den.log2 + 1) := by
  have hden' : (0 : ℚ) < den := by exact_mod_cast hden
  have hnum₁ : (2 : ℚ) ^ num.log2 ≤ num := by exact_mod_cast Nat.log2_self_le hnum
  have hnum₂ : (num : ℚ) < 2 ^ (num.log2 + 1) := by exact_mod_cast Nat.lt_log2_self
  have hden₁ : (2 : ℚ) ^ den.log2 ≤ den := by exact_mod_cast Nat.log2_self_le hden.ne'
  have hden₂ : (den : ℚ) < 2 ^ (den.log2 + 1) := by exact_mod_cast Nat.lt_log2_self
  constructor
  · rw [lt_div_iff₀ hden']
    calc (2 : ℚ) ^ ((num.log2 : ℤ) - den.log2 - 1) * den
        < 2 ^ ((num.log2 : ℤ) - den.log2 - 1) * 2 ^ (den.log2 + 1) := by gcongr
      _ = 2 ^ num.log2 := by
        rw [← zpow_natCast, ← zpow_natCast]
        exact zpow_mul_zpow (by norm_num) (by omega)
      _ ≤ num := hnum₁
  · rw [div_lt_iff₀ hden']
    calc (num : ℚ) < 2 ^ (num.log2 + 1) := hnum₂
      _ = 2 ^ ((num.log2 : ℤ) - den.log2 + 1) * 2 ^ den.log2 := by
        rw [← zpow_natCast, ← zpow_natCast]
        exact (zpow_mul_zpow (by norm_num) (by omega)).symm
      _ ≤ 2 ^ ((num.log2 : ℤ) - den.log2 + 1) * den := by gcongr

/-- The lengths of the parts suggest an exponent that is right or one too great, which the integer
part tells. -/
theorem guess_eq_log {num den : ℕ} (hnum : num ≠ 0) (hden : 0 < den) {guess : ℤ}
    (hguess : guess = (num.log2 : ℤ) - den.log2 - 52) :
    (if (scaled num den guess).1 < pow2 52 then guess - 1 else guess) =
      Int.log 2 ((num : ℚ) / den) - 52 := by
  obtain ⟨hlow, hhigh⟩ := between_of_log2 hnum hden
  obtain ⟨a, b, hb, hscaled, hvalue⟩ := exists_scaled num hden guess
  have hb' : (0 : ℚ) < b := by exact_mod_cast hb
  have hpow : (2 : ℚ) ^ (guess + 52) = 2 ^ 52 * 2 ^ guess := by
    rw [← zpow_natCast]
    exact (zpow_mul_zpow (by norm_num) (by omega)).symm
  have hless : (scaled num den guess).1 < pow2 52 ↔ (num : ℚ) / den < 2 ^ (guess + 52) := by
    rw [hscaled, hpow, ← div_lt_iff₀ (by positivity), ← hvalue, div_lt_iff₀ hb',
      Nat.div_lt_iff_lt_mul hb]
    exact_mod_cast Iff.rfl
  -- the quotient is below the power that the integer part is compared with, or not
  split_ifs with h
  · have hlog : Int.log 2 ((num : ℚ) / den) = guess + 51 := by
      refine log_eq_of_between (le_trans (le_of_eq ?_) hlow.le) (lt_of_lt_of_eq (hless.1 h) ?_)
      · congr 1
        omega
      · congr 1
        omega
    omega
  · have hlog : Int.log 2 ((num : ℚ) / den) = guess + 52 := by
      refine log_eq_of_between (not_lt.1 fun hlt => h (hless.2 hlt)) (lt_of_lt_of_eq hhigh ?_)
      congr 1
      omega
    omega

/-- A quotient is rounded to the nearest number. -/
theorem ofRatio_eq (negative : Bool) (num : ℕ) {den : ℕ} (hden : 0 < den) :
    ofRatio negative num den = nearest negative (num / den) := by
  by_cases hnum : num = 0
  · rw [hnum, ofRatio, if_pos rfl, nearest, if_pos (by simp)]
  have hden' : (0 : ℚ) < den := by exact_mod_cast hden
  have hnum' : (0 : ℚ) < num := by exact_mod_cast Nat.pos_of_ne_zero hnum
  have hne : (num : ℚ) / den ≠ 0 := by positivity
  have hexp : (if Int.log 2 ((num : ℚ) / den) - 52 < minExponent then minExponent
      else Int.log 2 ((num : ℚ) / den) - 52) = exponentOf (num / den) := by
    rw [exponentOf]
    split_ifs <;> omega
  obtain ⟨a, b, hb, hscaled, hvalue⟩ := exists_scaled num hden (exponentOf (num / den))
  rw [ofRatio, if_neg hnum, nearest, if_neg hne, carried]
  simp only [guess_eq_log hnum hden rfl, hexp, hscaled, roundEven_eq a hb, hvalue]

/-- The sign has no influence on the magnitude. -/
theorem nearest_negative {q : ℚ} {m : ℕ} {e : ℤ} (h : nearest false q = finite false m e)
    (negative : Bool) : nearest negative q = finite negative m e := by
  have hcarried : ∀ m' e', carried false m' e' = finite false m e →
      carried negative m' e' = finite negative m e := by
    intro m' e' h
    by_cases hlong : m' = pow2 53
    · -- the significand carries over
      rw [hlong, carried_of_eq] at h ⊢
      split_ifs at h ⊢
      cases h
      rfl
    · rw [carried_of_ne hlong] at h ⊢
      split_ifs at h ⊢
      cases h
      rfl
  rw [nearest] at h ⊢
  split_ifs at h ⊢
  · cases h
    rfl
  · exact hcarried _ _ h

/-! ## Canonical numbers -/

/-- The significand has all its bits, or the exponent is the least one. -/
structure Canonical (m : ℕ) (e : ℤ) : Prop where
  lt : m < 2 ^ 53
  normal : 2 ^ 52 ≤ m ∨ e = minExponent
  least : minExponent ≤ e
  greatest : e ≤ maxExponent

variable {negative : Bool} {m : ℕ} {e : ℤ} {q : ℚ}

theorem exponentOf_eq_of_between (hlow : 2 ^ (e + 52) ≤ q) (hhigh : q < 2 ^ (e + 53))
    (he : minExponent ≤ e) : exponentOf q = e := by
  have hlog : Int.log 2 q = e + 52 := by
    refine log_eq_of_between hlow (lt_of_lt_of_eq hhigh ?_)
    congr 1
    omega
  rw [exponentOf, hlog]
  omega

theorem exponentOf_eq_min (hq : 0 < q) (hhigh : q < 2 ^ (minExponent + 53)) :
    exponentOf q = minExponent := by
  have hlog : Int.log 2 q < minExponent + 53 :=
    (Int.lt_zpow_iff_log_lt (by decide) hq).1 (by exact_mod_cast hhigh)
  rw [exponentOf]
  omega

/-- At its exponent, a number has the significand of a canonical number. -/
theorem scaled_exponentOf (hq : 0 < q) :
    q / 2 ^ exponentOf q < 2 ^ 53 ∧
      (2 ^ 52 ≤ q / 2 ^ exponentOf q ∨ exponentOf q = minExponent) := by
  have hlow : (2 : ℚ) ^ Int.log 2 q ≤ q := by exact_mod_cast Int.zpow_log_le_self (by decide) hq
  have hhigh : q < 2 ^ (Int.log 2 q + 1) := by
    exact_mod_cast Int.lt_zpow_succ_log_self (by decide) q
  have hpow : (0 : ℚ) < 2 ^ exponentOf q := by positivity
  constructor
  · -- the exponent is at most 52 below the first bit
    rw [div_lt_iff₀ hpow]
    calc q < 2 ^ (Int.log 2 q + 1) := hhigh
      _ ≤ 2 ^ (53 + exponentOf q) := by
        refine zpow_le_zpow_right₀ (by norm_num) ?_
        rw [exponentOf]
        omega
      _ = 2 ^ 53 * 2 ^ exponentOf q := zpow_add₀ (by norm_num) ..
  · by_cases hmin : exponentOf q = minExponent
    · exact .inr hmin
    · -- and exactly so if it is not the least one
      left
      rw [le_div_iff₀ hpow]
      calc (2 : ℚ) ^ 52 * 2 ^ exponentOf q = 2 ^ (52 + exponentOf q) :=
            (zpow_add₀ (by norm_num) ..).symm
        _ = 2 ^ Int.log 2 q := by
          congr 1
          rw [exponentOf] at hmin ⊢
          omega
        _ ≤ q := hlow

theorem canonical_of_carried {negative' : Bool} {m' : ℕ} {e' : ℤ} (hm : m ≤ 2 ^ 53)
    (hnormal : 2 ^ 52 ≤ m ∨ e = minExponent) (hleast : minExponent ≤ e)
    (h : carried negative m e = finite negative' m' e') : Canonical m' e' := by
  by_cases hlong : m = pow2 53
  · rw [hlong, carried_of_eq] at h
    split_ifs at h with hgreat
    cases h
    exact ⟨by decide, .inl (by decide), by omega, by omega⟩
  · rw [carried_of_ne hlong] at h
    split_ifs at h with hgreat
    cases h
    exact ⟨lt_of_le_of_ne hm hlong, hnormal, hleast, by omega⟩

/-- Rounding leads to canonical numbers. -/
theorem canonical_of_nearest {negative' : Bool} (hq : 0 ≤ q)
    (h : nearest negative q = finite negative' m e) : Canonical m e := by
  rw [nearest] at h
  split_ifs at h with hzero
  · cases h
    exact ⟨by decide, .inr rfl, le_rfl, by decide⟩
  have hpos : 0 < q := lt_of_le_of_ne hq (Ne.symm hzero)
  obtain ⟨hlt, hnormal⟩ := scaled_exponentOf hpos
  have hfloor : ⌊q / 2 ^ exponentOf q⌋₊ < 2 ^ 53 := by
    rw [Nat.floor_lt (by positivity)]
    exact_mod_cast hlt
  refine canonical_of_carried ?_ ?_ (le_max_left ..) h
  · exact (roundRat_le _).trans hfloor
  · refine hnormal.imp_left fun hlow => ?_
    refine le_trans (Nat.le_floor ?_) (floor_le_roundRat _)
    exact_mod_cast hlow

/-! ## Numbers that are close -/

theorem carried_of_canonical (h : Canonical m e) : carried negative m e = finite negative m e := by
  have hlong : m ≠ pow2 53 := ne_of_lt h.lt
  rw [carried_of_ne hlong, if_neg (not_lt.2 h.greatest)]

/-- A significand is found from whatever is less than half a step away. -/
theorem roundRat_of_step (hq : 0 < q) (hclose : |q - m * 2 ^ e| < 2 ^ e / 2) :
    roundRat (q / 2 ^ e) = m := by
  have hpow : (0 : ℚ) < 2 ^ e := by positivity
  refine roundRat_of_close (by positivity) ?_
  have hscale : q / 2 ^ e - m = (q - m * 2 ^ e) / 2 ^ e := by
    field_simp
  rw [hscale, abs_div, abs_of_pos hpow, div_lt_iff₀ hpow]
  linarith

theorem nearest_of_step (hq : 0 < q) (h : Canonical m e) (he : exponentOf q = e)
    (hclose : |q - m * 2 ^ e| < 2 ^ e / 2) : nearest negative q = finite negative m e := by
  rw [nearest, if_neg hq.ne', he, roundRat_of_step hq hclose]
  exact carried_of_canonical h

/-- Below the least significand the numbers are twice as dense, and the carry restores it. -/
theorem nearest_of_below (h : Canonical (2 ^ 52) e) (hmin : e ≠ minExponent)
    (hshort : q < 2 ^ (e + 52)) (hclose : |q - 2 ^ 52 * 2 ^ e| < 2 ^ e / 4) :
    nearest negative q = finite negative (2 ^ 52) e := by
  have hpow : (0 : ℚ) < 2 ^ (e - 1) := by positivity
  have hstep : (2 : ℚ) ^ e = 2 * 2 ^ (e - 1) := by
    rw [zpow_sub_one₀ (by norm_num)]
    ring
  -- in steps of half the size, the number has one digit more than a significand
  have hvalue : (2 : ℚ) ^ 52 * 2 ^ e = (2 ^ 53 : ℕ) * 2 ^ (e - 1) := by
    rw [hstep]
    push_cast
    ring
  rw [hvalue, hstep] at hclose
  have hlow : (2 : ℚ) ^ (e - 1 + 52) ≤ q := by
    have hbelow := (abs_lt.1 hclose).1
    rw [zpow_add₀ (by norm_num)]
    push_cast at hbelow
    norm_num at hbelow ⊢
    linarith
  have hq : 0 < q := lt_of_lt_of_le (by positivity) hlow
  have hexp : exponentOf q = e - 1 := by
    have hleast := h.least
    refine exponentOf_eq_of_between hlow ?_ (by omega)
    rwa [show e - 1 + 53 = e + 52 by ring]
  have hgreat : ¬ maxExponent < e - 1 + 1 := by
    have := h.greatest
    omega
  have hround : roundRat (q / 2 ^ (e - 1)) = pow2 53 :=
    roundRat_of_step (m := 2 ^ 53) hq (by linarith)
  rw [nearest, if_neg hq.ne', hexp, hround, carried_of_eq, if_neg hgreat, sub_add_cancel]
  rfl

/-- A rational number is rounded to a canonical number that agrees with it in sixteen digits. -/
theorem nearest_of_close (hm : 0 < m) (h : Canonical m e)
    (hclose : |q - m * 2 ^ e| * (2 * 10 ^ 16) ≤ m * 2 ^ e) :
    nearest negative q = finite negative m e := by
  have hpow : (0 : ℚ) < 2 ^ e := by positivity
  have hm₁ : (1 : ℚ) ≤ m := by exact_mod_cast hm
  have hm₂ : (m : ℚ) + 1 ≤ 2 ^ 53 := by exact_mod_cast h.lt
  -- a significand has fewer than sixteen digits, so the difference is less than half a step
  have hhalf : |q - m * 2 ^ e| < 2 ^ e / 2 := by
    have hfar : |q - m * 2 ^ e| * (2 * 10 ^ 16) ≤ 2 ^ 53 * 2 ^ e :=
      hclose.trans (by gcongr; linarith)
    norm_num at hfar
    linarith
  obtain ⟨hlow, hhigh⟩ := abs_lt.1 hhalf
  have hone : 1 * (2 : ℚ) ^ e ≤ m * 2 ^ e := by gcongr
  have hq : 0 < q := by linarith
  have hbelow : q < 2 ^ (e + 53) := by
    have hlong : ((m : ℚ) + 1) * 2 ^ e ≤ 2 ^ 53 * 2 ^ e := by gcongr
    rw [zpow_add₀ (by norm_num), mul_comm]
    refine lt_of_lt_of_le ?_ hlong
    linarith
  rcases le_or_gt (2 ^ (e + 52)) q with hnormal | hshort
  · exact nearest_of_step hq h (exponentOf_eq_of_between hnormal hbelow h.least) hhalf
  by_cases hmin : e = minExponent
  · refine nearest_of_step hq h ?_ hhalf
    rw [hmin] at hbelow ⊢
    exact exponentOf_eq_min hq hbelow
  -- what is rounded at a smaller exponent can only be next to the least significand
  have hleast : m = 2 ^ 52 := by
    refine le_antisymm ?_ (h.normal.resolve_right hmin)
    rw [zpow_add₀ (by norm_num), mul_comm] at hshort
    have hless : (m : ℚ) * 2 ^ e < (2 ^ 52 + 1) * 2 ^ e := by
      norm_num at hshort ⊢
      linarith
    have hm₃ : (m : ℚ) < 2 ^ 52 + 1 := lt_of_mul_lt_mul_right hless hpow.le
    exact Nat.lt_add_one_iff.1 (by exact_mod_cast hm₃)
  subst hleast
  refine nearest_of_below h hmin hshort ?_
  push_cast at hclose
  norm_num at hclose ⊢
  linarith

/-! ## Decimals -/

theorem nearest_of_great (h : 2 ^ 1024 ≤ q) : nearest negative q = infinite negative := by
  have hq : 0 < q := lt_of_lt_of_le (by positivity) h
  have hlog : (1024 : ℤ) ≤ Int.log 2 q :=
    (Int.zpow_le_iff_le_log (by decide) hq).1 (by exact_mod_cast h)
  have hexp : maxExponent < exponentOf q := by
    rw [exponentOf, maxExponent]
    omega
  rw [nearest, if_neg hq.ne']
  by_cases hlong : roundRat (q / 2 ^ exponentOf q) = pow2 53
  · rw [hlong, carried_of_eq, if_pos (by omega)]
  · rw [carried_of_ne hlong, if_pos hexp]

theorem nearest_of_small (hq : 0 < q) (h : q < 2 ^ (minExponent - 1)) :
    nearest negative q = finite negative 0 minExponent := by
  have hexp : exponentOf q = minExponent := by
    refine exponentOf_eq_min hq (h.trans_le ?_)
    exact zpow_le_zpow_right₀ (by norm_num) (by omega)
  refine nearest_of_step hq ⟨by decide, .inr rfl, le_rfl, by decide⟩ hexp ?_
  rw [zpow_sub_one₀ (by norm_num)] at h
  rw [Nat.cast_zero, zero_mul, sub_zero, abs_of_pos hq]
  linarith

/-- The decimals that are not looked at are beyond all numbers. -/
theorem two_pow_le_ten_pow : (2 : ℚ) ^ 1075 ≤ 10 ^ 400 :=
  calc (2 : ℚ) ^ 1075 ≤ 2 ^ (3 * 400) := pow_le_pow_right₀ (by norm_num) (by norm_num)
    _ = (2 ^ 3) ^ 400 := pow_mul ..
    _ ≤ 10 ^ 400 := pow_le_pow_left₀ (by norm_num) (by norm_num) _

/-- The digits of a decimal tell its size. -/
theorem between_of_decimal {n : ℕ} (hn : n ≠ 0) (e : ℤ) :
    (10 : ℚ) ^ (((Text.ofNat n).length : ℤ) + e - 1) ≤ n * 10 ^ e ∧
      (n : ℚ) * 10 ^ e < 10 ^ (((Text.ofNat n).length : ℤ) + e) := by
  obtain ⟨hlow, hhigh⟩ := Text.between_of_length hn
  have hlow' : (10 : ℚ) ^ ((Text.ofNat n).length - 1) ≤ n := by exact_mod_cast hlow
  have hhigh' : (n : ℚ) < 10 ^ (Text.ofNat n).length := by exact_mod_cast hhigh
  have hlength : 0 < (Text.ofNat n).length := List.length_pos_of_ne_nil (Text.ofNat_ne_nil n)
  constructor
  · calc (10 : ℚ) ^ (((Text.ofNat n).length : ℤ) + e - 1)
        = 10 ^ ((Text.ofNat n).length - 1) * 10 ^ e := by
          rw [← zpow_natCast]
          exact (zpow_mul_zpow (by norm_num) (by omega)).symm
      _ ≤ n * 10 ^ e := by gcongr
  · calc (n : ℚ) * 10 ^ e < 10 ^ (Text.ofNat n).length * 10 ^ e := by gcongr
      _ = 10 ^ (((Text.ofNat n).length : ℤ) + e) := by
        rw [zpow_add₀ (by norm_num), zpow_natCast]

/-- A decimal is rounded to the nearest number. -/
theorem ofDecimal_eq (negative : Bool) (m : ℕ) (e : ℤ) :
    ofDecimal negative m e = nearest negative (m * 10 ^ e) := by
  rw [ofDecimal]
  by_cases hm : m = 0
  · rw [if_pos hm, hm, nearest, if_pos (by simp)]
  obtain ⟨hlow, hhigh⟩ := between_of_decimal hm e
  have hpos : (0 : ℚ) < m * 10 ^ e := by positivity
  rw [if_neg hm]
  split_ifs with hgreat hsmall hneg
  · -- too many digits before the point
    refine (nearest_of_great ?_).symm
    calc (2 : ℚ) ^ 1024 ≤ 2 ^ 1075 := pow_le_pow_right₀ (by norm_num) (by norm_num)
      _ ≤ 10 ^ 400 := two_pow_le_ten_pow
      _ = 10 ^ ((400 : ℕ) : ℤ) := (zpow_natCast ..).symm
      _ ≤ 10 ^ (((Text.ofNat m).length : ℤ) + e - 1) :=
        zpow_le_zpow_right₀ (by norm_num) (by omega)
      _ ≤ m * 10 ^ e := hlow
  · -- too many zeros behind the point
    refine (nearest_of_small hpos ?_).symm
    calc (m : ℚ) * 10 ^ e < 10 ^ (((Text.ofNat m).length : ℤ) + e) := hhigh
      _ ≤ 10 ^ (-(400 : ℕ) : ℤ) := zpow_le_zpow_right₀ (by norm_num) (by omega)
      _ = (10 ^ 400)⁻¹ := by rw [zpow_neg, zpow_natCast]
      _ ≤ (2 ^ 1075)⁻¹ := inv_anti₀ (by positivity) two_pow_le_ten_pow
      _ = 2 ^ (-(1075 : ℕ) : ℤ) := by rw [zpow_neg, zpow_natCast]
  · have hpow : 0 < pow10 e.natAbs := Nat.pow_pos (by decide)
    rw [ofRatio_eq _ _ hpow, zpow_natAbs, if_pos hneg, cast_pow10, div_eq_mul_inv]
  · rw [ofRatio_eq _ _ Nat.one_pos, zpow_natAbs, if_neg hneg, Nat.cast_mul, cast_pow10,
      Nat.cast_one, div_one]

/-- A finite number is canonical. -/
def Regular : Binary64 → Prop
  | finite _ m e => Canonical m e
  | _ => True

theorem regular_ofDecimal (negative : Bool) (m : ℕ) (e : ℤ) :
    (ofDecimal negative m e).Regular := by
  cases h : ofDecimal negative m e with
  | nan | infinite => trivial
  | finite negative' m' e' =>
    rw [ofDecimal_eq] at h
    exact canonical_of_nearest (by positivity) h

end MarkerBoard.Binary64
