import MarkerBoard.Proofs.Number.Nearest

/-!
# The fewest digits that read back

The text of a number has the fewest digits that are read back as the number. They are looked for
length by length, and the search ends at seventeen digits at the latest: the nearest decimal of that
length is so close to the number that no other number is nearer.

Main results:

* `Binary64.between_of_pointOf` — where the decimal point is.
* `Binary64.spells_of_decimalOf?` — a decimal that is found reads back.
* `Binary64.decimalOf?_seventeen` — there is one of seventeen digits.
* `Binary64.exists_shortest` — so the shortest decimal of a number reads back.
-/
namespace MarkerBoard.Binary64

/-! ## The decimal point -/

variable {n d : ℕ}

/-- How fractions are compared with powers of ten. -/
theorem below_iff (hd : 0 < d) (p : ℤ) :
    (if p < 0 then decide (n * pow10 p.natAbs < d) else decide (n < d * pow10 p.natAbs)) = true ↔
      (n : ℚ) / d < 10 ^ p := by
  have hd' : (0 : ℚ) < d := by exact_mod_cast hd
  split_ifs with hp
  · rw [decide_eq_true_iff, zpow_natAbs, if_pos hp, ← one_div,
      div_lt_div_iff₀ hd' (by positivity), one_mul, ← cast_pow10]
    exact_mod_cast Iff.rfl
  · rw [decide_eq_true_iff, zpow_natAbs, if_neg hp, div_lt_iff₀ hd', mul_comm, ← cast_pow10]
    exact_mod_cast Iff.rfl

theorem between_of_length_div {a b : ℕ} (hb : 0 < b) (h : b ≤ a) :
    (10 : ℚ) ^ (((Text.ofNat (a / b)).length : ℤ) - 1) ≤ a / b ∧
      (a : ℚ) / b < 10 ^ ((Text.ofNat (a / b)).length : ℤ) := by
  obtain ⟨hlow, hhigh⟩ := Text.between_of_length (Nat.div_pos h hb).ne'
  have hlength : 0 < (Text.ofNat (a / b)).length :=
    List.length_pos_of_ne_nil (Text.ofNat_ne_nil _)
  have hfloor : ⌊(a : ℚ) / b⌋₊ = a / b := Nat.floor_div_eq_div a b
  constructor
  · calc (10 : ℚ) ^ (((Text.ofNat (a / b)).length : ℤ) - 1)
        = 10 ^ ((Text.ofNat (a / b)).length - 1) := by
          rw [← zpow_natCast]
          congr 1
          omega
      _ ≤ (a / b : ℕ) := by exact_mod_cast hlow
      _ ≤ a / b := by
        rw [← hfloor]
        exact Nat.floor_le (by positivity)
  · rw [zpow_natCast]
    rw [← hfloor] at hhigh ⊢
    exact_mod_cast (Nat.floor_lt (by positivity)).1 hhigh

/-- The decimal point is put before the first digit that is not zero. -/
theorem between_of_pointOf (hn : 0 < n) (hd : 0 < d) :
    (10 : ℚ) ^ (pointOf n d - 1) ≤ n / d ∧ (n : ℚ) / d < 10 ^ pointOf n d := by
  -- the length of the integer part, of the fraction or of its inverse, tells the point but for one
  set guess : ℤ := if d ≤ n then ((Text.ofNat (n / d)).length : ℤ)
    else 1 - (Text.ofNat (d / n)).length with hguess
  have hpoint : pointOf n d = if (n : ℚ) / d < 10 ^ guess then
      if (n : ℚ) / d < 10 ^ (guess - 1) then guess - 1 else guess else guess + 1 := by
    simp only [pointOf, ← hguess, ← below_iff hd]
    cases (if guess < 0 then decide (n * pow10 guess.natAbs < d)
      else decide (n < d * pow10 guess.natAbs))
    · rfl
    · rfl
  have hbounds : (10 : ℚ) ^ (guess - 1) ≤ n / d ∧ (n : ℚ) / d < 10 ^ (guess + 1) := by
    rw [hguess]
    split_ifs with hle
    · obtain ⟨hlow, hhigh⟩ := between_of_length_div hd hle
      exact ⟨hlow, hhigh.trans (zpow_lt_zpow_right₀ (by norm_num) (by omega))⟩
    · -- the digits of the inverse
      obtain ⟨hlow, hhigh⟩ := between_of_length_div hn (not_le.1 hle).le
      have hn' : (0 : ℚ) < n := by exact_mod_cast hn
      have hd' : (0 : ℚ) < d := by exact_mod_cast hd
      rw [← inv_div (d : ℚ) n]
      constructor
      · rw [show (1 : ℤ) - (Text.ofNat (d / n)).length - 1 = -(Text.ofNat (d / n)).length by ring,
          zpow_neg]
        exact inv_anti₀ (by positivity) hhigh.le
      · refine lt_of_le_of_lt (inv_anti₀ (by positivity) hlow) ?_
        rw [← zpow_neg]
        exact zpow_lt_zpow_right₀ (by norm_num) (by omega)
  rw [hpoint]
  split_ifs with h h'
  · exact absurd h' (not_lt.2 hbounds.1)
  · exact ⟨hbounds.1, h⟩
  · rw [add_sub_cancel_right]
    exact ⟨not_lt.1 h, hbounds.2⟩

/-! ## Decimals of a given length -/

/-- A fraction in units of a power of ten. -/
theorem exists_scaled_ten (n : ℕ) (hd : 0 < d) (places : ℤ) :
    ∃ a b : ℕ, 0 < b ∧ (if places < 0 then n else n * pow10 places.natAbs) = a ∧
      (if places < 0 then d * pow10 places.natAbs else d) = b ∧
      (a / b : ℚ) = n / d * 10 ^ places := by
  have hd' : (d : ℚ) ≠ 0 := by positivity
  by_cases hp : places < 0
  · rw [if_pos hp, if_pos hp]
    refine ⟨n, d * pow10 places.natAbs, Nat.mul_pos hd (Nat.pow_pos (by decide)), rfl, rfl, ?_⟩
    rw [zpow_natAbs, if_pos hp, Nat.cast_mul, cast_pow10]
    field_simp
  · rw [if_neg hp, if_neg hp]
    refine ⟨n * pow10 places.natAbs, d, hd, rfl, rfl, ?_⟩
    rw [zpow_natAbs, if_neg hp, Nat.cast_mul, cast_pow10]
    field_simp

/-- The decimal has as many digits as are asked for, and reads back. The first digit is not zero. -/
structure Decimal.Spells (dec : Decimal) (k : ℕ) (x : Binary64) : Prop where
  low : 10 ^ (k - 1) ≤ dec.digits
  high : dec.digits < 10 ^ k
  back : nearest false (dec.digits * 10 ^ (dec.point - k)) = x

variable {x : Binary64} {point : ℤ} {k : ℕ} {dec : Decimal}

/-- A candidate, which has one digit more if it has been rounded up to a power of ten. -/
theorem spells_of_candidate {c : ℕ} (hk : 0 < k) (hlow : 10 ^ (k - 1) ≤ c) (hhigh : c ≤ 10 ^ k)
    (hback : ofDecimal false c (point - k) = x) :
    (if c = pow10 k then ⟨pow10 (k - 1), point + 1⟩ else ⟨c, point⟩ : Decimal).Spells k x := by
  rw [ofDecimal_eq] at hback
  split_ifs with hc
  · refine ⟨le_rfl, Nat.pow_lt_pow_right (by decide) (by omega), ?_⟩
    -- both decimals are the power of ten at the point
    have hcandidate : (10 : ℚ) ^ k * 10 ^ (point - k) = 10 ^ point := by
      rw [← zpow_natCast]
      exact zpow_mul_zpow (by norm_num) (by omega)
    have hshorter : (10 : ℚ) ^ (k - 1) * 10 ^ (point + 1 - k) = 10 ^ point := by
      rw [← zpow_natCast]
      exact zpow_mul_zpow (by norm_num) (by omega)
    rw [← hback, hc, cast_pow10, cast_pow10, hcandidate, hshorter]
  · exact ⟨hlow, lt_of_le_of_ne hhigh hc, hback⟩

/-- The candidates of a length: the two neighbours of the fraction on their grid. -/
theorem candidate_bounds {a b : ℕ} (hb : 0 < b) (hk : 0 < k)
    (hvalue : (a / b : ℚ) = n / d * 10 ^ ((k : ℤ) - point))
    (hlow : (10 : ℚ) ^ (point - 1) ≤ n / d) (hhigh : (n : ℚ) / d < 10 ^ point) :
    10 ^ (k - 1) ≤ a / b ∧ a / b + 1 ≤ 10 ^ k := by
  have hb' : (0 : ℚ) < b := by exact_mod_cast hb
  constructor
  · rw [Nat.le_div_iff_mul_le hb]
    have hleast : (10 : ℚ) ^ (k - 1) ≤ a / b := by
      calc (10 : ℚ) ^ (k - 1) = 10 ^ (point - 1) * 10 ^ ((k : ℤ) - point) := by
            rw [← zpow_natCast]
            exact (zpow_mul_zpow (by norm_num) (by omega)).symm
        _ ≤ n / d * 10 ^ ((k : ℤ) - point) := by gcongr
        _ = a / b := hvalue.symm
    rw [le_div_iff₀ hb'] at hleast
    exact_mod_cast hleast
  · refine (Nat.div_lt_iff_lt_mul hb).2 ?_
    have hgreatest : (a : ℚ) / b < 10 ^ k := by
      calc (a : ℚ) / b = n / d * 10 ^ ((k : ℤ) - point) := hvalue
        _ < 10 ^ point * 10 ^ ((k : ℤ) - point) := by gcongr
        _ = 10 ^ k := by
          rw [← zpow_natCast]
          exact zpow_mul_zpow (by norm_num) (by omega)
    rw [div_lt_iff₀ hb'] at hgreatest
    exact_mod_cast hgreatest

/-- What is found among the candidates of a length reads back. -/
theorem spells_of_decimalOf? (hd : 0 < d) (hk : 0 < k) (hlow : (10 : ℚ) ^ (point - 1) ≤ n / d)
    (hhigh : (n : ℚ) / d < 10 ^ point) (h : decimalOf? x n d point k = some dec) :
    dec.Spells k x := by
  obtain ⟨a, b, hb, hnum, hden, hvalue⟩ := exists_scaled_ten n hd (k - point)
  obtain ⟨hlow, hhigh⟩ := candidate_bounds hb hk hvalue hlow hhigh
  simp only [decimalOf?, hnum, hden, neg_sub] at h
  split at h
  · next hdown hup =>
    cases h
    by_cases hnear : b < 2 * (a % b) ∨ b = 2 * (a % b) ∧ a / b % 2 = 1
    · rw [if_pos hnear]
      exact spells_of_candidate hk (by omega) hhigh (beq_iff_eq.1 hup)
    · rw [if_neg hnear]
      exact spells_of_candidate hk hlow (by omega) (beq_iff_eq.1 hdown)
  · next hdown _ =>
    cases h
    exact spells_of_candidate hk hlow (by omega) (beq_iff_eq.1 hdown)
  · next _ hup =>
    cases h
    exact spells_of_candidate hk (by omega) hhigh (beq_iff_eq.1 hup)
  · cases h

/-- A decimal of seventeen digits next to a canonical number reads back. -/
theorem ofDecimal_of_next {m c : ℕ} {e : ℤ} {y : ℚ} (hm : 0 < m) (hx : Canonical m e)
    (hy : y = m * 2 ^ e * 10 ^ (17 - point)) (hlow : 10 ^ 16 ≤ y) (hc : |c - y| ≤ 1 / 2) :
    ofDecimal false c (point - 17) = finite false m e := by
  rw [ofDecimal_eq]
  refine nearest_of_close hm hx ?_
  have hpow : (0 : ℚ) < 10 ^ (point - 17) := by positivity
  have hvalue : (m : ℚ) * 2 ^ e = y * 10 ^ (point - 17) := by
    rw [hy, mul_assoc, ← zpow_add₀ (by norm_num)]
    simp
  rw [hvalue, ← sub_mul, abs_mul, abs_of_pos hpow]
  calc |c - y| * 10 ^ (point - 17) * (2 * 10 ^ 16)
      = |c - y| * 2 * 10 ^ 16 * 10 ^ (point - 17) := by ring
    _ ≤ 1 / 2 * 2 * 10 ^ 16 * 10 ^ (point - 17) := by gcongr
    _ ≤ y * 10 ^ (point - 17) := by
      gcongr
      linarith

/-- Seventeen digits are enough. -/
theorem decimalOf?_seventeen {m : ℕ} {e : ℤ} (hm : 0 < m) (hx : Canonical m e) (hd : 0 < d)
    (hratio : (n : ℚ) / d = m * 2 ^ e) (hlow : (10 : ℚ) ^ (point - 1) ≤ n / d) :
    decimalOf? (finite false m e) n d point 17 ≠ none := by
  obtain ⟨a, b, hb, hnum, hden, hvalue⟩ := exists_scaled_ten n hd (17 - point)
  have hb' : (0 : ℚ) < b := by exact_mod_cast hb
  have hlarge : (10 : ℚ) ^ 16 ≤ a / b := by
    calc (10 : ℚ) ^ 16 = 10 ^ (point - 1) * 10 ^ (17 - point) := by
          rw [← zpow_natCast]
          exact (zpow_mul_zpow (by norm_num) (by omega)).symm
      _ ≤ n / d * 10 ^ (17 - point) := by gcongr
      _ = a / b := hvalue.symm
  rw [hratio] at hvalue
  have hfloor : ⌊(a : ℚ) / b⌋₊ = a / b := Nat.floor_div_eq_div a b
  have hdown : ((a / b : ℕ) : ℚ) ≤ a / b := by
    rw [← hfloor]
    exact Nat.floor_le (by positivity)
  have hup : (a : ℚ) / b < (a / b : ℕ) + 1 := by
    rw [← hfloor]
    exact Nat.lt_floor_add_one _
  -- the nearer neighbour is at most half a unit away
  have hnext : ofDecimal false (a / b) (point - 17) = finite false m e ∨
      ofDecimal false (a / b + 1) (point - 17) = finite false m e := by
    rcases le_or_gt ((a : ℚ) / b - (a / b : ℕ)) (1 / 2) with hnear | hnear
    · refine .inl (ofDecimal_of_next hm hx hvalue hlarge ?_)
      exact abs_le.2 ⟨by linarith, by linarith⟩
    · refine .inr (ofDecimal_of_next hm hx hvalue hlarge ?_)
      push_cast
      exact abs_le.2 ⟨by linarith, by linarith⟩
  -- so it is not the case that neither of them reads back
  intro h
  have hcast : ((17 : ℕ) : ℤ) = 17 := rfl
  simp only [decimalOf?, hcast, hnum, hden, neg_sub] at h
  split at h
  · cases h
  · cases h
  · cases h
  · next hdown' hup' =>
    rcases hnext with hback | hback
    · rw [hback] at hdown'
      simp at hdown'
    · rw [hback] at hup'
      simp at hup'

theorem ratio_spec (m : ℕ) (e : ℤ) :
    0 < (ratio m e).2 ∧ ((ratio m e).1 : ℚ) / (ratio m e).2 = m * 2 ^ e := by
  rw [ratio]
  split_ifs with he
  · refine ⟨Nat.pow_pos (by decide), ?_⟩
    rw [zpow_natAbs, if_pos he, cast_pow2, div_eq_mul_inv]
  · refine ⟨Nat.one_pos, ?_⟩
    rw [zpow_natAbs, if_neg he, Nat.cast_mul, cast_pow2, Nat.cast_one, div_one]

/-- The shortest decimal of a canonical number reads back. -/
theorem exists_shortest {m : ℕ} {e : ℤ} (hm : 0 < m) (hx : Canonical m e) :
    ∃ dec k, shortest (finite false m e) (ratio m e).1 (ratio m e).2 = (dec, k) ∧ 0 < k ∧
      dec.Spells k (finite false m e) := by
  obtain ⟨hd, hratio⟩ := ratio_spec m e
  generalize (ratio m e).1 = n, (ratio m e).2 = d at hd hratio ⊢
  have hm' : (0 : ℚ) < m := by exact_mod_cast hm
  have hn : 0 < n := by
    refine Nat.pos_of_ne_zero ?_
    rintro rfl
    rw [Nat.cast_zero, zero_div] at hratio
    have : (0 : ℚ) < m * 2 ^ e := by positivity
    linarith
  obtain ⟨hlow, hhigh⟩ := between_of_pointOf hn hd
  rw [shortest]
  split
  · next found hfound =>
    obtain ⟨k, hk, hfound⟩ := List.exists_of_findSome?_eq_some hfound
    obtain ⟨dec, hdec, rfl⟩ := Option.map_eq_some_iff.1 hfound
    obtain ⟨k, -, rfl⟩ := List.mem_map.1 hk
    exact ⟨dec, k + 1, rfl, k.succ_pos, spells_of_decimalOf? hd k.succ_pos hlow hhigh hdec⟩
  · next hnone =>
    have hlast := List.findSome?_eq_none_iff.1 hnone 17 (by decide)
    exact absurd (Option.map_eq_none_iff.1 hlast) (decimalOf?_seventeen hm hx hd hratio hlow)

end MarkerBoard.Binary64
