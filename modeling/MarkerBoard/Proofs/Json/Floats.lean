import MarkerBoard.Proofs.Json.Tokens
import MarkerBoard.Proofs.Number.Shortest

/-!
# Numbers with a fraction

A floating-point number is written with the fewest digits that read back, in positional or in
scientific notation. The reader puts the digits before and after the point together and moves the
point as far as the exponent says, so it finds the same decimal in either notation, though perhaps
with more zeros. What a decimal is rounded to depends on its value only.

Main results:

* `Json.unsigned?_layout` — a decimal is read back from its layout.
* `Json.atom?_toText` — a written number is read back.
-/
namespace MarkerBoard.Json

open Binary64

variable {w f rest : Text} {n : Nat}

/-- The exponent of a written number. -/
theorem exponent?_written (e : Int) :
    exponent? ('e' :: (if e < 0 then '-' else '+') :: Text.ofNatPadded 2 e.natAbs) = some e := by
  have hspells := Text.spells_ofNatPadded 2 e.natAbs
  have hdigits : (Text.ofNatPadded 2 e.natAbs).all Text.isAsciiDigit :=
    List.all_eq_true.2 hspells.isAsciiDigit_of_mem
  have hne : Text.ofNatPadded 2 e.natAbs ≠ [] := by
    rw [Text.ofNatPadded, Text.padStart]
    exact List.append_ne_nil_of_right_ne_nil _ (Text.ofNat_ne_nil _)
  by_cases he : e < 0
  · rw [if_pos he, exponent?, if_pos (.inl rfl)]
    dsimp only
    rw [if_pos ⟨hne, hdigits⟩, hspells.filterMap_asciiDigit?, if_pos rfl]
    congr 1
    omega
  · rw [if_neg he, exponent?, if_pos (.inl rfl)]
    dsimp only
    rw [if_pos ⟨hne, hdigits⟩, hspells.filterMap_asciiDigit?, if_neg (by simp)]
    congr 1
    omega

/-- The digits at the start of a text. -/
theorem span_digits (hw : ∀ c ∈ w, Text.isAsciiDigit c = true) (rest : Text)
    (hrest : ∀ c ∈ rest.head?, Text.isAsciiDigit c = false) :
    (w ++ rest).takeWhile Text.isAsciiDigit = w ∧
      (w ++ rest).dropWhile Text.isAsciiDigit = rest := by
  rw [List.takeWhile_append_of_pos hw, List.dropWhile_append_of_pos hw]
  cases rest with
  | nil => exact ⟨List.append_nil _, rfl⟩
  | cons c rest => simp [hrest c rfl]

/-- The text can be the integer part of a number: it has no superfluous zeros. -/
def IsWhole (w : Text) : Prop := w ≠ [] ∧ (w.head? = some '0' → w.length ≤ 1)

theorem isWhole_single (c : Char) : IsWhole [c] := ⟨List.cons_ne_nil _ _, fun _ => le_rfl⟩

theorem isWhole_of_head? (hw : w ≠ []) (h : w.head? ≠ some '0') : IsWhole w :=
  ⟨hw, fun hz => absurd hz h⟩

theorem IsWhole.not_superfluous (h : IsWhole w) :
    ¬ (w = [] ∨ w.head? = some '0' ∧ 1 < w.length) :=
  not_or.2 ⟨h.1, fun hz => absurd (h.2 hz.1) (by omega)⟩

/-- A number with a fraction and perhaps an exponent. -/
theorem unsigned?_point (negative : Bool) (hspells : Text.Spells (w ++ f) n) (hw : IsWhole w)
    (hf : f ≠ []) {e : Int} (hrest : exponent? rest = some e)
    (hstop : ∀ c ∈ rest.head?, Text.isAsciiDigit c = false) :
    unsigned? negative (w ++ '.' :: (f ++ rest)) =
      some (.float (ofDecimal negative n (e - f.length))) := by
  obtain ⟨hdw, hdf⟩ := List.forall_mem_append.1 hspells.isAsciiDigit_of_mem
  obtain ⟨htake, hdrop⟩ := span_digits hdw ('.' :: (f ++ rest))
    (fun c hc => by cases hc; rfl)
  obtain ⟨htake', hdrop'⟩ := span_digits hdf rest hstop
  rw [unsigned?, htake, hdrop]
  simp only [if_neg hw.not_superfluous]
  rw [htake', hdrop', if_neg hf, hrest, hspells.filterMap_asciiDigit?]
  rfl

/-- A number with an exponent, but without a fraction. -/
theorem unsigned?_exponent (negative : Bool) (hspells : Text.Spells w n) (hw : IsWhole w) {e : Int}
    (hrest : exponent? ('e' :: rest) = some e) :
    unsigned? negative (w ++ 'e' :: rest) = some (.float (ofDecimal negative n e)) := by
  obtain ⟨htake, hdrop⟩ := span_digits hspells.isAsciiDigit_of_mem ('e' :: rest)
    (fun c hc => by cases hc; rfl)
  rw [unsigned?, htake, hdrop]
  dsimp only
  rw [if_neg hw.not_superfluous]
  split
  · next h => cases h
  · next h => simp at h
  · rw [hrest, hspells.filterMap_asciiDigit?]
    rfl

variable {dec : Decimal} {k : Nat} {x : Binary64}

/-- The digits of a decimal of a given length are as many, and the first one is not zero. -/
theorem digits_of_spells (h : dec.Spells k x) (hk : 0 < k) :
    Text.padStart k '0' (Text.ofNat dec.digits) = Text.ofNat dec.digits ∧
      (Text.ofNat dec.digits).length = k ∧ (Text.ofNat dec.digits).head? ≠ some '0' := by
  have hpos : 0 < dec.digits := lt_of_lt_of_le (Nat.pow_pos (by decide)) h.low
  have hlength : (Text.ofNat dec.digits).length = k := by
    obtain ⟨hlow, hhigh⟩ := Text.between_of_length hpos.ne'
    have hle : k - 1 < (Text.ofNat dec.digits).length :=
      (Nat.pow_lt_pow_iff_right (by decide)).1 (lt_of_le_of_lt h.low hhigh)
    have hge : (Text.ofNat dec.digits).length - 1 < k :=
      (Nat.pow_lt_pow_iff_right (by decide)).1 (lt_of_le_of_lt hlow h.high)
    omega
  refine ⟨?_, hlength, head?_ofNat hpos⟩
  rw [Text.padStart, hlength, Nat.sub_self]
  rfl

/-- A number in scientific notation. -/
theorem unsigned?_scientific (negative : Bool) {c : Char} {cs : Text}
    (hspells : Text.Spells (c :: cs) n) (e : Int) :
    unsigned? negative ((match cs with | [] => [c] | c' :: cs => c :: '.' :: c' :: cs) ++
        'e' :: (if e < 0 then '-' else '+') :: Text.ofNatPadded 2 e.natAbs) =
      some (.float (nearest negative (n * 10 ^ (e - cs.length)))) := by
  have hrest := exponent?_written e
  rw [← ofDecimal_eq]
  cases cs with
  | nil =>
    rw [List.length_nil, Nat.cast_zero, sub_zero]
    exact unsigned?_exponent negative hspells (isWhole_single c) hrest
  | cons c' cs =>
    exact unsigned?_point negative hspells (isWhole_single c) (List.cons_ne_nil _ _) hrest
      (fun d hd => by cases hd; rfl)

/-- A number in positional notation. -/
theorem unsigned?_positional (negative : Bool) (hspells : Text.Spells (w ++ f) n) (hw : IsWhole w)
    (hf : f ≠ []) :
    unsigned? negative (w ++ '.' :: f) =
      some (.float (nearest negative (n * 10 ^ (-(f.length : Int))))) := by
  have hread := unsigned?_point negative hspells hw hf (rfl : exponent? [] = some 0)
    (fun d hd => by cases hd)
  rwa [List.append_nil, zero_sub, ofDecimal_eq] at hread

/-- A number below one, with zeros behind the point. -/
theorem unsigned?_below_one (negative : Bool) (hspells : Text.Spells f n) (hf : f ≠ []) (j : Nat) :
    unsigned? negative ("0.".toList ++ List.replicate j '0' ++ f) =
      some (.float (nearest negative (n * 10 ^ (-((j + f.length : Nat) : Int))))) := by
  have hdigits := (Text.spells_zeros 1).append ((Text.spells_zeros j).append hspells)
  have hread := unsigned?_positional negative hdigits (isWhole_single '0')
    (List.append_ne_nil_of_right_ne_nil _ hf)
  rw [List.length_append, List.length_replicate] at hread
  simpa using hread

/-- An integral number, with zeros before the point and one behind it. -/
theorem unsigned?_integral (negative : Bool) (hspells : Text.Spells w n) (hw : w ≠ [])
    (hhead : w.head? ≠ some '0') (j : Nat) :
    unsigned? negative (w ++ List.replicate j '0' ++ ".0".toList) =
      some (.float (nearest negative (n * 10 ^ j))) := by
  have hdigits := (hspells.append (Text.spells_zeros j)).append (Text.spells_zeros 1)
  have hwhole : IsWhole (w ++ List.replicate j '0') := by
    refine isWhole_of_head? (List.append_ne_nil_of_left_ne_nil hw _) ?_
    rwa [List.head?_append_of_ne_nil _ hw]
  have hread := unsigned?_positional negative hdigits hwhole (List.cons_ne_nil _ _)
  have hvalue : ((n * 10 ^ j * 10 : ℕ) : ℚ) * 10 ^ (-((1 : ℕ) : ℤ)) = n * 10 ^ j := by
    push_cast
    rw [zpow_neg_one]
    field_simp
  simp only [List.length_replicate, Nat.add_zero, pow_one] at hread
  rw [← hvalue]
  exact hread

/-- A decimal is read back from its layout. -/
theorem unsigned?_layout (negative : Bool) (h : dec.Spells k x) (hk : 0 < k) :
    unsigned? negative (layout dec k) =
      some (.float (nearest negative (dec.digits * 10 ^ (dec.point - k)))) := by
  obtain ⟨hpad, hlength, hhead⟩ := digits_of_spells h hk
  have hspells := Text.spells_ofNat dec.digits
  generalize hds : Text.ofNat dec.digits = ds at hpad hlength hhead hspells
  obtain ⟨c, cs, rfl⟩ : ∃ c cs, ds = c :: cs := List.exists_cons_of_length_pos (by omega)
  have hne : c :: cs ≠ [] := List.cons_ne_nil _ _
  rw [layout, hds, hpad]
  dsimp only
  by_cases hexp : dec.point - 1 < -4 ∨ 16 ≤ dec.point - 1
  · -- scientific notation, with the point behind the first digit
    have hread := unsigned?_scientific negative hspells (dec.point - 1)
    have hpoint : dec.point - 1 - cs.length = dec.point - k := by
      rw [List.length_cons] at hlength
      omega
    rw [if_pos hexp, ← hpoint, ← hread]
    cases cs <;> rfl
  rw [if_neg hexp]
  by_cases hsmall : dec.point ≤ 0
  · -- zeros between the point and the first digit
    have hread := unsigned?_below_one negative hspells hne dec.point.natAbs
    have hpoint : dec.point - k = -((dec.point.natAbs + k : Nat) : Int) := by omega
    rw [hlength] at hread
    rw [if_pos hsmall, hpoint]
    exact hread
  rw [if_neg hsmall]
  by_cases hlarge : k ≤ dec.point.toNat
  · -- zeros between the last digit and the point
    have hread := unsigned?_integral negative hspells hne hhead (dec.point.toNat - k)
    have hpoint : dec.point - k = ((dec.point.toNat - k : Nat) : Int) := by omega
    rw [if_pos hlarge, hpoint, zpow_natCast]
    exact hread
  · -- the point is between two digits
    have hwhole : IsWhole ((c :: cs).take dec.point.toNat) := by
      refine isWhole_of_head? ?_ ?_
      · rw [ne_eq, List.take_eq_nil_iff]
        simpa using hsmall
      · rwa [List.head?_take, if_neg (by omega)]
    have hfraction : (c :: cs).drop dec.point.toNat ≠ [] := by
      rw [ne_eq, List.drop_eq_nil_iff]
      omega
    have hsplit : Text.Spells ((c :: cs).take dec.point.toNat ++ (c :: cs).drop dec.point.toNat)
        dec.digits := by
      rwa [List.take_append_drop]
    have hread := unsigned?_positional negative hsplit hwhole hfraction
    have hpoint : dec.point - k = -((k - dec.point.toNat : Nat) : Int) := by omega
    rw [List.length_drop, hlength] at hread
    rw [if_neg hlarge, hpoint]
    exact hread

/-- A written number is read back. -/
theorem atom?_toText (negative : Bool) {m : ℕ} {e : ℤ} (h : Canonical m e) :
    atom? (finite negative m e).toText = some (.float (finite negative m e)) := by
  rw [toText]
  by_cases hm : m = 0
  · -- zero has one form, but for its sign
    rw [if_pos hm]
    have hmin : e = minExponent := h.normal.resolve_left (by omega)
    have hread := unsigned?_positional negative
      (Text.spells_zeros 2) (isWhole_single '0') (List.cons_ne_nil _ _)
    rw [Nat.cast_zero, zero_mul, nearest, if_pos rfl] at hread
    rw [hm, hmin]
    exact atom?_of_unsigned? hread
  · rw [if_neg hm]
    obtain ⟨dec, k, hshortest, hk, hspells⟩ := exists_shortest (Nat.pos_of_ne_zero hm) h
    have hread := unsigned?_layout negative hspells hk
    rw [nearest_negative hspells.back] at hread
    dsimp only
    rw [hshortest]
    exact atom?_of_unsigned? hread

theorem isDelimiter_layout (dec : Decimal) (k : Nat) :
    ∀ c ∈ layout dec k, isDelimiter c = false := by
  have hpad : ∀ k n, ∀ c ∈ Text.padStart k '0' (Text.ofNat n), isDelimiter c = false :=
    fun k n => isDelimiter_of_spells (Text.spells_ofNatPadded k n)
  have hzeros : ∀ k, ∀ c ∈ List.replicate k '0', isDelimiter c = false :=
    fun k => isDelimiter_of_spells (Text.spells_zeros k)
  have hds := hpad k dec.digits
  have hexponent : ∀ c ∈ Text.ofNatPadded 2 (dec.point - 1).natAbs, isDelimiter c = false :=
    hpad 2 _
  have hsign : isDelimiter (if dec.point - 1 < 0 then '-' else '+') = false := by
    split <;> rfl
  rw [layout]
  generalize Text.padStart k '0' (Text.ofNat dec.digits) = ds at hds
  dsimp only
  -- whatever the notation, it has digits, a point, a sign and the letter of an exponent
  split
  · refine List.forall_mem_append.2 ⟨?_, ?_⟩
    · split
      · exact hzeros 1
      · exact hds
      · next c cs _ =>
        obtain ⟨hc, hcs⟩ := List.forall_mem_cons.1 hds
        exact List.forall_mem_cons.2 ⟨hc, List.forall_mem_cons.2 ⟨rfl, hcs⟩⟩
    · exact List.forall_mem_cons.2 ⟨rfl, List.forall_mem_cons.2 ⟨hsign, hexponent⟩⟩
  split
  · refine List.forall_mem_append.2 ⟨List.forall_mem_append.2 ⟨by decide, hzeros _⟩, hds⟩
  split
  · refine List.forall_mem_append.2 ⟨List.forall_mem_append.2 ⟨hds, hzeros _⟩, by decide⟩
  · refine List.forall_mem_append.2 ⟨fun c hc => hds c (List.mem_of_mem_take hc), ?_⟩
    exact List.forall_mem_cons.2 ⟨rfl, fun c hc => hds c (List.mem_of_mem_drop hc)⟩

/-- A written number is one run of characters. -/
theorem isDelimiter_toText (negative : Bool) (m : ℕ) (e : ℤ) :
    ∀ c ∈ (finite negative m e).toText, isDelimiter c = false := by
  have hsign : ∀ c ∈ (if negative then ['-'] else [] : Text), isDelimiter c = false := by
    cases negative <;> decide
  rw [toText]
  split
  · exact List.forall_mem_append.2 ⟨hsign, by decide⟩
  · exact List.forall_mem_append.2 ⟨hsign, isDelimiter_layout _ _⟩

theorem toText_ne_nil (negative : Bool) {m : ℕ} {e : ℤ} (h : Canonical m e) :
    (finite negative m e).toText ≠ [] := by
  intro hnil
  have hread := atom?_toText negative h
  rw [hnil] at hread
  cases hread

end MarkerBoard.Json
