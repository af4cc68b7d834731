import MarkerBoard.Text.Utf8
import Mathlib.Data.List.Basic

/-!
# UTF-8 read back

The bytes of a text are decoded as the text. A character takes one to four bytes, and the first
byte tells how many, so a text is decoded character by character.

Main results:

* `Utf8.decodeAt_encodeChar_append` — one character is decoded.
* `Utf8.decode_encode` — a text is decoded.
-/
namespace MarkerBoard.Utf8

variable {offset : Nat} {a b c d : UInt8} {r : List UInt8}

/-! ## Characters by their first byte -/

theorem decodeAt_one (ha : a.toNat < 0x80) : decodeAt offset (a :: r) =
    (decodeAt (offset + 1) r).map (Char.ofNat a.toNat :: ·) := by
  rw [decodeAt.eq_def]
  simp only [ha, if_true]

theorem decodeAt_two (ha : 0xC2 ≤ a.toNat) (ha' : a.toNat < 0xE0) (hb : fitsSecond a b = true) :
    decodeAt offset (a :: b :: r) =
      (decodeAt (offset + 2) r).map (Char.ofNat ((a.toNat - 0xC0) * 64 + payload b) :: ·) := by
  have h1 : ¬ a.toNat < 0x80 := by omega
  have h2 : ¬ (a.toNat < 0xC2 ∨ 0xF5 ≤ a.toNat) := by omega
  rw [decodeAt.eq_def]
  simp only [h1, ha', hb, Bool.or_eq_true, decide_eq_true_eq, h2, if_false, if_true,
    Bool.not_true, Bool.false_eq_true]

theorem decodeAt_three (ha : 0xE0 ≤ a.toNat) (ha' : a.toNat < 0xF0)
    (hb : fitsSecond a b = true) (hc : isContinuation c = true) :
    decodeAt offset (a :: b :: c :: r) = (decodeAt (offset + 3) r).map
      (Char.ofNat ((a.toNat - 0xE0) * 4096 + payload b * 64 + payload c) :: ·) := by
  have h1 : ¬ a.toNat < 0x80 := by omega
  have h2 : ¬ (a.toNat < 0xC2 ∨ 0xF5 ≤ a.toNat) := by omega
  have h3 : ¬ a.toNat < 0xE0 := by omega
  rw [decodeAt.eq_def]
  simp only [h1, h3, ha', hb, hc, Bool.or_eq_true, decide_eq_true_eq, h2, if_false, if_true,
    Bool.not_true, Bool.false_eq_true]

theorem decodeAt_four (ha : 0xF0 ≤ a.toNat) (ha' : a.toNat < 0xF5)
    (hb : fitsSecond a b = true) (hc : isContinuation c = true) (hd : isContinuation d = true) :
    decodeAt offset (a :: b :: c :: d :: r) = (decodeAt (offset + 4) r).map
      (Char.ofNat ((a.toNat - 0xF0) * 262144 + payload b * 4096 + payload c * 64 + payload d)
        :: ·) := by
  have h1 : ¬ a.toNat < 0x80 := by omega
  have h2 : ¬ (a.toNat < 0xC2 ∨ 0xF5 ≤ a.toNat) := by omega
  have h3 : ¬ a.toNat < 0xE0 := by omega
  have h4 : ¬ a.toNat < 0xF0 := by omega
  rw [decodeAt.eq_def]
  simp only [h1, h3, h4, hb, hc, hd, Bool.or_eq_true, decide_eq_true_eq, h2, if_false,
    Bool.not_true, Bool.false_eq_true]

/-! ## Bytes of characters -/

theorem toNat_ofNat {n : Nat} (h : n < 256) : (UInt8.ofNat n).toNat = n := by
  rw [UInt8.toNat_ofNat']
  omega

/-- A continuation byte bears its six bits. -/
theorem continuation_ofNat {n : Nat} (h : n < 64) :
    isContinuation (UInt8.ofNat (0x80 + n)) = true ∧ payload (UInt8.ofNat (0x80 + n)) = n := by
  have hn := toNat_ofNat (show 0x80 + n < 256 by omega)
  constructor
  · rw [isContinuation, hn, Bool.and_eq_true, decide_eq_true_eq, decide_eq_true_eq]
    omega
  · show (UInt8.ofNat (0x80 + n)).toNat - 0x80 = n
    omega

/-- A code point is below the surrogates or above them. -/
theorem toNat_valid (c : Char) : c.toNat < 0xD800 ∨ 0xDFFF < c.toNat ∧ c.toNat < 0x110000 :=
  c.valid

/-- The second byte of two fits the first one. -/
theorem fitsSecond_two {n : Nat} (hn : n < 0x800) (hn' : 0x80 ≤ n) :
    fitsSecond (UInt8.ofNat (0xC0 + n / 64)) (UInt8.ofNat (0x80 + n % 64)) = true := by
  have ha := toNat_ofNat (show 0xC0 + n / 64 < 256 by omega)
  have hb := continuation_ofNat (Nat.mod_lt n (show 0 < 64 by omega))
  rw [fitsSecond, hb.1, ha]
  simp only [Bool.true_and, beq_iff_eq]
  repeat' split
  all_goals first | rfl | (exfalso; omega)

/-- The second byte of three fits the first one, unless the code point is a surrogate. -/
theorem fitsSecond_three {n : Nat} (hn : n < 0x10000) (hn' : 0x800 ≤ n)
    (hvalid : n < 0xD800 ∨ 0xDFFF < n) :
    fitsSecond (UInt8.ofNat (0xE0 + n / 4096)) (UInt8.ofNat (0x80 + n / 64 % 64)) = true := by
  have ha := toNat_ofNat (show 0xE0 + n / 4096 < 256 by omega)
  have hb := continuation_ofNat (Nat.mod_lt (n / 64) (show 0 < 64 by omega))
  rw [fitsSecond, hb.1, ha, toNat_ofNat (by omega)]
  simp only [Bool.true_and, beq_iff_eq]
  repeat' split
  all_goals first | rfl | (exfalso; omega) | (rw [decide_eq_true_eq]; omega)

/-- The second byte of four fits the first one, up to the last code point. -/
theorem fitsSecond_four {n : Nat} (hn : n < 0x110000) (hn' : 0x10000 ≤ n) :
    fitsSecond (UInt8.ofNat (0xF0 + n / 262144)) (UInt8.ofNat (0x80 + n / 4096 % 64)) = true := by
  have ha := toNat_ofNat (show 0xF0 + n / 262144 < 256 by omega)
  have hb := continuation_ofNat (Nat.mod_lt (n / 4096) (show 0 < 64 by omega))
  rw [fitsSecond, hb.1, ha, toNat_ofNat (by omega)]
  simp only [Bool.true_and, beq_iff_eq]
  repeat' split
  all_goals first | rfl | (exfalso; omega) | (rw [decide_eq_true_eq]; omega)

/-- One character is decoded. -/
theorem decodeAt_encodeChar_append (offset : Nat) (c : Char) (rest : List UInt8) :
    decodeAt offset (encodeChar c ++ rest) =
      (decodeAt (offset + (encodeChar c).length) rest).map (c :: ·) := by
  have hvalid := toNat_valid c
  have hchar : ∀ n, n = c.toNat → Char.ofNat n = c := by
    rintro n rfl
    exact Char.ofNat_toNat c
  have hpos : 0 < 64 := by omega
  -- for each length of the encoding, the bits of all bytes together are those of the character
  rw [encodeChar]
  split
  · have ha := toNat_ofNat (show c.toNat < 256 by omega)
    rw [List.singleton_append, decodeAt_one (by omega), hchar _ ha]
    rfl
  · split
    · have ha := toNat_ofNat (show 0xC0 + c.toNat / 64 < 256 by omega)
      have hb := continuation_ofNat (Nat.mod_lt c.toNat hpos)
      rw [List.cons_append, List.singleton_append,
        decodeAt_two (by omega) (by omega) (fitsSecond_two (by omega) (by omega)),
        hchar _ (by rw [ha, hb.2]; omega)]
      rfl
    · split
      · have ha := toNat_ofNat (show 0xE0 + c.toNat / 4096 < 256 by omega)
        have hb := continuation_ofNat (Nat.mod_lt (c.toNat / 64) hpos)
        have hc := continuation_ofNat (Nat.mod_lt c.toNat hpos)
        rw [List.cons_append, List.cons_append, List.singleton_append,
          decodeAt_three (by omega) (by omega) (fitsSecond_three (by omega) (by omega) (by omega))
            hc.1,
          hchar _ (by rw [ha, hb.2, hc.2]; omega)]
        rfl
      · have ha := toNat_ofNat (show 0xF0 + c.toNat / 262144 < 256 by omega)
        have hb := continuation_ofNat (Nat.mod_lt (c.toNat / 4096) hpos)
        have hc := continuation_ofNat (Nat.mod_lt (c.toNat / 64) hpos)
        have hd := continuation_ofNat (Nat.mod_lt c.toNat hpos)
        rw [List.cons_append, List.cons_append, List.cons_append, List.singleton_append,
          decodeAt_four (by omega) (by omega) (fitsSecond_four (by omega) (by omega)) hc.1 hd.1,
          hchar _ (by rw [ha, hb.2, hc.2, hd.2]; omega)]
        rfl

/-- The bytes of a text are decoded as the text. -/
theorem decode_encode (t : Text) : decode (encode t) = .ok t := by
  have h : ∀ offset, decodeAt offset (encode t) = .ok t := by
    induction t with
    | nil => intro offset; rfl
    | cons c t ih =>
      intro offset
      rw [encode, List.flatMap_cons, ← encode, decodeAt_encodeChar_append, ih]
      rfl
  exact h 0

end MarkerBoard.Utf8
