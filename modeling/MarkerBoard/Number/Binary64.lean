import MarkerBoard.Text.Basic

/-!
# Double precision

The numbers of IEEE 754 binary64 as sign, significand and exponent, with the operations this
library needs, each computed exactly and then rounded once to the nearest number (ties to the
even significand).

* `Binary64.ofRatio` — the number nearest to a quotient.
* `Binary64.toText` — the fewest digits that read back.
* `Binary64.toTenths` — a number to one decimal place.
-/
namespace MarkerBoard

/-- A double-precision number. A finite one is `significand * 2 ^ exponent`; the significand has
53 bits, or fewer at the least exponent. -/
inductive Binary64
  | nan
  | infinite (negative : Bool)
  | finite (negative : Bool) (significand : Nat) (exponent : Int)
deriving DecidableEq, Repr, Inhabited

namespace Binary64

/-- A power of two. -/
def pow2 (n : Nat) : Nat := Nat.pow 2 n

/-- A power of ten. -/
def pow10 (n : Nat) : Nat := Nat.pow 10 n

/-- The least exponent. -/
def minExponent : Int := -1074

/-- The greatest exponent. -/
def maxExponent : Int := 971

/-- `num / den` in units of `2 ^ e`: the quotient, and the remainder with its divisor. -/
def scaled (num den : Nat) (e : Int) : Nat × Nat × Nat :=
  let num' := if e < 0 then num * pow2 e.natAbs else num
  let den' := if e < 0 then den else den * pow2 e.natAbs
  (num' / den', num' % den', den')

/-- Rounds a quotient with its remainder to the nearest integer, ties to even. -/
def roundEven (q r d : Nat) : Nat :=
  if 2 * r < d then q else if d < 2 * r then q + 1 else q + q % 2

/-- The number nearest to `num / den`. -/
def ofRatio (negative : Bool) (num den : Nat) : Binary64 :=
  if num = 0 then finite negative 0 minExponent
  else
    let guess : Int := (Nat.log2 num : Int) - Nat.log2 den - 52
    let fit := if (scaled num den guess).1 < pow2 52 then guess - 1 else guess
    let e := if fit < minExponent then minExponent else fit
    let (q, r, d) := scaled num den e
    let m := roundEven q r d
    let (m, e) := if m = pow2 53 then (pow2 52, e + 1) else (m, e)
    if maxExponent < e then infinite negative else finite negative m e

/-- The number nearest to a quotient of integers; zero keeps the sign of the quotient. -/
def ofQuotient (a b : Int) : Binary64 :=
  ofRatio (decide (a < 0) != decide (b < 0)) a.natAbs b.natAbs

/-- The number nearest to a decimal `m * 10 ^ e`. -/
def ofDecimal (negative : Bool) (m : Nat) (e : Int) : Binary64 :=
  let digits : Int := (Text.ofNat m).length
  if m = 0 then finite negative 0 minExponent
  else if 400 < digits + e then infinite negative
  else if digits + e < -400 then finite negative 0 minExponent
  else if e < 0 then ofRatio negative m (pow10 e.natAbs)
  else ofRatio negative (m * pow10 e.natAbs) 1

/-- The magnitude of a finite number as a fraction. -/
def ratio (m : Nat) (e : Int) : Nat × Nat :=
  if e < 0 then (m, pow2 e.natAbs) else (m * pow2 e.natAbs, 1)

/-- The product with a natural number, rounded. -/
def mulNat (x : Binary64) (k : Nat) : Binary64 :=
  match x with
  | finite negative m e => let (n, d) := ratio m e; ofRatio negative (n * k) d
  | x => x

/-- The 64 bits: sign, biased exponent, significand without its leading one. -/
def bits : Binary64 → Nat
  | nan => 0x7FF8000000000000
  | infinite negative => (if negative then pow2 63 else 0) + 0x7FF * pow2 52
  | finite negative m e =>
    (if negative then pow2 63 else 0) +
      (if m < pow2 52 then m else (e + 1075).toNat * pow2 52 + (m - pow2 52))

/-- The integer part toward minus infinity and the distance of the magnitude from the integer
below it, as a fraction; nothing for numbers that are not finite. -/
def floor? : Binary64 → Option (Int × Nat × Nat)
  | finite negative m e =>
    let (n, d) := ratio m e
    let below : Int := (n / d : Nat)
    let whole := if negative then (if n % d = 0 then -below else -below - 1) else below
    some (whole, n % d, d)
  | _ => none

/-- The integer that the number is, if it is one. -/
def toInt? (x : Binary64) : Option Int :=
  match x.floor? with
  | some (whole, 0, _) => some whole
  | _ => none

/-! ## Decimal texts -/

/-- The digits, read as an integer, and the place of the decimal point before them: a decimal
`0.digits * 10 ^ point`. -/
structure Decimal where
  digits : Nat
  point : Int

/-- The least power of ten above a positive fraction. -/
def pointOf (n d : Nat) : Int :=
  let guess : Int :=
    if d ≤ n then (Text.ofNat (n / d)).length else 1 - ((Text.ofNat (d / n)).length : Int)
  let below (p : Int) : Bool := if p < 0 then n * pow10 p.natAbs < d else n < d * pow10 p.natAbs
  if !below guess then guess + 1 else if below (guess - 1) then guess - 1 else guess

/-- The best decimal of `k` digits for the positive fraction `n / d`: of the two neighbours on
that grid that read back as `x`, the nearer one. -/
def decimalOf? (x : Binary64) (n d : Nat) (point : Int) (k : Nat) : Option Decimal :=
  let places : Int := k - point
  let num := if places < 0 then n else n * pow10 places.natAbs
  let den := if places < 0 then d * pow10 places.natAbs else d
  let low := num / den
  let back (c : Nat) : Bool := ofDecimal false c (-places) == x
  let up := den < 2 * (num % den) ∨ (den = 2 * (num % den) ∧ low % 2 = 1)
  let pick (c : Nat) : Decimal :=
    if c = pow10 k then ⟨pow10 (k - 1), point + 1⟩ else ⟨c, point⟩
  match back low, back (low + 1) with
  | true, true => some (pick (if up then low + 1 else low))
  | true, false => some (pick low)
  | false, true => some (pick (low + 1))
  | false, false => none

/-- The fewest digits that read back. -/
def shortest (x : Binary64) (n d : Nat) : Decimal × Nat :=
  let point := pointOf n d
  match ((List.range 17).map (· + 1)).findSome? fun k =>
      (decimalOf? x n d point k).map (·, k) with
  | some found => found
  | none => (⟨0, 0⟩, 1)

/-- Positional notation from 0.0001 up to, not including, 10 ^ 16, always with a decimal point;
otherwise one digit before the point and an exponent of at least two digits. -/
def layout (dec : Decimal) (k : Nat) : Text :=
  let ds := Text.padStart k '0' (Text.ofNat dec.digits)
  let exponent := dec.point - 1
  if exponent < -4 ∨ 16 ≤ exponent then
    let mantissa := match ds with
      | [] => ['0']
      | [c] => [c]
      | c :: cs => c :: '.' :: cs
    let sign := if exponent < 0 then '-' else '+'
    mantissa ++ 'e' :: sign :: Text.ofNatPadded 2 exponent.natAbs
  else if dec.point ≤ 0 then
    "0.".toList ++ List.replicate dec.point.natAbs '0' ++ ds
  else if k ≤ dec.point.toNat then
    ds ++ List.replicate (dec.point.toNat - k) '0' ++ ".0".toList
  else ds.take dec.point.toNat ++ '.' :: ds.drop dec.point.toNat

/-- The text of a number: the fewest digits that read back. -/
def toText : Binary64 → Text
  | nan => "NaN".toList
  | infinite negative => (if negative then "-Infinity" else "Infinity").toList
  | finite negative m e =>
    let sign : Text := if negative then ['-'] else []
    if m = 0 then sign ++ "0.0".toList
    else
      let (n, d) := ratio m e
      let (dec, k) := shortest (finite false m e) n d
      sign ++ layout dec k

/-- The number to one decimal place; a tie goes to the even digit. -/
def toTenths : Binary64 → Text
  | nan => "nan".toList
  | infinite negative => (if negative then "-inf" else "inf").toList
  | finite negative m e =>
    let (n, d) := ratio m e
    let t := roundEven (n * 10 / d) (n * 10 % d) d
    (if negative then ['-'] else []) ++ Text.ofNat (t / 10) ++ '.' :: Text.ofNat (t % 10)

end Binary64
end MarkerBoard
