/-!
# Texts

A text is the list of its code points. Readers in this library are structural recursions on
that list, so a text is kept in this form everywhere; strings appear only at the edges.

* `Text.isBlank` — the white space that separates words, on which trimming and the marker
  grammar agree.
* `Text.after?`, `Text.before?` — what is left of a text once a given beginning or end is
  taken away.
* `Text.splitWhere` — the pieces between separators, empty pieces included.
-/
namespace MarkerBoard

/-- A text, as the list of its code points. -/
abbrev Text := List Char

namespace Text

/-- Whether all characters of a text have a property is found out along the text. -/
instance (priority := 1100) decidableForallMem (p : Char → Prop) [DecidablePred p] (t : Text) :
    Decidable (∀ c ∈ t, p c) := List.decidableBAll p t

/-- White space: the separators of Unicode together with the control characters that act as
separators. The zero-width space and the byte-order mark are not among them. -/
def isBlank (c : Char) : Bool :=
  let n := c.toNat
  (9 ≤ n && n ≤ 13) || (28 ≤ n && n ≤ 32) || n == 0x85 || n == 0xA0 || n == 0x1680 ||
    (0x2000 ≤ n && n ≤ 0x200A) || n == 0x2028 || n == 0x2029 || n == 0x202F || n == 0x205F ||
    n == 0x3000

/-- Drops the characters of a class from the end. -/
def dropEnd (p : Char → Bool) (t : Text) : Text := (t.reverse.dropWhile p).reverse

/-- Drops the characters of a class from both ends. -/
def dropEnds (p : Char → Bool) (t : Text) : Text := dropEnd p (t.dropWhile p)

/-- Without leading white space. -/
def trimStart (t : Text) : Text := t.dropWhile isBlank

/-- Without trailing white space. -/
def trimEnd (t : Text) : Text := dropEnd isBlank t

/-- Without white space at either end. -/
def trim (t : Text) : Text := dropEnds isBlank t

/-- What follows `front`, if the text begins with it. -/
def after? : (front t : Text) → Option Text
  | [], t => some t
  | _ :: _, [] => none
  | a :: front, c :: t => if a = c then after? front t else none

/-- What precedes `back`, if the text ends with it. -/
def before? (back t : Text) : Option Text := (after? back.reverse t.reverse).map List.reverse

/-- The text begins with `front`. -/
def startsWith (front t : Text) : Bool := (after? front t).isSome

/-- The text ends with `back`. -/
def endsWith (back t : Text) : Bool := (before? back t).isSome

/-- The text has `part` somewhere inside. -/
def hasPart (part : Text) : Text → Bool
  | [] => part.isEmpty
  | c :: t => startsWith part (c :: t) || hasPart part t

/-- The pieces between the characters of a class; there is always one piece more than there
are separators. -/
def splitWhere (p : Char → Bool) : Text → List Text
  | [] => [[]]
  | c :: t =>
    if p c then [] :: splitWhere p t
    else match splitWhere p t with
      | [] => [[c]]
      | piece :: pieces => (c :: piece) :: pieces

/-- The pieces between the occurrences of a character. -/
def splitAtEach (c : Char) (t : Text) : List Text := splitWhere (· == c) t

/-- The words of a text: its longest runs without white space. -/
def words (t : Text) : List Text := (splitWhere isBlank t).filter (· ≠ [])

/-- Joins texts, with `sep` between neighbours. -/
def join (sep : Text) (ts : List Text) : Text := (ts.intersperse sep).flatten

/-- The text is not after another one in the order of code points. -/
def isUpTo : Text → Text → Bool
  | [], _ => true
  | _ :: _, [] => false
  | a :: as, b :: bs => if a = b then isUpTo as bs else decide (a.toNat < b.toNat)

/-- Every text once, in the order of code points. -/
def sortedSet (ts : List Text) : List Text := ts.eraseDups.mergeSort isUpTo

/-- Every text once, longer ones before shorter ones. -/
def longestFirst (ts : List Text) : List Text :=
  ts.eraseDups.mergeSort fun a b => decide (b.length ≤ a.length)

/-- The decimal digits of a number. -/
def ofNat (n : Nat) : Text := Nat.toDigits 10 n

/-- The decimal digits of an integer, after a minus sign if it is negative. -/
def ofInt (n : Int) : Text := if n < 0 then '-' :: ofNat n.natAbs else ofNat n.natAbs

/-- Fills up on the left to a width. -/
def padStart (width : Nat) (fill : Char) (t : Text) : Text :=
  List.replicate (width - t.length) fill ++ t

/-- A number in at least `width` digits. -/
def ofNatPadded (width n : Nat) : Text := padStart width '0' (ofNat n)

/-- The value of an ASCII digit. -/
def asciiDigit? (c : Char) : Option Nat :=
  if '0' ≤ c ∧ c ≤ '9' then some (c.toNat - '0'.toNat) else none

/-- An ASCII decimal digit. -/
def isAsciiDigit (c : Char) : Bool := (asciiDigit? c).isSome

/-- The number written by a list of decimal digit values. -/
def natOfDigits (ds : List Nat) : Nat := ds.foldl (fun n d => 10 * n + d) 0

/-- An ASCII letter in lower case; any other character as it is. -/
def asciiLower (c : Char) : Char :=
  if 'A' ≤ c ∧ c ≤ 'Z' then Char.ofNat (c.toNat + 32) else c

/-- An ASCII letter or digit. -/
def isAsciiAlphanumeric (c : Char) : Bool :=
  isAsciiDigit c || ('A' ≤ c && c ≤ 'Z') || ('a' ≤ c && c ≤ 'z')

theorem after?_eq_some_iff {front t rest : Text} :
    after? front t = some rest ↔ t = front ++ rest := by
  induction front generalizing t with
  | nil => simp [after?, eq_comm]
  | cons a front ih =>
    cases t with
    | nil => simp [after?]
    | cons c t =>
      by_cases h : a = c
      · simp [after?, h, ih]
      · simp [after?, h, Ne.symm h]

@[simp] theorem after?_append (front rest : Text) : after? front (front ++ rest) = some rest :=
  after?_eq_some_iff.2 rfl

@[simp] theorem startsWith_append (front rest : Text) :
    startsWith front (front ++ rest) = true := by
  simp [startsWith]

end Text
end MarkerBoard
