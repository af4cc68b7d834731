import MarkerBoard.Json.Basic

/-!
# JSON tokens

The tokens of a JSON text, found by one pass over its characters. Only space, tab, line feed and
carriage return separate tokens; a string holds no raw control characters. Outside strings the
longest run without separators, punctuation and quotes is one token, which must be a literal or
a number.
-/
namespace MarkerBoard.Json

/-- A token. -/
inductive Token
  | openObject | closeObject | openArray | closeArray | colon | comma
  | str (t : Text)
  | atom (v : Json)
deriving DecidableEq, Inhabited

/-- The white space between tokens. -/
def isSpace (c : Char) : Bool := c == ' ' || c == '\t' || c == '\n' || c == '\r'

/-- The token of a punctuation character. -/
def punctuation? : Char → Option Token
  | '{' => some .openObject
  | '}' => some .closeObject
  | '[' => some .openArray
  | ']' => some .closeArray
  | ':' => some .colon
  | ',' => some .comma
  | _ => none

/-- The value of a hexadecimal digit. -/
def hexDigit? (c : Char) : Option Nat :=
  if '0' ≤ c ∧ c ≤ '9' then some (c.toNat - 48)
  else if 'a' ≤ c ∧ c ≤ 'f' then some (c.toNat - 87)
  else if 'A' ≤ c ∧ c ≤ 'F' then some (c.toNat - 55)
  else none

/-- The exponent of a number: empty, or `e`, an optional sign and digits. -/
def exponent? : Text → Option Int
  | [] => some 0
  | c :: t =>
    if c = 'e' ∨ c = 'E' then
      let (negative, ds) : Bool × Text := match t with
        | '-' :: ds => (true, ds)
        | '+' :: ds => (false, ds)
        | ds => (false, ds)
      if ds ≠ [] ∧ ds.all Text.isAsciiDigit then
        let n : Int := Text.natOfDigits (ds.filterMap Text.asciiDigit?)
        some (if negative then -n else n)
      else none
    else none

/-- A number without its sign: an integer part without superfluous zeros, then an optional
fraction and exponent, either of which makes it a floating-point number. -/
def unsigned? (negative : Bool) (t : Text) : Option Json :=
  let whole := t.takeWhile Text.isAsciiDigit
  let rest := t.dropWhile Text.isAsciiDigit
  if whole = [] ∨ (whole.head? = some '0' ∧ 1 < whole.length) then none
  else
    let value := Text.natOfDigits (whole.filterMap Text.asciiDigit?)
    match rest with
    | [] => some (.int (if negative then -(value : Int) else value))
    | '.' :: rest =>
      let fraction := rest.takeWhile Text.isAsciiDigit
      if fraction = [] then none
      else (exponent? (rest.dropWhile Text.isAsciiDigit)).map fun e =>
        .float (Binary64.ofDecimal negative
          (Text.natOfDigits ((whole ++ fraction).filterMap Text.asciiDigit?))
          (e - fraction.length))
    | rest => (exponent? rest).map fun e => .float (Binary64.ofDecimal negative value e)

/-- The words that are values. -/
def words : Keyed Json := [
  ("null".toList, .null), ("true".toList, .bool true), ("false".toList, .bool false),
  ("NaN".toList, .float .nan), ("Infinity".toList, .float (.infinite false)),
  ("-Infinity".toList, .float (.infinite true))]

/-- A number with or without a minus sign. -/
def number? : Text → Option Json
  | '-' :: t => unsigned? true t
  | t => unsigned? false t

/-- The value of a run of characters outside strings. -/
def atom? (t : Text) : Option Json :=
  match Keyed.get? t words with
  | some v => some v
  | none => number? t

/-- What the pass is inside of. Characters are gathered in reverse; `high` is the first half of
a character that an escape has begun to spell in two halves. -/
inductive Mode
  | between
  | bare (gathered : Text)
  | string (gathered : Text) (high : Option Nat)
  | escape (gathered : Text) (high : Option Nat)
  | code (gathered : Text) (high : Option Nat) (missing value : Nat)

/-- A half of a character that has no other half becomes the replacement character. -/
def settle (gathered : Text) : Option Nat → Text
  | none => gathered
  | some _ => Char.ofNat 0xFFFD :: gathered

/-- Takes a code unit that an escape has spelled. -/
def takeUnit (gathered : Text) (high : Option Nat) (n : Nat) : Mode :=
  if 0xD800 ≤ n ∧ n < 0xDC00 then .string (settle gathered high) (some n)
  else if 0xDC00 ≤ n ∧ n < 0xE000 then
    match high with
    | some h => .string (Char.ofNat (0x10000 + (h - 0xD800) * 1024 + (n - 0xDC00)) :: gathered) none
    | none => .string (Char.ofNat 0xFFFD :: gathered) none
  else .string (Char.ofNat n :: settle gathered high) none

/-- The character of a one-letter escape. -/
def escaped? : Char → Option Char
  | '"' => some '"'
  | '\\' => some '\\'
  | '/' => some '/'
  | 'b' => some '\x08'
  | 'f' => some '\x0c'
  | 'n' => some '\n'
  | 'r' => some '\r'
  | 't' => some '\t'
  | _ => none

/-- The mode and the token that a character between tokens leads to. -/
def begin (c : Char) : Mode × Option Token :=
  if isSpace c then (.between, none)
  else if c = '"' then (.string [] none, none)
  else match punctuation? c with
    | some token => (.between, some token)
    | none => (.bare [c], none)

/-- The tokens of the rest of a text. -/
def tokensFrom : Mode → Text → Option (List Token)
  | .between, [] => some []
  | .bare g, [] => (atom? g.reverse).map fun v => [.atom v]
  | .string .., [] | .escape .., [] | .code .., [] => none
  | .between, c :: t =>
    let (mode, token) := begin c
    (tokensFrom mode t).map (token.toList ++ ·)
  | .bare g, c :: t =>
    if isSpace c || c == '"' || (punctuation? c).isSome then
      match atom? g.reverse with
      | none => none
      | some v =>
        let (mode, token) := begin c
        (tokensFrom mode t).map (Token.atom v :: token.toList ++ ·)
    else tokensFrom (.bare (c :: g)) t
  | .string g high, c :: t =>
    if c = '"' then (tokensFrom .between t).map (Token.str (settle g high).reverse :: ·)
    else if c = '\\' then tokensFrom (.escape g high) t
    else if c.toNat < 32 then none
    else tokensFrom (.string (c :: settle g high) none) t
  | .escape g high, c :: t =>
    if c = 'u' then tokensFrom (.code g high 4 0) t
    else match escaped? c with
      | some e => tokensFrom (.string (e :: settle g high) none) t
      | none => none
  | .code g high missing value, c :: t =>
    match hexDigit? c with
    | none => none
    | some d =>
      let n := 16 * value + d
      if missing ≤ 1 then tokensFrom (takeUnit g high n) t
      else tokensFrom (.code g high (missing - 1) n) t

/-- The tokens of a text. -/
def tokens? (t : Text) : Option (List Token) := tokensFrom .between t

end MarkerBoard.Json
