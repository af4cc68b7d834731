import MarkerBoard.Checked.Basic
import MarkerBoard.Moment.Timestamp

/-!
# Readers of JSON values

A reader is generous about the form of a value: an integer may be written as a text or as a
number without a fraction, a boolean as `yes` or `0`, a moment as a number of seconds. A value
that fits no form of its kind is an issue.
-/
namespace MarkerBoard

/-- A way to check a JSON value. -/
abbrev Reader (α : Type) := Json → Checked α

namespace Reader
variable {α : Type}

/-- A text. -/
def text : Reader Text
  | .str t => .valid t
  | _ => .wrong .notText

/-- Digits with single underscores between them. -/
def groupedDigits? (t : Text) : Option Nat :=
  let groups := Text.splitAtEach '_' t
  if groups.all (· ≠ []) then
    (groups.flatten.mapM Text.asciiDigit?).map Text.natOfDigits
  else none

/-- The text of an integer: white space around it, a sign, and a fraction of zeros are allowed. -/
def integerText? (t : Text) : Option Int :=
  let (negative, t) := Moment.sign (Text.trim t)
  let whole := t.takeWhile (· ≠ '.')
  let fraction := (t.dropWhile (· ≠ '.')).drop 1
  if fraction.all (· == '0') then
    (groupedDigits? whole).map fun n => if negative then -n else n
  else none

/-- Floating-point numbers from here on are too great to stand for an integer. -/
def integerLimit : Nat := Nat.pow 2 63

/-- The integer that a floating-point number stands for. -/
def integerFloat? (x : Binary64) : Option Int :=
  x.toInt?.filter fun n => n.natAbs < integerLimit

/-- An integer. -/
def integer : Reader Int
  | .int n => .valid n
  | .bool b => .valid (if b then 1 else 0)
  | .float x => match integerFloat? x with
    | some n => .valid n
    | none => .wrong .notInteger
  | .str t => match integerText? t with
    | some n => .valid n
    | none => .wrong .notInteger
  | _ => .wrong .notInteger

/-- An integer that is not below a bound. -/
def integerFrom (bound : Int) : Reader Int := fun v =>
  match integer v with
  | .valid n => if bound ≤ n then .valid n else .wrong .tooSmall
  | .invalid issues => .invalid issues

/-- The words for no. -/
def noWords : List Text := ["0", "off", "f", "false", "n", "no"].map String.toList

/-- The words for yes. -/
def yesWords : List Text := ["1", "on", "t", "true", "y", "yes"].map String.toList

/-- One and zero as booleans. -/
def bit : Int → Checked Bool
  | 0 => .valid false
  | 1 => .valid true
  | _ => .wrong .notBoolean

/-- A boolean. -/
def boolean : Reader Bool
  | .bool b => .valid b
  | .int n => bit n
  | .float x => match integerFloat? x with
    | some n => bit n
    | none => .wrong .notBoolean
  | .str t =>
    let word := t.map Text.asciiLower
    if noWords.contains word then .valid false
    else if yesWords.contains word then .valid true
    else .wrong .notBoolean
  | _ => .wrong .notBoolean

/-- The moment that a value stands for. -/
def moment? : Json → Option Moment
  | .str t => Moment.ofText? t
  | .int n => Moment.ofTimestamp? n 0
  | .float x => Moment.ofFloat? x
  | _ => none

/-- A moment. -/
def moment : Reader Moment := fun v =>
  match moment? v with
  | some m => .valid m
  | none => .wrong .notMoment

/-- A value of some kind, or null. -/
def nullable (r : Reader α) : Reader (Option α)
  | .null => .valid none
  | v => (r v).map some

/-- The elements of a list from an index on. -/
def elements (r : Reader α) (index : Nat) : List Json → Checked (List α)
  | [] => pure []
  | v :: vs => List.cons <$> (r v).under (.index index) <*> elements r (index + 1) vs

/-- A list. -/
def list (r : Reader α) : Reader (List α)
  | .arr vs => elements r 0 vs
  | _ => .wrong .notList

/-- The entries of a dictionary. -/
def entries (r : Reader α) : List (Text × Json) → Checked (Keyed α)
  | [] => pure []
  | (k, v) :: fields =>
    List.cons <$> ((r v).under (.key k)).map (Prod.mk k) <*> entries r fields

/-- A dictionary. -/
def dictionary (r : Reader α) : Reader (Keyed α)
  | .obj fields => entries r fields
  | _ => .wrong .notDictionary

/-- A record, read from its fields. -/
def record (f : Keyed Json → Checked α) : Reader α
  | .obj fields => f fields
  | _ => .wrong .notRecord

/-- A field that has to be there. -/
def required (key : String) (r : Reader α) (fields : Keyed Json) : Checked α :=
  match Keyed.get? key.toList fields with
  | some v => (r v).under (.key key.toList)
  | none => .invalid [⟨[.key key.toList], .missing⟩]

/-- A field with a default. -/
def optional (key : String) (r : Reader α) (default : α) (fields : Keyed Json) : Checked α :=
  match Keyed.get? key.toList fields with
  | some v => (r v).under (.key key.toList)
  | none => .valid default

/-- The fields whose keys are not among the given ones. -/
def others (keys : List String) (fields : Keyed Json) : Keyed Json :=
  fields.filter fun e => !(keys.map String.toList).contains e.1

end Reader

namespace Json

/-- An object with keys given as strings. -/
def record (fields : List (String × Json)) : Json := .obj (fields.map fun e => (e.1.toList, e.2))

/-- A value that may be missing. -/
def nullable (f : α → Json) : Option α → Json
  | none => .null
  | some a => f a

/-- A dictionary. -/
def dictionary (f : α → Json) (m : Keyed α) : Json := .obj (Keyed.mapValues f m)

/-- A moment in its ISO text. -/
def moment (m : Moment) : Json := .str m.toIso

end Json
end MarkerBoard
