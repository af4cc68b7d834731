import MarkerBoard.Json.Basic

/-!
# Writing JSON

Values are written over several lines, two spaces deeper inside each container; empty containers
take no line of their own. Characters are written as they are, except quotes, backslashes and
the control characters below the space.
-/
namespace MarkerBoard.Json

/-- One character of a string. -/
def escape (c : Char) : Text :=
  if c = '"' then ['\\', '"']
  else if c = '\\' then ['\\', '\\']
  else if c = '\n' then ['\\', 'n']
  else if c = '\r' then ['\\', 'r']
  else if c = '\t' then ['\\', 't']
  else if c = '\x08' then ['\\', 'b']
  else if c = '\x0c' then ['\\', 'f']
  else if c.toNat < 32 then
    ['\\', 'u', '0', '0', Nat.digitChar (c.toNat / 16), Nat.digitChar (c.toNat % 16)]
  else [c]

/-- A string between quotes. -/
def printString (t : Text) : Text := '"' :: t.flatMap escape ++ ['"']

/-- The start of a line inside `depth` containers. -/
def newline (depth : Nat) : Text := '\n' :: List.replicate (2 * depth) ' '

mutual
/-- A value inside `depth` containers. -/
def printAt (depth : Nat) : Json → Text
  | .null => "null".toList
  | .bool b => (if b then "true" else "false").toList
  | .int n => Text.ofInt n
  | .float x => x.toText
  | .str t => printString t
  | .arr [] => ['[', ']']
  | .arr (v :: vs) =>
    '[' :: newline (depth + 1) ++ printAt (depth + 1) v ++ printRest (depth + 1) vs
      ++ newline depth ++ [']']
  | .obj [] => ['{', '}']
  | .obj ((k, v) :: fields) =>
    '{' :: newline (depth + 1) ++ printString k ++ [':', ' '] ++ printAt (depth + 1) v
      ++ printFields (depth + 1) fields ++ newline depth ++ ['}']

/-- The elements after the first one. -/
def printRest (depth : Nat) : List Json → Text
  | [] => []
  | v :: vs => ',' :: newline depth ++ printAt depth v ++ printRest depth vs

/-- The fields after the first one. -/
def printFields (depth : Nat) : List (Text × Json) → Text
  | [] => []
  | (k, v) :: fields =>
    ',' :: newline depth ++ printString k ++ [':', ' '] ++ printAt depth v
      ++ printFields depth fields
end

/-- The text of a value. -/
def print (v : Json) : Text := printAt 0 v

end MarkerBoard.Json
