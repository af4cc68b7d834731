import MarkerBoard.Json.Token

/-!
# Reading JSON

A value is put together from tokens with a stack of the containers that are still open. Of a key
that occurs more than once in an object the last value counts, at the place of the first.
-/
namespace MarkerBoard.Json

/-- A container that is still open. -/
inductive Frame
  /-- An array with its elements so far, the last one first. -/
  | array (elements : List Json)
  /-- An object with its fields so far, and the key whose value is being read. -/
  | object (fields : List (Text × Json)) (key : Text)

/-- What may come next. -/
inductive Expect
  /-- A value. -/
  | value
  /-- A value, or the end of an array that has just been opened. -/
  | element
  /-- A key, or the end of an object that has just been opened. -/
  | firstKey
  /-- A key. -/
  | key (fields : List (Text × Json))
  /-- The colon after a key. -/
  | colon (fields : List (Text × Json)) (key : Text)
  /-- A comma or the end of the container. -/
  | more
  /-- Nothing: the value is complete. -/
  | done (v : Json)

/-- Hands a complete value to the innermost open container. -/
def deliver (v : Json) : List Frame → Expect × List Frame
  | [] => (.done v, [])
  | .array elements :: stack => (.more, .array (v :: elements) :: stack)
  | .object fields key :: stack => (.more, .object (Keyed.put key v fields) key :: stack)

/-- One token. -/
def step : Expect → List Frame → Token → Option (Expect × List Frame)
  | .value, stack, .str t | .element, stack, .str t => some (deliver (.str t) stack)
  | .value, stack, .atom v | .element, stack, .atom v => some (deliver v stack)
  | .value, stack, .openArray | .element, stack, .openArray =>
    some (.element, .array [] :: stack)
  | .value, stack, .openObject | .element, stack, .openObject => some (.firstKey, stack)
  | .element, .array elements :: stack, .closeArray =>
    some (deliver (.arr elements.reverse) stack)
  | .firstKey, stack, .closeObject => some (deliver (.obj []) stack)
  | .firstKey, stack, .str k => some (.colon [] k, stack)
  | .key fields, stack, .str k => some (.colon fields k, stack)
  | .colon fields k, stack, .colon => some (.value, .object fields k :: stack)
  | .more, .array elements :: stack, .comma => some (.value, .array elements :: stack)
  | .more, .array elements :: stack, .closeArray => some (deliver (.arr elements.reverse) stack)
  | .more, .object fields _ :: stack, .comma => some (.key fields, stack)
  | .more, .object fields _ :: stack, .closeObject => some (deliver (.obj fields) stack)
  | _, _, _ => none

/-- The value that tokens make in a given state. -/
def assemble : Expect → List Frame → List Token → Option Json
  | .done v, _, [] => some v
  | _, _, [] => none
  | expect, stack, token :: rest =>
    match step expect stack token with
    | some (expect, stack) => assemble expect stack rest
    | none => none

/-- Reads a JSON text. -/
def read? (t : Text) : Option Json := (tokens? t).bind (assemble .value [])

end MarkerBoard.Json
