import MarkerBoard.Json.Basic

/-!
# Exclusions from the environment

Two variables add directories and files to the exclusions of the settings. They are added before
the settings are checked, so the exclusions may still be of any shape: a list of pairs counts as
an object, a text as the list of its characters, an object as the list of its keys. A shape that
cannot be read in this way is a fault.
-/
namespace MarkerBoard

/-- Why exclusions could not be extended. -/
inductive OverrideFault
  /-- A value of some kind has no elements. -/
  | notIterable (kind : Text)
  /-- An element of a list of pairs has no elements itself. -/
  | notPair (index : Nat)
  /-- An element of a list of pairs has another length. -/
  | pairLength (index length : Nat)
  /-- A value of some kind cannot be a key. -/
  | notKey (kind : Text)
deriving DecidableEq, Repr

namespace Json

/-- The name of a value's kind in messages. -/
def kindName : Json → Text
  | .null => "NoneType".toList
  | .bool _ => "bool".toList
  | .int _ => "int".toList
  | .float _ => "float".toList
  | .str _ => "str".toList
  | .arr _ => "list".toList
  | .obj _ => "dict".toList

/-- Null, false, zero, and the empty text, array and object. -/
def isEmptyish : Json → Bool
  | .null => true
  | .bool b => !b
  | .int n => n == 0
  | .float x => x.toInt? == some 0
  | .str t => t.isEmpty
  | .arr vs => vs.isEmpty
  | .obj fields => fields.isEmpty

/-- The elements of an array, the characters of a text or the keys of an object. -/
def elements? : Json → Option (List Json)
  | .arr vs => some vs
  | .str t => some (t.map fun c => .str [c])
  | .obj fields => some (fields.map fun e => .str e.1)
  | _ => none

/-- The elements of a value, which has to have some. -/
def elements (v : Json) : Except OverrideFault (List Json) :=
  match v.elements? with
  | some vs => .ok vs
  | none => .error (.notIterable v.kindName)

/-- The key that a value makes. -/
def asKey : Json → Except OverrideFault Text
  | .str t => .ok t
  | .int n => .ok (Text.ofInt n)
  | .float x => .ok x.toText
  | .bool b => .ok (if b then "true" else "false").toList
  | .null => .ok "null".toList
  | v => .error (.notKey v.kindName)

/-- The fields given by pairs, counted from an index on. -/
def fieldsOfPairs (index : Nat) (fields : Keyed Json) :
    List Json → Except OverrideFault (Keyed Json)
  | [] => .ok fields
  | v :: vs =>
    match v.elements? with
    | none => .error (.notPair index)
    | some [k, value] => do
      fieldsOfPairs (index + 1) (Keyed.put (← asKey k) value fields) vs
    | some parts => .error (.pairLength index parts.length)

/-- The fields of an object, or of a list of pairs. -/
def asFields : Json → Except OverrideFault (Keyed Json)
  | .obj fields => .ok fields
  | v => do fieldsOfPairs 0 [] (← v.elements)

end Json

namespace Settings

/-- The variable that names more directories. -/
def directoriesVariable : Text := "KODO_EXCLUDE_DIRECTORIES".toList

/-- The variable that names more files. -/
def filesVariable : Text := "KODO_EXCLUDE_FILES".toList

/-- The parts of a text between commas, trimmed, without empty ones. -/
def commaList (t : Text) : List Text :=
  ((Text.splitAtEach ',' t).map Text.trim).filter (· ≠ [])

/-- The value of a variable that is set and not empty. -/
def valueOf? (env : Keyed Text) (name : Text) : Option Text :=
  (Keyed.get? name env).filter (· ≠ [])

/-- Adds the names of a variable to the list under a key. -/
def extendList (env : Keyed Text) (variableName key : Text) (scan : Keyed Json) :
    Except OverrideFault (Keyed Json) :=
  match valueOf? env variableName with
  | none => .ok scan
  | some value => do
    let old ← ((Keyed.get? key scan).getD (.arr [])).elements
    .ok (Keyed.put key (.arr (old ++ (commaList value).map .str)) scan)

/-- Settings with the exclusions of the environment added. -/
def override (env : Keyed Text) (fields : Keyed Json) : Except OverrideFault (Keyed Json) := do
  let given := (Keyed.get? "code_scan_settings".toList fields).getD .null
  let scan ← if given.isEmptyish then .ok [] else given.asFields
  let scan ← extendList env directoriesVariable "exclude_directories".toList scan
  let scan ← extendList env filesVariable "exclude_files".toList scan
  .ok (Keyed.put "code_scan_settings".toList (.obj scan) fields)

end Settings
end MarkerBoard
