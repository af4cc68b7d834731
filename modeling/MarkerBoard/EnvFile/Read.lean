import MarkerBoard.Keyed

/-!
# Environment files

An environment file binds names to values, one binding after another: `NAME=value`, with or
without `export` in front. A reader gives what it read and the text after it, or else the text
where it stopped. A value may be quoted, and a quoted value may span lines. Comments
start with a hash. A binding that is malformed is skipped to the end of the line where reading
it stopped.
-/
namespace MarkerBoard.EnvFile

/-- A name with its value, which is missing if nothing is assigned. -/
structure Binding where
  name : Text
  value : Option Text
deriving DecidableEq, Repr

/-- White space within a line. -/
def isSpace (c : Char) : Bool := Text.isBlank c && c != '\n' && c != '\r'

/-- A text from its first character that is no white space within a line. -/
def afterSpaces (t : Text) : Text := t.dropWhile isSpace

/-- A text from the end of its first line on. -/
def fromLineEnd (t : Text) : Text := t.dropWhile (· ≠ '\n')

/-- Skips the word `export` if white space follows it. -/
def afterExport (t : Text) : Text :=
  match Text.after? "export".toList t with
  | some (c :: r) => if isSpace c then afterSpaces r else t
  | _ => t

/-- The text up to a closing quote, with its escapes; a backslash protects the next character. -/
def untilQuote? (quote : Char) : Text → Option (Text × Text)
  | [] => none
  | '\\' :: c :: t => (untilQuote? quote t).map fun (body, rest) => ('\\' :: c :: body, rest)
  | c :: t =>
    if c = quote then some ([], t)
    else if c = '\\' then none
    else (untilQuote? quote t).map fun (body, rest) => (c :: body, rest)

/-- The characters that an escape stands for between single quotes. -/
def singleEscapes : List (Char × Char) := [('\\', '\\'), ('\'', '\'')]

/-- The characters that an escape stands for between double quotes. -/
def doubleEscapes : List (Char × Char) := [
  ('\\', '\\'), ('\'', '\''), ('"', '"'), ('a', '\x07'), ('b', '\x08'), ('f', '\x0c'),
  ('n', '\n'), ('r', '\r'), ('t', '\t'), ('v', '\x0b')]

/-- Replaces escapes; one that stands for nothing stays as it is. -/
def unescape (escapes : List (Char × Char)) : Text → Text
  | '\\' :: c :: t =>
    match escapes.lookup c with
    | some d => d :: unescape escapes t
    | none => '\\' :: c :: unescape escapes t
  | c :: t => c :: unescape escapes t
  | [] => []

/-- A text up to the first hash that follows white space. -/
def withoutComment : Text → Text
  | [] => []
  | c :: t =>
    if Text.isBlank c ∧ (Text.trimStart t).head? = some '#' then [] else c :: withoutComment t

/-- The name of a binding, missing if there is only a comment. -/
def readName (t : Text) : Except Text (Option Text × Text) :=
  match t with
  | '#' :: _ => .ok (none, t)
  | '\'' :: r =>
    match r.takeWhile (· ≠ '\''), r.dropWhile (· ≠ '\'') with
    | [], _ | _, [] => .error t
    | name, _ :: rest => .ok (some name, rest)
  | _ =>
    let isNameChar (c : Char) : Bool := c != '=' && c != '#' && !Text.isBlank c
    match t.takeWhile isNameChar with
    | [] => .error t
    | name => .ok (some name, t.dropWhile isNameChar)

/-- A value after its equals sign. A hash after white space starts a comment. -/
def readValue (t : Text) : Except Text (Text × Text) :=
  let v := afterSpaces t
  match v with
  | [] | '\n' :: _ => .ok ([], v)
  | '\'' :: r =>
    match untilQuote? '\'' r with
    | some (body, rest) => .ok (unescape singleEscapes body, rest)
    | none => .error v
  | '"' :: r =>
    match untilQuote? '"' r with
    | some (body, rest) => .ok (unescape doubleEscapes body, rest)
    | none => .error v
  | c :: _ =>
    if c = '#' ∧ v.length < t.length then .ok ([], v)
    else .ok (Text.trimEnd (withoutComment (v.takeWhile (· ≠ '\n'))), fromLineEnd v)

/-- The rest of a line after a binding: at most a comment. -/
def readLineEnd (t : Text) : Except Text Text :=
  match afterSpaces t with
  | [] => .ok []
  | '\n' :: rest => .ok rest
  | '#' :: rest => .ok ((fromLineEnd rest).drop 1)
  | _ => .error t

/-- One binding, or a comment. -/
def readBinding (t : Text) : Except Text (Option Binding × Text) := do
  let (name, t) ← readName (afterExport t)
  let (value, t) ← match afterSpaces t with
    | '=' :: r => do
      let (value, t) ← readValue r
      .ok (some value, t)
    | t => .ok (none, t)
  let rest ← readLineEnd t
  .ok (name.map fun name => ⟨name, value⟩, rest)

/-- The bindings of a text. Each one takes at least a character. -/
def bindings (t : Text) : List Binding :=
  match Text.trimStart t with
  | [] => []
  | c :: r =>
    let (found, rest) := match readBinding (c :: r) with
      | .ok (found, rest) => (found, rest)
      | .error rest => (none, (fromLineEnd rest).drop 1)
    if _h : rest.length < t.length then found.toList ++ bindings rest else found.toList
termination_by t.length

/-- A text whose lines all end in line feeds, without a byte-order mark. -/
def normalText (t : Text) : Text :=
  lineFeeds (match t with
    | '\ufeff' :: t => t
    | t => t)
where
  /-- A carriage return, with or without a line feed after it, as a line feed. -/
  lineFeeds : Text → Text
    | '\r' :: '\n' :: t => '\n' :: lineFeeds t
    | '\r' :: t => '\n' :: lineFeeds t
    | c :: t => c :: lineFeeds t
    | [] => []

/-! ## References -/

/-- A reference after its opening brace: a name, perhaps with a default, and what follows. -/
def reference? (t : Text) : Option (Text × Option Text × Text) :=
  let isNameChar (c : Char) : Bool := c != '}' && c != ':'
  let name := t.takeWhile isNameChar
  match t.dropWhile isNameChar with
  | '}' :: rest => some (name, none, rest)
  | ':' :: '-' :: t =>
    match t.dropWhile (· ≠ '}') with
    | _ :: rest => some (name, some (t.takeWhile (· ≠ '}')), rest)
    | [] => none
  | _ => none

/-- A value with its references replaced. A name that is bound to nothing counts as empty. -/
def expand (lookup : Text → Option (Option Text)) (t : Text) : Text :=
  match t with
  | [] => []
  | c :: t =>
    match (if c = '$' then Text.after? ['{'] t else none).bind reference? with
    | some (name, byDefault, rest) =>
      let value := match lookup name with
        | some value => value.getD []
        | none => byDefault.getD []
      if _h : rest.length < t.length + 1 then value ++ expand lookup rest else value
    | none => c :: expand lookup t
termination_by t.length

/-- The values of bindings, in order, each one seeing those before it and then the
environment. -/
def resolve (env : Keyed Text) (bs : List Binding) : Keyed (Option Text) :=
  bs.foldl (fun known b =>
    let lookup (name : Text) : Option (Option Text) :=
      (Keyed.get? name known).orElse fun _ => (Keyed.get? name env).map some
    Keyed.put b.name (b.value.map (expand lookup)) known) []

/-- The names that a file binds, with their values; names without a value are left out. -/
def values (env : Keyed Text) (t : Text) : Keyed Text :=
  (resolve env (bindings (normalText t))).filterMap fun e => e.2.map (e.1, ·)

end MarkerBoard.EnvFile
