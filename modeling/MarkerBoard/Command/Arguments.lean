import MarkerBoard.Moment.Timestamp
import MarkerBoard.Text.Digit

/-!
# Arguments

The arguments of a command are options and words. An option has a long name, which may be
followed by an equals sign and a value, and perhaps a short one; short ones can be put together
behind one dash. Two dashes alone end the options.
-/
namespace MarkerBoard.Command

/-- An option that a command knows. -/
structure OptionRule where
  /-- The name behind two dashes. -/
  long : String
  /-- The letter behind one dash. -/
  short : Option Char
  /-- A value follows the option. -/
  hasValue : Bool

/-- An option that was given, by its long name. -/
structure Given where
  long : String
  /-- Empty for an option without a value. -/
  value : Text

/-- The arguments of a command, taken apart. -/
structure Arguments where
  /-- The options in the order in which they were given. -/
  given : List Given
  words : List Text

namespace Arguments

/-- No arguments but some words. -/
def ofWords (words : List Text) : Arguments := ⟨[], words⟩

/-- The value of an option; the last one counts. -/
def value? (a : Arguments) (long : String) : Option Text :=
  (a.given.reverse.find? (·.long = long)).map Given.value

/-- The option was given. -/
def has (a : Arguments) (long : String) : Bool := (a.value? long).isSome

/-- The option that was given last, of two that undo each other. -/
def last? (a : Arguments) (one other : String) : Option String :=
  (a.given.reverse.find? fun g => g.long = one || g.long = other).map Given.long

end Arguments

/-- An option whose value is the next argument. -/
def takeValue (r : OptionRule) : List Text → Option (List Given × List Text)
  | [] => none
  | value :: rest => some ([⟨r.long, value⟩], rest)

/-- Reads an option by its long name, perhaps with a value behind an equals sign. -/
def readLong (rules : List OptionRule) (arg : Text) (rest : List Text) :
    Option (List Given × List Text) :=
  let name := arg.takeWhile (· ≠ '=')
  match rules.find? (·.long.toList = name), arg.drop name.length with
  | none, _ => none
  | some r, [] => if r.hasValue then takeValue r rest else some ([⟨r.long, []⟩], rest)
  | some r, _ :: value => if r.hasValue then some ([⟨r.long, value⟩], rest) else none

/-- Reads options by their letters. What follows the letter of an option with a value is the
value. -/
def readShort (rules : List OptionRule) (rest : List Text) :
    Text → Option (List Given × List Text)
  | [] => some ([], rest)
  | c :: cs =>
    match rules.find? (·.short = some c) with
    | none => none
    | some r =>
      if r.hasValue then
        if cs = [] then takeValue r rest else some ([⟨r.long, cs⟩], rest)
      else (readShort rules rest cs).map fun (given, rest) => (⟨r.long, []⟩ :: given, rest)

/-- Takes arguments apart, unless an option among them is unknown or lacks its value. Options may
stand behind words if `mixed` is set. -/
def readArguments (rules : List OptionRule) (mixed : Bool) (args : List Text) : Option Arguments :=
  match args with
  | [] => some (.ofWords [])
  | ['-', '-'] :: rest => some (.ofWords rest)
  | ('-' :: c :: cs) :: rest =>
    match if c = '-' then readLong rules cs rest else readShort rules rest (c :: cs) with
    | none => none
    | some (given, next) =>
      if _h : next.length ≤ rest.length then
        (readArguments rules mixed next).map fun a => { a with given := given ++ a.given }
      else none
  | word :: rest =>
    if mixed then
      (readArguments rules mixed rest).map fun a => { a with words := word :: a.words }
    else some (.ofWords (word :: rest))
termination_by args.length

/-- Reads an integer: digits of any script with single underscores between them, perhaps behind a
sign, and white space around all that. -/
def integer? (t : Text) : Option Int :=
  let (negative, t) := Moment.sign (Text.trim t)
  let groups := Text.splitAtEach '_' t
  if groups.all (· ≠ []) then
    (groups.flatten.mapM Text.digit?).map fun ds =>
      if negative then -(Text.natOfDigits ds : Int) else Text.natOfDigits ds
  else none

end MarkerBoard.Command
