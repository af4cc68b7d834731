import MarkerBoard.Block.Edit
import MarkerBoard.Board.Override
import MarkerBoard.Disk.Basic
import MarkerBoard.Text.Utf8

/-!
# Failures

Everything that can keep a request from being answered, each with what a user needs to know, and
the wording in one place.
-/
namespace MarkerBoard

/-- Why a file could not be read as a text, or not be written. -/
inductive FileFault
  | disk (f : Disk.Fault)
  | encoding (f : Utf8.Fault)
deriving DecidableEq, Repr

namespace FileFault

/-- The wording of a fault. -/
def message : FileFault → Text
  | disk f => f.message
  | encoding f => f.message

end FileFault

/-- Why a request failed. -/
inductive Failure
  /-- The board has no column with the identifier. -/
  | unknownColumn (id : Text)
  /-- The last scan has no item with the number. -/
  | unknownItem (id : Int)
  /-- The file of an item cannot be read. -/
  | unreadable (path : Path) (fault : FileFault)
  /-- The line of an item does not hold its marker. -/
  | staleLine (path : Text) (line : Int) (count : Nat) (fault : LineFault)
  /-- The file of an item cannot be written. -/
  | unwritable (path : Path) (fault : Disk.Fault)
  /-- The history cannot be written. -/
  | historyUnwritable (path : Path) (fault : Disk.Fault)
  /-- A comparison needs more snapshots. -/
  | tooFewSnapshots (available : Nat)
  /-- A file of the board itself is no text. -/
  | undecodable (fault : Utf8.Fault)
  /-- The exclusions cannot be extended. -/
  | badExclusions (fault : OverrideFault)
  /-- Settings do not have the shape of settings. -/
  | badSettings (issues : List Issue)
  /-- An ignore pattern is malformed. -/
  | badPattern (pattern : Text)
  /-- There is no priority with the name. -/
  | unknownPriority (name : Text)
  /-- A name cannot be set in the environment. -/
  | badVariableName
  /-- A name or value with a null character cannot be set in the environment. -/
  | nullInVariable
  /-- A number of days is greater than a span of time can be. -/
  | spanTooLong (days : Int)
  /-- A date lies outside the calendar. -/
  | dateOutOfRange
  /-- A tag in a text for the terminal closes nothing. -/
  | unmatchedTag (inside : Text)
deriving DecidableEq, Repr

/-- The least number of snapshots that can be compared. -/
def comparableSnapshots : Nat := 2

/-- The greatest number of days in a span of time. -/
def longestSpan : Nat := 999999999

namespace LineFault

/-- What is wrong with a line, beyond its number. -/
def reason : LineFault → Text
  | outside => []
  | markerMoved => ": marker moved".toList
  | otherItem => ": different item at this line".toList

end LineFault

namespace OverrideFault

/-- The wording of a fault. -/
def message : OverrideFault → Text
  | notIterable kind => '\'' :: kind ++ "' object is not iterable".toList
  | notPair index => "cannot convert dictionary update sequence element #".toList ++
      Text.ofNat index ++ " to a sequence".toList
  | pairLength index length => "dictionary update sequence element #".toList ++
      Text.ofNat index ++ " has length ".toList ++ Text.ofNat length ++ "; 2 is required".toList
  | notKey kind => "unhashable type: '".toList ++ kind ++ ['\'']

end OverrideFault

namespace Failure

/-- The wording of a failure. -/
def message : Failure → Text
  | unknownColumn id => "kanban column with ID '".toList ++ id ++ "' not found".toList
  | unknownItem id => "item ".toList ++ Text.ofInt id ++ " not found; rescan and retry".toList
  | unreadable path f => "failed to read file ".toList ++ path.toText ++ ": ".toList ++ f.message
  | staleLine path line count f => "invalid line number ".toList ++ Text.ofInt line ++
      " in ".toList ++ path ++ " (file has ".toList ++ Text.ofNat count ++ " lines)".toList ++
      f.reason
  | unwritable path f => "failed to write file ".toList ++ path.toText ++ ": ".toList ++ f.message
  | historyUnwritable path f => "failed to write history file ".toList ++ path.toText ++
      ": ".toList ++ f.message
  | tooFewSnapshots available => "not enough history for comparison (".toList ++
      Text.ofNat available ++ " snapshot(s), need ".toList ++ Text.ofNat comparableSnapshots ++
      ")".toList
  | undecodable f => f.message
  | badExclusions f => f.message
  | badSettings _ => "invalid settings".toList
  | badPattern pattern => "Invalid git pattern: ".toList ++ Text.quoted pattern
  | unknownPriority name => Text.quoted name ++ " is not a valid ItemPriority".toList
  | badVariableName => "illegal environment variable name".toList
  | nullInVariable => "embedded null byte".toList
  | spanTooLong days => "days=".toList ++ Text.ofInt days ++ "; must have magnitude <= ".toList ++
      Text.ofNat longestSpan
  | dateOutOfRange => "date value out of range".toList
  | unmatchedTag inside =>
    "closing tag '[".toList ++ inside ++ "]' doesn't match any open tag".toList

end Failure
end MarkerBoard
