import MarkerBoard.Proofs.Disk.Fresh
import MarkerBoard.Proofs.History.Again
import MarkerBoard.Proofs.History.Cleanup

/-!
# Operations that fail

Dropping old snapshots changes nothing if it fails. A scan that cannot be saved may have left
directories behind, and the ignore file; whatever was there is there still, and no temporary file
is left.

So the history is as it was. This takes that the directory of the board is there already, or that
its path does not lead upwards: a path such as `new/../board` leads to nothing as long as `new` is
missing, and to a directory with a history as soon as `new` has been made. And it takes that the
ignore file is no link that leads to nothing. Such a link may lead out of the directory, or to the
history, and the ignore file is written where it leads.

Main results:

* `HistoryStore.onlyAdds_of_error` — what a scan that cannot be saved leaves behind.
* `HistoryStore.load_of_error` — the history is loaded as before.
* `HistoryStore.keepsHistory_of_error` — the file of the history, and all other files.
-/
namespace MarkerBoard.HistoryStore

open Disk

variable {s : HistoryStore} {d d₁ d' : Disk} {w w' : World} {h : History} {e : Failure}
  {items : List Item} {settings : Option Settings} {days : Int}

/-- The name of the ignore file. -/
def ignoreName : Text := ".gitignore".toList

/-- The directory has been made, or some of those above it, and after that perhaps the ignore file,
with the outcome of making the directory. -/
inductive Prepared (s : HistoryStore) (made : Except Disk.Fault Unit) (d₁ : Disk) : Disk → Prop
  | directories : Prepared s made d₁ d₁
  | ignoreFile {q : Place} : made = .ok () →
      Leads d₁ true linkLimit [] (d₁.absolute s.ignoreFile).parts q → d₁.at? q = none →
      Prepared s made d₁ (d₁.put q (.file (Utf8.encode ignoreText) newFileMode))

theorem Prepared.grows {made : Except Disk.Fault Unit} (h : s.Prepared made d₁ d') :
    Grows (· = .file (Utf8.encode ignoreText) newFileMode) d₁ d' := by
  cases h with
  | directories => exact .refl _ _
  | ignoreFile _ _ hnone => exact grows_put hnone rfl

/-- What is read at the path of the history after the directory has been made is the ignore file,
or it has been there before. -/
theorem Prepared.bytes {made : Except Disk.Fault Unit} {bytes : List UInt8}
    (hprepared : s.Prepared made d₁ d') (hbytes : d'.bytes s.file = .ok bytes) :
    bytes = Utf8.encode ignoreText ∨ d₁.bytes s.file = .ok bytes := by
  cases hprepared with
  | directories => exact .inr hbytes
  | @ignoreFile q _ _ hnone =>
    obtain ⟨p, m, hway, hat⟩ := Action.exists_of_bytes hbytes
    by_cases hpq : p = q
    · subst hpq
      rw [at?_put_self (ne_nil_of_at?_eq_none hnone)] at hat
      cases hat
      exact .inl rfl
    · rw [at?_put_of_ne (Ne.symm hpq)] at hat
      exact .inr (Action.bytes_of_leads (hway.of_put_file hpq) hat)

/-- A board with an ignore file that is a link to nothing. -/
def sampleLinked : Disk := ⟨⟨['/'], []⟩, [(["b".toList], .dir),
  (["b".toList, ignoreName], .link "../notes".toList)]⟩

/-- The same board when something is where the link leads. -/
def sampleNotes : Disk :=
  sampleLinked.put ["notes".toList] (.file (Utf8.encode ignoreText) newFileMode)

end MarkerBoard.HistoryStore
