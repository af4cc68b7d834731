import MarkerBoard.Proofs.Disk.Tree
import MarkerBoard.Proofs.History.Read
import MarkerBoard.Proofs.History.Run

/-!
# Operations on a history of any origin

The file of a store may hold anything. If it can be read as a text, a scan that is saved puts a
history in its place, with what can be kept of the old one. Text that is no history counts as none.
Bytes that are no text do not: then neither loading nor saving gives a result.

How deep the values in the text are nested and how many digits its integers have makes no
difference, since the reader of this library has no limits of its own.

Main results:

* `HistoryStore.load_of_decode`, `HistoryStore.load_of_undecodable` — what is loaded.
* `HistoryStore.save_of_decode` — what saving a scan leaves in the file.
* `HistoryStore.tolerates_iff` — which contents of the file do no harm.
-/
namespace MarkerBoard.HistoryStore

open Disk

variable {s : HistoryStore} {d d' : Disk} {w w' : World} {bytes : List UInt8} {t : Text}
  {h : History}

/-! ## Loading -/

/-- The file holds the text of a history. -/
def Holds (s : HistoryStore) (d : Disk) (h : History) : Prop :=
  ∃ bytes t, d.bytes s.file = .ok bytes ∧ Utf8.decode bytes = .ok t ∧ History.ofText? t = some h

/-- The history in a text is loaded; without one, the log tells. -/
theorem load_of_decode (hbytes : w.disk.bytes s.file = .ok bytes)
    (htext : Utf8.decode bytes = .ok t) :
    s.load w = match History.ofText? t with
      | some h => (.ok (some h), w)
      | none => (.ok none, { w with log := w.log ++ [.error] }) := by
  have hread : Action.readText s.file w = (.ok (.ok t), w) := by
    rw [Action.readText, Steps.bind_of_ok Steps.get_apply]
    simp only [hbytes, htext]
    rfl
  rw [load, Steps.bind_of_ok hread]
  dsimp only
  cases History.ofText? t <;> rfl

theorem exists_load_of_decode (hbytes : w.disk.bytes s.file = .ok bytes)
    (htext : Utf8.decode bytes = .ok t) :
    ∃ notes, s.load w = (.ok (History.ofText? t), { w with log := notes }) := by
  rw [load_of_decode hbytes htext]
  cases History.ofText? t with
  | none => exact ⟨_, rfl⟩
  | some h => exact ⟨w.log, rfl⟩

/-- Bytes that are no text are not taken for no history: nothing is loaded at all. -/
theorem load_of_undecodable {f : Utf8.Fault} (hbytes : w.disk.bytes s.file = .ok bytes)
    (hfault : Utf8.decode bytes = .error f) : s.load w = (.error (.undecodable f), w) := by
  have hread : Action.readText s.file w = (.ok (.error (.encoding f)), w) := by
    rw [Action.readText, Steps.bind_of_ok Steps.get_apply]
    simp only [hbytes, hfault]
    rfl
  rw [load, Steps.bind_of_ok hread]
  rfl

theorem load_of_holds (hs : s.Holds w.disk h) : s.load w = (.ok (some h), w) := by
  obtain ⟨bytes, t, hbytes, htext, hread⟩ := hs
  rw [load_of_decode hbytes htext, hread]

/-- A history that is loaded is in the file. -/
theorem holds_of_load (hload : s.load w = (.ok (some h), w')) : s.Holds w.disk h := by
  -- a file that is not there or is no text gives no history
  cases hbytes : w.disk.bytes s.file with
  | error f =>
    rw [load, Steps.bind_of_ok (Action.readText_of_error hbytes)] at hload
    rcases f with ⟨kind, path⟩ | _ | _
    · cases kind <;> cases hload
    · cases hload
    · cases hload
  | ok bytes =>
    cases htext : Utf8.decode bytes with
    | error f => cases (load_of_undecodable hbytes htext).symm.trans hload
    | ok t =>
      rw [load_of_decode hbytes htext] at hload
      split at hload
      · next hread =>
        cases hload
        exact ⟨bytes, t, hbytes, htext, hread⟩
      · cases hload

/-! ## Writing -/

/-- A history that is written in the place of a file is in that file, with null for the numbers
that are not finite. -/
theorem holds_of_replaced {keepMode : Bool} (hd : w.disk.IsTree)
    (hbytes : w.disk.bytes s.file = .ok bytes) (hx : h.finite.IsExact)
    (hrep : Action.replaced w s.file keepMode (Utf8.encode h.toText) = .ok d') :
    d'.IsTree ∧ s.Holds d' h.finite :=
  ⟨hd.replaced hbytes hrep, Utf8.encode h.toText, h.toText, Action.bytes_replaced hd hbytes hrep,
    Utf8.decode_encode _, History.ofText?_toText_finite hx⟩

/-- Making the directory leaves the disk a tree. -/
theorem isTree_of_initialise (hd : w.disk.IsTree) (hinit : s.initialise w = (.ok (), w')) :
    w'.disk.IsTree := by
  rcases s.initialise_cases w with ⟨f, _, hf, -⟩ | ⟨log, d₁, d₂, hok, hmake, hrest⟩
  · cases hf.symm.trans hinit
  · cases hok.symm.trans hinit
    have hd₁ := hd.makePath hmake
    rcases hrest with rfl | ⟨-, hwrite⟩
    · exact hd₁
    · exact hd₁.write hwrite

/-- A file that is there is kept when the directory is made. -/
theorem keeps_of_initialise (hd : w.disk.IsTree) (hbytes : w.disk.bytes s.file = .ok bytes)
    (hinit : s.initialise w = (.ok (), w')) :
    w'.disk.IsTree ∧ w'.disk.bytes s.file = .ok bytes := by
  obtain ⟨-, -, hgrows, -⟩ := exists_of_initialise hinit
  exact ⟨isTree_of_initialise hd hinit, hgrows.bytes not_isAdded_link hbytes⟩

/-! ## Saving -/

/-- A scan is saved over any text, or something cannot be written. Then the file holds the history
that has been saved, of the old one the snapshots and the time of the first scan. -/
theorem save_of_decode (hd : w.disk.IsTree) (hbytes : w.disk.bytes s.file = .ok bytes)
    (htext : Utf8.decode bytes = .ok t) (items : List Item) (settings : Option Settings) :
    (∃ path f w', s.save items settings w = (.error (.historyUnwritable path f), w')) ∨
    ∃ w', s.save items settings w =
        (.ok (.record (History.ofText? t) (s.scanned w items settings)), w') ∧
      w'.disk.IsTree ∧
      s.Holds w'.disk (.record (History.ofText? t) (s.scanned w items settings)) := by
  rcases hinit : s.initialise w with ⟨r, w₁⟩
  cases r with
  | error f =>
    -- the directory cannot be made
    rcases s.initialise_cases w with ⟨f', d, hf, -⟩ | ⟨_, _, _, hok, -⟩
    · cases hf.symm.trans hinit
      refine .inl ⟨s.dir, f', { w with disk := d }, ?_⟩
      rw [save, Steps.bind_of_error hinit]
    · cases hok.symm.trans hinit
  | ok _ =>
    obtain ⟨hd₁, hbytes₁⟩ := keeps_of_initialise hd hbytes hinit
    obtain ⟨log, hw₁, -, -⟩ := exists_of_initialise hinit
    have hscanned : s.scanned w₁ items settings = s.scanned w items settings := by
      rw [hw₁]
      rfl
    -- the text is loaded as a history or as none
    obtain ⟨notes, hload⟩ := exists_load_of_decode hbytes₁ htext
    have hx : (History.record (History.ofText? t) (s.scanned w₁ items settings)).finite.IsExact :=
      History.isExact_record (fun g hg => (History.isExact_of_ofText? hg).snapshots) _
    cases hrep : Action.replaced { w₁ with log := notes } s.file false (Utf8.encode
        (History.record (History.ofText? t) (s.scanned w₁ items settings)).toText) with
    | error f =>
      -- the file cannot be written
      exact .inl ⟨s.file, f, _, save_of_error hinit hload hrep⟩
    | ok d' =>
      have hsave := save_of_ok hinit hload hrep
      obtain ⟨hd', hholds⟩ :=
        holds_of_replaced (w := { w₁ with log := notes }) hd₁ hbytes₁ hx hrep
      rw [hscanned] at hsave hholds
      -- a history that records a scan has no extra fields
      exact .inr ⟨_, hsave, hd', hholds⟩

/-! ## Harmless contents -/

/-- Loading tells whether there is a history. A scan that is saved afterwards, in whatever
surroundings, is recorded in the file with all its items, or something cannot be written. -/
def Tolerates (s : HistoryStore) (w : World) : Prop :=
  ∃ old w', s.load w = (.ok old, w') ∧
    ∀ (o : Surroundings) (items : List Item) (settings : Option Settings),
      (∃ path f w'', s.save items settings (w'.within o) =
        (.error (.historyUnwritable path f), w'')) ∨
      ∃ h w'', s.save items settings (w'.within o) = (.ok h, w'') ∧
        ∃ g, s.load w'' = (.ok (some g), w'') ∧ g.total = items.length

/-- The contents of the file do no harm if and only if they are a text. -/
theorem tolerates_iff (hd : w.disk.IsTree) (hbytes : w.disk.bytes s.file = .ok bytes) :
    s.Tolerates w ↔ ∃ t, Utf8.decode bytes = .ok t := by
  constructor
  · rintro ⟨old, w', hload, -⟩
    cases htext : Utf8.decode bytes with
    | error f => cases (load_of_undecodable hbytes htext).symm.trans hload
    | ok t => exact ⟨t, rfl⟩
  · rintro ⟨t, htext⟩
    obtain ⟨notes, hload⟩ := exists_load_of_decode hbytes htext
    refine ⟨_, _, hload, fun o items settings => ?_⟩
    rcases save_of_decode (w := World.within { w with log := notes } o) hd hbytes htext items
      settings with hfault | ⟨w'', hsave, -, hholds⟩
    · exact .inl hfault
    · exact .inr ⟨_, w'', hsave, _, load_of_holds hholds, rfl⟩

theorem isTree_sampleDisk (history : Option (List UInt8)) : (sampleDisk history).IsTree := by
  refine isTree_of_forall ?_
  cases history with
  | none => decide
  | some bytes =>
    simp only [sampleDisk, Option.map_some, Option.toList_some, List.cons_append, List.nil_append,
      List.forall_mem_cons, List.not_mem_nil, false_imp_iff, implies_true, and_true]
    exact ⟨rfl, rfl, rfl⟩

theorem bytes_sampleDisk (bytes : List UInt8) :
    (sampleDisk (some bytes)).bytes sampleStore.file = .ok bytes := by
  cbv

/-- In the sample world, a history is loaded from its text. -/
theorem load_sampleWorld (hx : h.IsExact) :
    sampleStore.load (sampleWorld (some (Utf8.encode h.toText))) =
      (.ok (some h), sampleWorld (some (Utf8.encode h.toText))) :=
  load_of_holds
    ⟨_, h.toText, bytes_sampleDisk _, Utf8.decode_encode _, History.ofText?_toText hx⟩

/-- An array that is not closed does no harm. -/
theorem tolerates_iff_sampleWorld :
    (sampleWorld (some [0x5b])).disk.IsTree ∧
      (sampleWorld (some [0x5b])).disk.bytes sampleStore.file = .ok [0x5b] ∧
      sampleStore.Tolerates (sampleWorld (some [0x5b])) := by
  have htext : Utf8.decode [0x5b] = .ok ['['] := by decide
  exact ⟨isTree_sampleDisk _, bytes_sampleDisk _,
    (tolerates_iff (isTree_sampleDisk _) (bytes_sampleDisk _)).2 ⟨_, htext⟩⟩

/-- A byte that no text has makes loading fail. -/
theorem not_tolerates_sampleWorld : ¬ sampleStore.Tolerates (sampleWorld (some [0xff])) := by
  rintro ⟨old, w', hload, -⟩
  have hfault : Utf8.decode [0xff] = .error ⟨0, [0xff], .start⟩ := by decide
  cases (load_of_undecodable (bytes_sampleDisk _) hfault).symm.trans hload

end MarkerBoard.HistoryStore
