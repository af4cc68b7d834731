import MarkerBoard.Proofs.History.Counts
import MarkerBoard.Proofs.Session.Coherent

/-!
# Columns with other identifiers

When the columns of a board get other identifiers, the statuses of all items take the identifier
that is at the same position. This happens at once: a status that has been renamed is not renamed
again, so columns may also change their identifiers round. With the same number of columns nothing
is lost, and the way back is the same change with the boards exchanged.

Main results:

* `Renaming.isPositional_between` — what a status is renamed to.
* `Item.Fits.renamed` — an item whose statuses and done mark fit the old board fits the new one.
* `Session.carryOver_positional` — the items after a change of the columns, and after the way back.
* `Session.isDone_carryOver_iff` — when the done marks agree with the new board.
-/
namespace MarkerBoard

/-! ## Renaming by position -/

namespace Renaming

variable {old new : Settings} {rename back : Text → Text} {a b status done done' : Text}

/-- An identifier of an old column becomes that of the new column at its position. What is not
the identifier of an old column with a new one at its position stays as it is. -/
structure IsPositional (old new : Settings) (rename : Text → Text) : Prop where
  renamed : ∀ (n : Nat) (a b : Text), old.columnIds[n]? = some a → new.columnIds[n]? = some b →
    rename a = b
  kept : ∀ status : Text, (∀ (n : Nat) (a b : Text), old.columnIds[n]? = some a →
    new.columnIds[n]? = some b → a ≠ status) → rename status = status

theorem nodup_keys_zip {l l' : List Text} (h : l.Nodup) : (Keyed.keys (l.zip l')).Nodup := by
  rw [Keyed.keys, List.zip_eq_zip_take_min, List.map_fst_zip (by simp)]
  exact h.sublist (List.take_sublist ..)

theorem mem_zip_iff {l l' : List Text} :
    (a, b) ∈ l.zip l' ↔ ∃ n : Nat, l[n]? = some a ∧ l'[n]? = some b := by
  simp only [List.mem_iff_getElem?, List.getElem?_zip_eq_some]

theorem apply_of_isEmpty {names : Renaming} (h : names.isEmpty) (status : Text) :
    names.apply status = status := by
  rw [List.isEmpty_iff.1 h]
  rfl

/-- Different identifiers are each looked up where they stand. -/
theorem get?_between (hold : old.columnIds.Nodup) : Keyed.get? a (between old new) = some b ↔
    a ≠ b ∧ ∃ n : Nat, old.columnIds[n]? = some a ∧ new.columnIds[n]? = some b := by
  have hnodup : (Keyed.keys ((old.columnIds.zip new.columnIds).filter fun e => e.1 ≠ e.2)).Nodup :=
    (nodup_keys_zip hold).sublist (List.filter_sublist.map Prod.fst)
  show Keyed.get? a (Keyed.ofList ((old.columnIds.zip new.columnIds).filter _)) = _ ↔ _
  rw [Keyed.ofList_eq_self hnodup, Keyed.get?_eq_some_iff hnodup, List.mem_filter, mem_zip_iff,
    and_comm, decide_eq_true_iff]

/-- Nothing is renamed if no position has two identifiers. -/
theorem isEmpty_between_iff : (between old new).isEmpty = true ↔
    ∀ (n : Nat) (a b : Text), old.columnIds[n]? = some a → new.columnIds[n]? = some b → a = b := by
  show (Keyed.ofList ((old.columnIds.zip new.columnIds).filter _)).isEmpty = true ↔ _
  rw [List.isEmpty_iff, Keyed.ofList_eq_nil_iff, List.filter_eq_nil_iff]
  constructor
  · intro h n a b ha hb
    simpa using h (a, b) (mem_zip_iff.2 ⟨n, ha, hb⟩)
  · rintro h ⟨a, b⟩ hmem
    obtain ⟨n, ha, hb⟩ := mem_zip_iff.1 hmem
    simpa using h n a b ha hb

theorem isPositional_between (hold : old.columnIds.Nodup) :
    IsPositional old new (between old new).apply := by
  constructor
  · intro n a b ha hb
    rw [apply]
    -- an identifier that stays the same is not looked up, and stands at no other position
    cases hget : Keyed.get? a (between old new) with
    | none =>
      by_contra hne
      have := (get?_between hold).2 ⟨hne, n, ha, hb⟩
      cases hget.symm.trans this
    | some b' =>
      obtain ⟨-, n', ha', hb'⟩ := (get?_between hold).1 hget
      obtain ⟨hlt, -⟩ := List.getElem?_eq_some_iff.1 ha
      obtain rfl := (List.getElem?_inj hlt hold).1 (ha.trans ha'.symm)
      exact Option.some.inj (hb'.symm.trans hb)
  · intro status hother
    rw [apply]
    cases hget : Keyed.get? status (between old new) with
    | none => rfl
    | some b =>
      obtain ⟨-, n, ha, hb⟩ := (get?_between hold).1 hget
      exact absurd rfl (hother n status b ha hb)

/-! ### Boards with the same number of columns -/

section SameLength

variable (h : IsPositional old new rename) (hlen : old.columns.length = new.columns.length)
include h hlen

theorem IsPositional.exists_getElem? (hs : status ∈ old.columnIds) :
    ∃ n : Nat, old.columnIds[n]? = some status ∧ new.columnIds[n]? = some (rename status) := by
  obtain ⟨n, hn⟩ := List.mem_iff_getElem?.1 hs
  obtain ⟨hlt, -⟩ := List.getElem?_eq_some_iff.1 hn
  have hlt' : n < new.columnIds.length := by
    simpa [Settings.columnIds, hlen] using hlt
  have hb := List.getElem?_eq_getElem hlt'
  exact ⟨n, hn, by rw [h.renamed n _ _ hn hb, hb]⟩

theorem IsPositional.mem_columnIds (hs : status ∈ old.columnIds) :
    rename status ∈ new.columnIds := by
  obtain ⟨n, -, hn⟩ := h.exists_getElem? hlen hs
  exact List.mem_of_getElem? hn

/-- The way back. -/
theorem IsPositional.back_rename (hback : IsPositional new old back) (hs : status ∈ old.columnIds) :
    back (rename status) = status := by
  obtain ⟨n, hn, hn'⟩ := h.exists_getElem? hlen hs
  exact hback.renamed n _ _ hn' hn

/-- The last column takes the place of the last one, and no other does. -/
theorem IsPositional.rename_eq_done_iff (hnew : new.columnIds.Nodup)
    (hdone : old.doneId? = some done) (hdone' : new.doneId? = some done')
    (hs : status ∈ old.columnIds) : rename status = done' ↔ status = done := by
  have hlast : ∀ {s : Settings} {d : Text}, s.doneId? = some d →
      s.columnIds[s.columns.length - 1]? = some d := by
    intro s d hd
    rw [← hd, Settings.doneId?, Settings.doneColumn?, Settings.columnIds, ← List.getLast?_map,
      List.getLast?_eq_getElem?, List.length_map]
  have hold := hlast hdone
  have hrename := h.renamed _ _ _ hold (hlen ▸ hlast hdone')
  constructor
  · intro heq
    obtain ⟨n, hn, hn'⟩ := h.exists_getElem? hlen hs
    obtain ⟨hlt, -⟩ := List.getElem?_eq_some_iff.1 hn'
    rw [heq, ← hlast hdone'] at hn'
    rw [(List.getElem?_inj hlt hnew).1 hn', ← hlen, hold] at hn
    exact (Option.some.inj hn).symm
  · rintro rfl
    exact hrename

end SameLength

end Renaming

/-! ## Items -/

namespace Item

variable {i : Item} {s old new : Settings} {done done' : Text} {rename back : Text → Text}

/-- An item with its statuses renamed, those of its history as well, and nothing else changed. -/
def renamed (rename : Text → Text) (i : Item) : Item :=
  { i with
    status := rename i.status
    history := i.history.map fun t => { t with status := rename t.status } }

theorem renamed_eq_self (h : ∀ status, rename status = status) (i : Item) :
    i.renamed rename = i := by
  simp [renamed, h]

/-- A renaming changes nothing else but the done mark. -/
theorem exists_eq_renamed (names : Renaming) (doneId : Option Text) (i : Item) :
    ∃ isDone doneAt doneBy, names.item doneId i =
      { i.renamed names.apply with isDone, doneAt, doneBy } :=
  (i.renamed names.apply).exists_markDoneIn_eq doneId

/-- The done mark agrees with a done column: the item is done if it is there. Then the time and the
user are those of the last transition to the column, if there is one, and else there are none. -/
structure IsMarkedFor (i : Item) (done : Text) : Prop where
  isDone_iff : i.isDone = true ↔ i.status = done
  latest : i.status = done → ∀ t, i.history.reverse.find? (·.status = done) = some t →
    i.doneAt = some t.time ∧ i.doneBy = some t.user
  undone : i.status ≠ done → i.doneAt = none ∧ i.doneBy = none

/-- Deriving a done mark that agrees changes nothing. -/
theorem IsMarkedFor.markDone_eq (h : i.IsMarkedFor done) : i.markDone done = i := by
  rw [markDone]
  split
  · next hs =>
    have hdone := h.isDone_iff.2 hs
    split
    · next t ht =>
      obtain ⟨hat, hby⟩ := h.latest hs t ht
      rw [← hdone, ← hat, ← hby]
    · rw [← hdone]
  · next hs =>
    obtain ⟨hat, hby⟩ := h.undone hs
    have hdone : i.isDone = false := Bool.eq_false_iff.2 (mt h.isDone_iff.1 hs)
    cases i
    cases hat
    cases hby
    cases hdone
    rfl

/-- The done mark still agrees if just the done column gets the identifier of the new one. -/
theorem IsMarkedFor.renamed (h : i.IsMarkedFor done)
    (hstatus : rename i.status = done' ↔ i.status = done)
    (hhistory : ∀ t ∈ i.history, rename t.status = done' ↔ t.status = done) :
    (i.renamed rename).IsMarkedFor done' := by
  refine ⟨h.isDone_iff.trans hstatus.symm, fun hs t ht => ?_, fun hs => h.undone (mt hstatus.2 hs)⟩
  -- the last transition to the column is the same one, under its old name
  have hfind : (i.history.reverse.find? fun t => rename t.status = done') =
      i.history.reverse.find? (·.status = done) :=
    List.find?_congr fun t ht => by simp [hhistory t (List.mem_reverse.1 ht)]
  rw [Item.renamed, ← List.map_reverse, List.find?_map] at ht
  obtain ⟨t₀, ht₀, rfl⟩ := Option.map_eq_some_iff.1 ht
  exact h.latest (hstatus.1 hs) t₀ (hfind ▸ ht₀)

/-- An item in step with its history only needs the right flag. -/
theorem InStep.isMarkedFor (h : i.InStep) (hdone : i.isDone = true ↔ i.status = done) :
    i.IsMarkedFor done := by
  obtain ⟨⟨t, ⟨hlast, hstatus⟩, hlatest⟩, hundone⟩ := h
  refine ⟨hdone, fun hs t' ht' => ?_, fun hs => hundone (Bool.eq_false_iff.2 (mt hdone.1 hs))⟩
  rw [List.getLast?_eq_head?_reverse] at hlast
  obtain ⟨ts, hrev⟩ := List.head?_eq_some_iff.1 hlast
  rw [hrev, List.find?_cons_of_pos (by simp [hstatus, hs])] at ht'
  cases ht'
  exact hlatest (hdone.2 hs)

/-- The statuses of the item are columns of the board, and its done mark agrees with the last of
them. -/
structure Fits (i : Item) (s : Settings) : Prop where
  status : i.status ∈ s.columnIds
  history : ∀ t ∈ i.history, t.status ∈ s.columnIds
  marked : ∀ done, s.doneId? = some done → i.IsMarkedFor done

theorem Fits.markDoneIn_eq (h : i.Fits s) : i.markDoneIn s.doneId? = i := by
  cases hdone : s.doneId? with
  | none => rfl
  | some done => exact (h.marked done hdone).markDone_eq

/-- With the same number of columns, an item that fits the old board fits the new one after it has
been renamed. -/
theorem Fits.renamed (h : i.Fits old) (hrename : Renaming.IsPositional old new rename)
    (hlen : old.columns.length = new.columns.length) (hnew : new.columnIds.Nodup) :
    (i.renamed rename).Fits new := by
  refine ⟨hrename.mem_columnIds hlen h.status, fun t ht => ?_, fun done' hdone' => ?_⟩
  · obtain ⟨t₀, ht₀, rfl⟩ := List.mem_map.1 ht
    exact hrename.mem_columnIds hlen (h.history t₀ ht₀)
  · obtain ⟨c, hc, -⟩ := List.mem_map.1 h.status
    obtain ⟨done, hdone⟩ := Settings.exists_doneId? hc
    have hiff : ∀ {status}, status ∈ old.columnIds → (rename status = done' ↔ status = done) :=
      fun hs => hrename.rename_eq_done_iff hlen hnew hdone hdone' hs
    exact (h.marked done hdone).renamed (hiff h.status) fun t ht => hiff (h.history t ht)

/-- The way back undoes the renaming of an item that fits the old board. -/
theorem Fits.renamed_back (h : i.Fits old) (hrename : Renaming.IsPositional old new rename)
    (hback : Renaming.IsPositional new old back)
    (hlen : old.columns.length = new.columns.length) :
    (i.renamed rename).renamed back = i := by
  have hsame : ∀ {status}, status ∈ old.columnIds → back (rename status) = status :=
    fun hs => hrename.back_rename hlen hback hs
  have hhistory : i.history.map (fun t => { t with status := back (rename t.status) }) =
      i.history := by
    conv_rhs => rw [← List.map_id i.history]
    exact List.map_congr_left fun t ht => by simp [hsame (h.history t ht)]
  simp [Item.renamed, hsame h.status, Function.comp_def, hhistory]

end Item

/-! ## Sessions -/

namespace Session

variable {old new : Settings} {σ : Session} {history : Option HistoryStore}

/-- Items that fit the old board are renamed and keep their done marks. -/
theorem items_carryOver_of_fits (history : Option HistoryStore) (hold : old.columnIds.Nodup)
    (hnew : new.columnIds.Nodup) (hlen : old.columns.length = new.columns.length)
    (h : ∀ i ∈ σ.items, i.Fits old) :
    (Activity.carryOver old new history σ).2.items =
      σ.items.map (Item.renamed (Renaming.between old new).apply) := by
  rw [items_carryOver]
  split
  · next hnil =>
    refine (List.map_id'' (fun i => ?_) σ.items).symm
    exact Item.renamed_eq_self (Renaming.apply_of_isEmpty hnil) i
  · refine List.map_congr_left fun i hi => ?_
    exact ((h i hi).renamed (Renaming.isPositional_between hold) hlen hnew).markDoneIn_eq

/-- All statuses take the identifiers of the new columns at once, and nothing else changes but the
done marks. If the boards have the same number of columns and the items fit the old one, then the
change with the boards exchanged gives the same items again. It does not matter whether the changes
can be recorded. -/
theorem carryOver_positional (hold : old.columnIds.Nodup) (hnew : new.columnIds.Nodup)
    (history history' : Option HistoryStore) (σ : Session) :
    ∃ rename, Renaming.IsPositional old new rename ∧
      List.Forall₂ (fun i j => ∃ isDone doneAt doneBy,
          j = { i with
            status := rename i.status
            history := i.history.map fun t => { t with status := rename t.status }
            isDone, doneAt, doneBy })
        σ.items (Activity.carryOver old new history σ).2.items ∧
      (old.columns.length = new.columns.length → (∀ i ∈ σ.items, i.Fits old) →
        ∀ σ', σ'.items = (Activity.carryOver old new history σ).2.items →
          (Activity.carryOver new old history' σ').2.items = σ.items) := by
  have hrename : Renaming.IsPositional old new _ := Renaming.isPositional_between hold
  have hback : Renaming.IsPositional new old _ := Renaming.isPositional_between hnew
  refine ⟨_, hrename, ?_, fun hlen hfits σ' hσ' => ?_⟩
  · rw [items_carryOver]
    split
    · next hnil =>
      refine List.forall₂_same.2 fun i _ => ⟨i.isDone, i.doneAt, i.doneBy, ?_⟩
      exact (Item.renamed_eq_self (Renaming.apply_of_isEmpty hnil) i).symm
    · refine List.forall₂_map_right_iff.2 (List.forall₂_same.2 fun i _ => ?_)
      exact Item.exists_eq_renamed ..
  · have hitems := items_carryOver_of_fits history hold hnew hlen hfits
    rw [hitems] at hσ'
    have hfits' : ∀ j ∈ σ'.items, j.Fits new := by
      intro j hj
      rw [hσ'] at hj
      obtain ⟨i, hi, rfl⟩ := List.mem_map.1 hj
      exact (hfits i hi).renamed hrename hlen hnew
    rw [items_carryOver_of_fits history' hnew hold hlen.symm hfits', hσ', List.map_map]
    conv_rhs => rw [← List.map_id σ.items]
    exact List.map_congr_left fun i hi => (hfits i hi).renamed_back hrename hback hlen

/-- The sample board with the identifiers of its columns moved round. -/
def sampleCycledBoard : Settings := { ScanContext.sampleBoard with
  columns := [⟨"done".toList, "TODO".toList, [], some "TODO|FIXME".toList⟩,
    ⟨"todo".toList, "DOING".toList, [], none⟩, ⟨"doing".toList, "DONE".toList, [], none⟩] }

/-- The sample session with that board. -/
def sampleCycled : Session :=
  sampleMoved.after (.carryOver ScanContext.sampleBoard sampleCycledBoard none)

set_option maxRecDepth 4000 in
theorem carryOver_positional_sampleCycled :
    sampleMoved.items.map (fun i => (i.status, i.isDone)) =
      [("done".toList, true), ("todo".toList, false)] ∧
    sampleCycled.items.map (fun i => (i.status, i.isDone)) =
      [("doing".toList, true), ("done".toList, false)] ∧
    (sampleCycled.after
      (.carryOver sampleCycledBoard ScanContext.sampleBoard none)).items = sampleMoved.items := by
  refine ⟨by cbv, by cbv, ?_⟩
  have hids : ScanContext.sampleBoard.columnIds.Nodup := by decide
  have hids' : sampleCycledBoard.columnIds.Nodup := by decide
  obtain ⟨-, -, -, hback⟩ := carryOver_positional hids hids' none none sampleMoved
  refine hback rfl (fun i hi => ?_) sampleCycled rfl
  -- the items are in step with their histories, as in every session
  have hstart : sampleStart.InStep := fun i hi => absurd hi List.not_mem_nil
  have hscanned : (sampleScanned.within sampleSurroundings).InStep :=
    (hstart.scan sampleProject).of_eq rfl
  have hmoved : ((sampleScanned.request sampleProject sampleRequest).within
    sampleSurroundings).InStep :=
    (hscanned.update sampleProject 1 "done".toList).of_eq rfl
  have hcheck : sampleMoved.items.all (fun i => i.status ∈ ScanContext.sampleBoard.columnIds ∧
      (∀ t ∈ i.history, t.status ∈ ScanContext.sampleBoard.columnIds) ∧
      (i.isDone = true ↔ i.status = "done".toList)) = true := by cbv
  obtain ⟨hstatus, hhistory, hdone⟩ := of_decide_eq_true (List.all_eq_true.1 hcheck i hi)
  refine ⟨hstatus, hhistory, fun done hd => ?_⟩
  cases hd
  exact (hmoved.update _ _ _ i hi).isMarkedFor hdone

/-! ### Done marks -/

/-- Done marks that agree with the old board agree with the new one, unless the boards only differ
in how many columns they have: then nothing is renamed and no mark is derived, so the marks are
still those of the old board. -/
theorem isDone_carryOver_iff (history : Option HistoryStore)
    (h : ∀ i ∈ σ.items, i.isDone = true ↔ old.doneId? = some i.status) :
    (∀ j ∈ (Activity.carryOver old new history σ).2.items,
        j.isDone = true ↔ new.doneId? = some j.status) ↔
      (∃ (n : Nat) (a b : Text), old.columnIds[n]? = some a ∧ new.columnIds[n]? = some b ∧
        a ≠ b) ∨
      ∀ i ∈ σ.items, old.doneId? = some i.status ↔ new.doneId? = some i.status := by
  rw [items_carryOver]
  split
  -- nothing is renamed, so the marks are those of the old board
  · next hnil =>
    have hsame := Renaming.isEmpty_between_iff.1 hnil
    rw [or_iff_right]
    · exact forall₂_congr fun i hi => by rw [h i hi]
    · rintro ⟨n, a, b, ha, hb, hne⟩
      exact hne (hsame n a b ha hb)
  · next hnil =>
    simp only [Renaming.isEmpty_between_iff, not_forall, exists_prop] at hnil
    -- every item is marked anew, whatever its mark was
    refine iff_of_true (fun j hj => ?_) (.inl hnil)
    obtain ⟨n, a, b, -, hb, -⟩ := hnil
    obtain ⟨c, hc, -⟩ := List.mem_map.1 (List.mem_of_getElem? hb)
    obtain ⟨done, hdone⟩ := Settings.exists_doneId? hc
    obtain ⟨i, -, rfl⟩ := List.mem_map.1 hj
    rw [hdone, Renaming.item, Item.markDoneIn_status, Item.markDoneIn, Item.isDone_markDone,
      decide_eq_true_iff, Option.some.injEq, eq_comm]

/-- The sample board with one more column after the last one. -/
def sampleExtendedBoard : Settings := { ScanContext.sampleBoard with
  columns := ScanContext.sampleBoard.columns ++ [⟨"archived".toList, "ARCHIVED".toList, [], none⟩] }

set_option maxRecDepth 4000 in
theorem isDone_iff_of_mem_sampleMoved {i : Item} (hi : i ∈ sampleMoved.items) :
    i.isDone = true ↔ ScanContext.sampleBoard.doneId? = some i.status := by
  have hcheck : sampleMoved.items.all (fun i =>
      i.isDone = true ↔ ScanContext.sampleBoard.doneId? = some i.status) = true := by cbv
  exact of_decide_eq_true (List.all_eq_true.1 hcheck i hi)

theorem isDone_carryOver_iff_sampleMoved :
    ScanContext.sampleBoard.doneId? ≠ sampleCycledBoard.doneId? ∧
    ∀ j ∈ sampleCycled.items, j.isDone = true ↔ sampleCycledBoard.doneId? = some j.status :=
  ⟨by decide, (isDone_carryOver_iff none fun _ => isDone_iff_of_mem_sampleMoved).2
    (.inl ⟨0, "todo".toList, "done".toList, rfl, rfl, by decide⟩)⟩

set_option maxRecDepth 4000 in
/-- With one more column, the item in the column that was the last one is still marked as done. -/
theorem exists_isDone_sampleExtendedBoard :
    (∀ i ∈ sampleMoved.items,
      i.isDone = true ↔ ScanContext.sampleBoard.doneId? = some i.status) ∧
    sampleExtendedBoard.columnIds.Nodup ∧
    ∃ j ∈ (sampleMoved.after
        (.carryOver ScanContext.sampleBoard sampleExtendedBoard none)).items,
      j.isDone = true ∧ sampleExtendedBoard.doneId? ≠ some j.status := by
  refine ⟨fun _ => isDone_iff_of_mem_sampleMoved, by decide, ?_⟩
  have hcheck : (sampleMoved.after
      (.carryOver ScanContext.sampleBoard sampleExtendedBoard none)).items.any (fun j =>
        j.isDone = true ∧ sampleExtendedBoard.doneId? ≠ some j.status) = true := by cbv
  obtain ⟨j, hj, hcheck⟩ := List.any_eq_true.1 hcheck
  exact ⟨j, hj, of_decide_eq_true hcheck⟩

end Session
end MarkerBoard
