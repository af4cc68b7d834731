import MarkerBoard.Proofs.History.Cleanup

/-!
# Fields of other programs

A history keeps the fields of other programs that are in its file. Dropping old snapshots carries
them over, but saving a scan builds the history anew without them. So they last until the first scan
is saved, and are gone from then on.

Their values may be of any kind. Only a number that is not finite, which a text can hold although
the format has none, becomes null when old snapshots are dropped.

Main results:

* `HistoryStore.Carries.afterSave`, `HistoryStore.Carries.afterCleanup` — what each operation leaves
  of the fields.
* `HistoryStore.extra_of_rewrites` — what is left of them after any sequence of operations.
-/
namespace MarkerBoard.HistoryStore

open Disk

variable {s : HistoryStore} {d : Disk} {w₀ w w' : World} {saved : Bool} {o : Surroundings}
  {g h h₀ : History} {items : List Item} {settings : Option Settings} {days : Int} {n : Nat}

/-- A sequence of operations that succeed, each in surroundings of its own, and whether a scan has
been saved in it. -/
inductive Rewrites (s : HistoryStore) (w₀ : World) : Bool → World → Prop
  | start : Rewrites s w₀ false w₀
  | save {saved : Bool} {w w' : World} {o : Surroundings} {items : List Item}
      {settings : Option Settings} {h : History} (hrun : Rewrites s w₀ saved w)
      (hsave : s.save items settings (w.within o) = (.ok h, w')) : Rewrites s w₀ true w'
  | cleanup {saved : Bool} {w w' : World} {o : Surroundings} {days : Int} {n : Nat}
      (hrun : Rewrites s w₀ saved w) (hclean : s.cleanup days (w.within o) = (.ok n, w')) :
      Rewrites s w₀ saved w'

/-- Saving a scan leaves no extra fields. -/
theorem Carries.afterSave (hc : s.Carries w.disk g)
    (hsave : s.save items settings w = (.ok h, w')) : s.Carries w'.disk h ∧ h.extra = [] := by
  obtain ⟨hd, bytes, t, hbytes, htext, -⟩ := hc
  rcases save_of_decode hd hbytes htext items settings with
    ⟨_, _, _, hfault⟩ | ⟨_, hok, hd', hholds⟩
  · cases hfault.symm.trans hsave
  · cases hok.symm.trans hsave
    exact ⟨⟨hd', hholds⟩, rfl⟩

/-- Dropping old snapshots keeps the extra fields, if the file is written at all with null for the
numbers that are not finite. -/
theorem Carries.afterCleanup (hc : s.Carries w.disk g)
    (hclean : s.cleanup days w = (.ok n, w')) :
    ∃ h, s.Carries w'.disk h ∧ (h.extra = g.extra ∨ h.extra = Json.finiteFields g.extra) := by
  obtain ⟨-, ⟨-, rfl⟩ | ⟨-, -, hleft, -⟩⟩ := hc.cleaned hclean
  · exact ⟨g, hc, .inl rfl⟩
  -- what is written differs from the old history in its snapshots and its time
  · exact ⟨_, hleft, .inr rfl⟩

/-- A sequence of operations preserves that a history is held, with the extra fields of the first
one as long as no scan has been saved. -/
theorem Rewrites.carries (hrun : s.Rewrites w₀ saved w) (hc : s.Carries w₀.disk h₀) :
    ∃ h, s.Carries w.disk h ∧ if saved then h.extra = []
      else h.extra = h₀.extra ∨ h.extra = Json.finiteFields h₀.extra := by
  induction hrun with
  | start => exact ⟨h₀, hc, .inl rfl⟩
  | @save saved w w' o items settings h _ hsave ih =>
    obtain ⟨g, hg, -⟩ := ih
    have hg' : s.Carries (w.within o).disk g := hg
    exact ⟨h, hg'.afterSave hsave⟩
  | @cleanup saved w w' o days n _ hclean ih =>
    obtain ⟨g, hg, hextra⟩ := ih
    have hg' : s.Carries (w.within o).disk g := hg
    obtain ⟨h, hh, hsame⟩ := hg'.afterCleanup hclean
    refine ⟨h, hh, ?_⟩
    cases saved with
    | true =>
      -- where there are no fields, none are written
      have hnone : g.extra = [] := hextra
      rw [hnone] at hsame
      exact hsame.elim id id
    | false =>
      have hfirst : g.extra = h₀.extra ∨ g.extra = Json.finiteFields h₀.extra := hextra
      rcases hfirst with hfirst | hfirst
      · rwa [hfirst] at hsame
      · rw [hfirst, Json.finiteFields_finiteFields] at hsame
        exact .inr (hsame.elim id id)

/-- After any sequence of operations on a history, a history is loaded. If no scan has been saved,
it has the extra fields of the first one, in their order and with their values, but perhaps null for
the numbers that are not finite. Otherwise it has none. -/
theorem extra_of_rewrites (hd : w₀.disk.IsTree) (hload : s.load w₀ = (.ok (some h₀), w₀))
    (hrun : s.Rewrites w₀ saved w) :
    ∃ h, s.load w = (.ok (some h), w) ∧ if saved then h.extra = []
      else h.extra = h₀.extra ∨ h.extra = Json.finiteFields h₀.extra := by
  obtain ⟨h, hc, hextra⟩ := hrun.carries ⟨hd, holds_of_load hload⟩
  exact ⟨h, load_of_holds hc.holds, hextra⟩

/-! ## Fields of another program -/

/-- The number nearest to a tenth. -/
def tenth : Binary64 := .finite false 7205759403792794 (-56)

/-- The sample history with two fields of another program. -/
def sampleNoted : History :=
  { sampleHistory with extra := [("note".toList, .int 7), ("rate".toList, .float tenth)] }

/-- A world with that history. -/
def sampleNotedWorld : World := sampleWorld (some (Utf8.encode sampleNoted.toText))

theorem load_sampleNotedWorld :
    sampleStore.load sampleNotedWorld = (.ok (some sampleNoted), sampleNotedWorld) := by
  have hbase : sampleHistory.IsExact := History.isExact_record (by simp) _
  have htenth : (Json.float tenth).Exact :=
    ⟨by decide, .inl (by decide), by decide, by decide⟩
  have hx : sampleNoted.IsExact :=
    ⟨hbase.byStatus, hbase.byKeyword, hbase.byFile, hbase.snapshots,
      ⟨by decide, trivial, htenth, trivial⟩, by decide⟩
  exact load_sampleWorld hx

/-- Dropping the only snapshot keeps the fields. -/
theorem extra_of_rewrites_sampleNotedWorld :
    ∃ w h, sampleStore.Rewrites sampleNotedWorld false w ∧
      sampleStore.load w = (.ok (some h), w) ∧
      h.extra = [("note".toList, .int 7), ("rate".toList, .float tenth)] := by
  have hreach : Moment.first.Reaches 0 := by decide
  obtain ⟨n, w, hclean⟩ := exists_cleanup load_sampleNotedWorld hreach
    fun bytes => ⟨_, replaced_sampleWorld _ bytes⟩
  have hrun : sampleStore.Rewrites sampleNotedWorld false w :=
    Rewrites.start.cleanup (o := sampleSurroundings) hclean
  obtain ⟨h, hload, hextra⟩ :=
    extra_of_rewrites (isTree_sampleDisk _) load_sampleNotedWorld hrun
  exact ⟨w, h, hrun, hload, hextra.elim id id⟩

/-- Saving a scan loses them. -/
theorem extra_lost_sampleNotedWorld :
    ∃ w h, sampleStore.load sampleNotedWorld = (.ok (some sampleNoted), sampleNotedWorld) ∧
      sampleStore.Rewrites sampleNotedWorld true w ∧ sampleStore.load w = (.ok (some h), w) ∧
      ("note".toList, Json.int 7) ∈ sampleNoted.extra ∧
      ("note".toList, Json.int 7) ∉ h.extra := by
  have hsave : sampleStore.save [] none sampleNotedWorld =
      (.ok (.record (some sampleNoted) (sampleStore.scanned sampleNotedWorld [] none)), _) :=
    save_of_ok (initialise_sampleWorld _) load_sampleNotedWorld (replaced_sampleWorld _ _)
  have hcarries : sampleStore.Carries sampleNotedWorld.disk sampleNoted :=
    ⟨isTree_sampleDisk _, holds_of_load load_sampleNotedWorld⟩
  obtain ⟨hsaved, hnone⟩ := hcarries.afterSave hsave
  refine ⟨_, _, load_sampleNotedWorld, Rewrites.start.save (o := sampleSurroundings) hsave,
    load_of_holds hsaved.holds, List.mem_cons_self, ?_⟩
  rw [hnone]
  exact List.not_mem_nil

end MarkerBoard.HistoryStore
