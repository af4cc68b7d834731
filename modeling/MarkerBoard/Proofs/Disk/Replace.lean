import MarkerBoard.Proofs.Disk.Leads
import MarkerBoard.Proofs.Steps

/-!
# Replaced files

A file is replaced by way of a temporary one, which is gone afterwards: all that has changed is the
entry that has the name of the file. So the file can be read back, also when its name was that of
a link, which is a file then.

Main results:

* `Action.replaced_eq_ok` — a replacement puts a file where the path led, and does nothing else.
* `Action.bytes_replaced`, `Action.eq_of_bytes_replaced` — the bytes of a replaced file are the new
  ones.
-/
namespace MarkerBoard.Disk

variable {d d' : Disk} {lastToo : Bool} {n : Nat} {at_ p q : Place} {names rest : List Text}
  {b : List UInt8} {m : Nat}

/-! ## A file that is put -/

/-- What is no file has not been put as one. -/
theorem at?_of_put_file {r : Place} {node : Node} (hr : (d.put q (.file b m)).at? r = some node)
    (hnode : ∀ b m, node ≠ .file b m) : d.at? r = some node := by
  by_cases hq : q = r
  · by_cases hnil : r = []
    · rw [hnil, at?_root] at hr ⊢
      exact hr
    · rw [← hq, at?_put_self (hq ▸ hnil)] at hr
      exact absurd (Option.some.inj hr).symm (hnode b m)
  · rwa [at?_put_of_ne hq] at hr

/-- The way to a place does not lead through a file. -/
theorem Leads.of_put_file (h : Leads (d.put q (.file b m)) lastToo n at_ names p) (hp : p ≠ q) :
    Leads d lastToo n at_ names p := by
  induction h with
  | here n p => exact .here n p
  | up _ ih => exact .up (ih hp)
  | last n at_ hname hlink hdir =>
    rw [at?_put_of_ne (Ne.symm hp)] at hlink hdir
    exact .last n at_ hname hlink hdir
  | enter hname hdir _ ih => exact .enter hname (at?_of_put_file hdir (by simp)) (ih hp)
  | jump hname hlink hrest _ ih => exact .jump hname (at?_of_put_file hlink (by simp)) hrest (ih hp)

/-- A path to a place without a link leads there whether or not a last link is followed. -/
theorem Leads.of_no_link (h : Leads d false n at_ names p) (hp : ∀ t, d.at? p ≠ some (.link t))
    (lastToo : Bool) : Leads d lastToo n at_ names p := by
  induction h with
  | here n p => exact .here n p
  | up _ ih => exact .up (ih hp)
  | last n at_ hname _ hdir => exact .last n at_ hname (fun t ht => absurd ht (hp t)) hdir
  | enter hname hdir _ ih => exact .enter hname hdir (ih hp)
  | jump hname hlink hrest _ ih =>
    exact .jump hname hlink (fun h => absurd (hrest h) (by simp)) (ih hp)

/-- A path leads to the file that is put where it led, unless there was a link or a directory. -/
theorem Leads.put_file (h : Leads d lastToo n at_ names p) (hdir : d.at? p ≠ some .dir)
    (hlink : ∀ t, d.at? p ≠ some (.link t)) :
    Leads (d.put p (.file b m)) lastToo n at_ names p := by
  have hsame : ∀ {p r : Place} {node : Node}, d.at? r = some node → d.at? p ≠ some node →
      (d.put p (.file b m)).at? r = some node := by
    intro p r node hr hp
    rw [at?_put_of_ne]
    · exact hr
    · rintro rfl
      exact hp hr
  induction h with
  | here n p => exact .here n p
  | up _ ih => exact .up (ih hdir hlink)
  | last n at_ hname _ _ =>
    have hput : ∀ name, (d.put (at_ ++ [name]) (.file b m)).at? (at_ ++ [name]) =
        some (.file b m) := fun name => at?_put_self (by simp)
    exact .last n at_ hname (fun t ht => by rw [hput] at ht; cases ht) (by rw [hput]; simp)
  | enter hname hd _ ih => exact .enter hname (hsame hd hdir) (ih hdir hlink)
  | jump hname hl hrest _ ih => exact .jump hname (hsame hl (hlink _)) hrest (ih hdir hlink)

/-! ## A link that is replaced -/

/-- Only directories have entries in them. -/
def IsTree (d : Disk) : Prop :=
  ∀ p name, d.at? (p ++ [name]) ≠ none → d.at? p = some .dir

theorem isTree_of_forall (h : ∀ e ∈ d.entries, d.at? e.1.dropLast = some .dir) : d.IsTree := by
  intro p name hp
  rw [at?, if_neg (by simp), Ne, Option.map_eq_none_iff, ← Ne, ← Option.isSome_iff_ne_none,
    List.find?_isSome] at hp
  obtain ⟨e, he, hep⟩ := hp
  have := h e he
  rwa [of_decide_eq_true hep, List.dropLast_concat] at this

theorem IsTree.dir_dropLast (hd : d.IsTree) (h : d.at? at_ = some .dir) :
    d.at? at_.dropLast = some .dir := by
  rcases List.eq_nil_or_concat' at_ with rfl | ⟨p, name, rfl⟩
  · exact h
  · rw [List.dropLast_concat]
    exact hd p name (by rw [h]; simp)

theorem at?_linkBase (h : d.at? at_ = some .dir) (target : Text) :
    d.at? (linkBase target at_) = some .dir := by
  rw [linkBase]
  split
  · exact at?_root d
  · exact h

/-- Nothing can be reached through what is no directory. -/
theorem Leads.not_append (hup : ∀ q, d.at? q = some .dir → d.at? q.dropLast = some .dir)
    (h : Leads d true n at_ names p) (hat : d.at? at_ = some .dir) (hp : d.at? p ≠ some .dir)
    (hrest : rest ≠ []) : ¬ Leads d lastToo n at_ (names ++ rest) q := by
  induction h with
  | here => exact absurd hat hp
  | up _ ih =>
    rw [List.cons_append, leads_up_iff]
    exact ih (hup _ hat) hp
  | last n at_ hname hlink hdir =>
    intro h
    have hstop : ∀ t, d.at? (at_ ++ [_]) ≠ some (.link t) := fun t ht => by
      cases hlink t ht
    exact hrest (h.eq_of_stop hname hdir hstop).1
  | enter hname hdir _ ih =>
    rw [List.cons_append, leads_enter_iff hname hdir]
    exact ih hdir hp
  | @jump n at_ name rest' p target hname hlink _ _ ih =>
    have hne : rest' ++ rest = [] → lastToo = true :=
      fun h => absurd (List.append_eq_nil_iff.1 h).2 hrest
    rw [List.cons_append, leads_jump_iff hname hlink hne, ← List.append_assoc]
    rintro ⟨k, hk, h⟩
    rw [← (Nat.succ.inj hk : n = k)] at h
    exact ih (at?_linkBase hat target) hp h

/-- A path whose last name is a link leads where the link leads. -/
theorem Leads.target_of_link {target : Text} (h : Leads d false n at_ names q)
    (hq : d.at? q = some (.link target)) (hp : Leads d true n at_ names p)
    (hne : d.at? p ≠ some (.link target)) :
    Leads d true n (linkBase target q.dropLast) (Path.ofText target).parts p := by
  induction h with
  | here n q =>
    rw [leads_nil_iff.1 hp] at hne
    exact absurd hq hne
  | up _ ih => exact ih hq (leads_up_iff.1 hp)
  | last n at_ hname _ _ =>
    obtain ⟨k, rfl, h⟩ := (leads_jump_iff hname hq (fun _ => rfl)).1 hp
    rw [List.append_nil] at h
    rw [List.dropLast_concat]
    exact h.mono (Nat.le_succ k)
  | enter hname hdir _ ih => exact ih hq ((leads_enter_iff hname hdir).1 hp)
  | jump hname hlink _ _ ih =>
    obtain ⟨k, hk, h⟩ := (leads_jump_iff hname hlink (fun _ => rfl)).1 hp
    cases hk
    exact (ih hq h).mono (Nat.le_succ _)

/-- A path whose last name is a link to a file leads to the file that is put in the stead of the
link. The way to the link does not lead through it. -/
theorem Leads.put_link (hd : d.IsTree) {target : Text} (h : Leads d false n at_ names q)
    (hat : d.at? at_ = some .dir) (hq : d.at? q = some (.link target))
    (hp : Leads d true n at_ names p) (hfile : ∃ b m, d.at? p = some (.file b m)) :
    Leads (d.put q (.file b m)) true n at_ names q := by
  obtain ⟨b', m', hfile⟩ := hfile
  have hsame : ∀ {q r : Place} {node : Node}, d.at? r = some node → r ≠ q →
      (d.put q (.file b m)).at? r = some node := by
    intro q r node hr hne
    rw [at?_put_of_ne (Ne.symm hne)]
    exact hr
  induction h with
  | here n q => exact .here n q
  | up _ ih => exact .up (ih (hd.dir_dropLast hat) hq (leads_up_iff.1 hp))
  | last n at_ hname _ _ =>
    have hput : ∀ name, (d.put (at_ ++ [name]) (.file b m)).at? (at_ ++ [name]) =
        some (.file b m) := fun name => at?_put_self (by simp)
    exact .last n at_ hname (fun t ht => by rw [hput] at ht; cases ht) (by rw [hput]; simp)
  | enter hname hdir _ ih =>
    refine .enter hname (hsame hdir ?_) (ih hdir hq ((leads_enter_iff hname hdir).1 hp))
    rintro rfl
    rw [hdir] at hq
    cases hq
  | @jump n at_ name rest q target' hname hlink hrest hway ih =>
    obtain ⟨k, hk, h⟩ := (leads_jump_iff hname hlink (fun _ => rfl)).1 hp
    cases hk
    refine .jump hname (hsame hlink ?_) (fun _ => rfl) (ih (at?_linkBase hat _) hq h)
    -- else the rest of the path would have to go through the file that the link leads to
    rintro rfl
    rw [hlink] at hq
    cases hq
    have hend := hway.target_of_link hlink h (by rw [hfile]; simp)
    rw [List.dropLast_concat] at hend
    exact hend.not_append (fun _ => hd.dir_dropLast) (at?_linkBase hat _) (by rw [hfile]; simp)
      (fun he => absurd (hrest he) (by simp)) hway

end MarkerBoard.Disk

namespace MarkerBoard.Action

open Disk

/-- The disk after a file has been replaced by way of a temporary one, if no step fails. -/
def replaced (w : World) (target : Path) (keepMode : Bool) (bytes : List UInt8) :
    Except Disk.Fault Disk := do
  let temporary := w.disk.temporaryPath target.parent w.freshName
  refuse w.refusals.createTemporary
  let disk ← w.disk.makeTemporary temporary bytes
  refuse w.refusals.writeTemporary
  let disk ← if keepMode then do
      refuse w.refusals.copyMode
      disk.copyMode target temporary
    else .ok disk
  refuse w.refusals.rename
  disk.rename temporary target

variable {w : World} {target : Path} {keepMode : Bool} {bytes : List UInt8} {d' : Disk}

/-- A temporary file is new. -/
theorem exists_of_makeTemporary {d : Disk} {temporary : Path}
    (h : d.makeTemporary temporary bytes = .ok d') :
    ∃ tp, Leads d false linkLimit [] (d.absolute temporary).parts tp ∧ d.at? tp = none ∧
      d' = d.put tp (.file bytes privateMode) := by
  rw [makeTemporary, Steps.except_bind_ok_iff] at h
  obtain ⟨tp, hplace, h⟩ := h
  split at h
  · next hnone =>
    cases h
    exact ⟨tp, locateEntry_eq_ok_iff.1 hplace, hnone, rfl⟩
  · cases h

/-- The path of a temporary file still leads there when the file is there. -/
theorem leads_temporary {d : Disk} {temporary : Path} {tp : Place}
    (hway : Leads d false linkLimit [] (d.absolute temporary).parts tp) (hnone : d.at? tp = none)
    (b : List UInt8) (m : Nat) (lastToo : Bool) :
    Leads (d.put tp (.file b m)) lastToo linkLimit [] (d.absolute temporary).parts tp :=
  (hway.of_no_link (by rw [hnone]; simp) lastToo).put_file (by rw [hnone]; simp)
    (by rw [hnone]; simp)

/-- Copying permission bits changes at most those of a file. -/
theorem exists_of_copyMode {d : Disk} {source temporary : Path} {tp : Place} {m : Nat}
    (hway : Leads d true linkLimit [] (d.absolute temporary).parts tp)
    (hat : d.at? tp = some (.file bytes m)) (h : d.copyMode source temporary = .ok d') :
    ∃ mode, d' = d.put tp (.file bytes mode) := by
  rw [copyMode, Steps.except_bind_ok_iff] at h
  obtain ⟨giver, -, h⟩ := h
  rw [Steps.except_bind_ok_iff] at h
  obtain ⟨taker, htaker, h⟩ := h
  obtain rfl : taker = tp := (locate_eq_ok_iff.1 htaker).unique hway
  rw [hat] at h
  split at h
  · next mode bytes' m' _ hfile =>
    cases hfile
    cases h
    exact ⟨mode, rfl⟩
  · cases h
  · cases h
  · cases h
    exact ⟨m, (put_of_at? hat (ne_nil_of_at?_file hat)).symm⟩

/-- A file that is renamed at once is found where the new name led. -/
theorem exists_of_rename {d : Disk} {temporary : Path} {tp : Place} {m : Nat}
    (hnone : d.at? tp = none)
    (hway : Leads (d.put tp (.file bytes m)) false linkLimit [] (d.absolute temporary).parts tp)
    (h : (d.put tp (.file bytes m)).rename temporary target = .ok d') :
    ∃ tq, Leads (d.put tp (.file bytes m)) false linkLimit [] (d.absolute target).parts tq ∧
      (d.put tp (.file bytes m)).at? tq ≠ some .dir ∧ d' = d.put tq (.file bytes m) := by
  rw [rename, Steps.except_bind_ok_iff] at h
  obtain ⟨source, hsource, h⟩ := h
  -- the old name leads to the temporary file
  have hs : source = tp :=
    (locateEntry_eq_ok_iff.1 (mapError_eq_ok_iff.1 hsource)).unique hway
  subst hs
  dsimp only at h
  split at h
  · next tq hplace =>
    rw [Steps.except_bind_ok_iff] at h
    obtain ⟨tq', htq, h⟩ := h
    cases htq
    refine ⟨tq, follow_eq_ok_iff.1 hplace, ?_⟩
    rw [at?_put_self (ne_nil_of_at?_eq_none hnone)] at h
    split at h
    · cases h
    · next n hn hdir =>
      cases hn
      cases h
      rw [drop_put hnone]
      exact ⟨hdir, rfl⟩
    · next hn => cases hn
  · rw [Steps.except_bind_ok_iff] at h
    obtain ⟨_, htq, -⟩ := h
    cases htq

/-- A replacement puts a file where the path led, and does nothing else. -/
theorem replaced_eq_ok (h : replaced w target keepMode bytes = .ok d') :
    ∃ tp tq mode, w.disk.at? tp = none ∧
      Leads (w.disk.put tp (.file bytes mode)) false linkLimit []
        (w.disk.absolute target).parts tq ∧
      (w.disk.put tp (.file bytes mode)).at? tq ≠ some .dir ∧
      d' = w.disk.put tq (.file bytes mode) := by
  rw [replaced, Steps.except_bind_ok_iff] at h
  obtain ⟨-, -, h⟩ := h
  rw [Steps.except_bind_ok_iff] at h
  obtain ⟨d₁, hmake, h⟩ := h
  rw [Steps.except_bind_ok_iff] at h
  obtain ⟨-, -, h⟩ := h
  obtain ⟨tp, hway, hnone, rfl⟩ := exists_of_makeTemporary hmake
  -- the temporary file stands where nothing was, and its path still leads there
  have hnew : ∀ m, (w.disk.put tp (.file bytes m)).at? tp = some (.file bytes m) :=
    fun m => at?_put_self (ne_nil_of_at?_eq_none hnone)
  have hway' := leads_temporary hway hnone bytes
  -- whatever mode it has been given, it is renamed in the end
  have hrename : ∀ {mode : Nat} {r : Except Disk.Fault Unit},
      (r >>= fun _ => (w.disk.put tp (.file bytes mode)).rename
        (w.disk.temporaryPath target.parent w.freshName) target) = .ok d' →
      ∃ tp tq mode, w.disk.at? tp = none ∧
        Leads (w.disk.put tp (.file bytes mode)) false linkLimit []
          (w.disk.absolute target).parts tq ∧
        (w.disk.put tp (.file bytes mode)).at? tq ≠ some .dir ∧
        d' = w.disk.put tq (.file bytes mode) := by
    intro mode r hr
    rw [Steps.except_bind_ok_iff] at hr
    obtain ⟨-, -, hr⟩ := hr
    obtain ⟨tq, hleads, hdir, he⟩ := exists_of_rename hnone (hway' mode false) hr
    exact ⟨tp, tq, mode, hnone, hleads, hdir, he⟩
  dsimp only at h
  split at h
  · rw [Steps.except_bind_ok_iff] at h
    obtain ⟨-, -, h⟩ := h
    rw [Steps.except_bind_ok_iff] at h
    obtain ⟨d₂, hmode, h⟩ := h
    obtain ⟨mode, rfl⟩ := exists_of_copyMode (hway' _ true) (hnew _) hmode
    rw [put_put] at h
    exact hrename h
  · rw [Steps.except_bind_ok_iff] at h
    obtain ⟨d₂, hmode, h⟩ := h
    cases hmode
    exact hrename h

theorem bytes_of_leads {d : Disk} {p : Path} {place : Place} {m : Nat}
    (h : Leads d true linkLimit [] (d.absolute p).parts place)
    (hat : d.at? place = some (.file bytes m)) : d.bytes p = .ok bytes := by
  rw [Disk.bytes, Steps.except_bind_ok_iff]
  exact ⟨place, locate_eq_ok_iff.2 h, by rw [hat]⟩

theorem exists_of_bytes {d : Disk} {p : Path} (h : d.bytes p = .ok bytes) :
    ∃ place m, Leads d true linkLimit [] (d.absolute p).parts place ∧
      d.at? place = some (.file bytes m) := by
  rw [Disk.bytes, Steps.except_bind_ok_iff] at h
  obtain ⟨place, hplace, h⟩ := h
  split at h
  · next b m hat =>
    cases h
    exact ⟨place, m, locate_eq_ok_iff.1 hplace, hat⟩
  · cases h
  · cases h

/-- A new file elsewhere plays no part in where a path leads that led to a file before. -/
theorem leads_of_put_new {d : Disk} {names : List Text} {p tp tq : Place} {old : List UInt8}
    {m mode : Nat} (hp : Leads d true linkLimit [] names p) (hfile : d.at? p = some (.file old m))
    (hnone : d.at? tp = none)
    (hleads : Leads (d.put tp (.file bytes mode)) false linkLimit [] names tq) :
    tq ≠ tp ∧ Leads d false linkLimit [] names tq := by
  have hne : p ≠ tp := by
    rintro rfl
    rw [hfile] at hnone
    cases hnone
  have htq : tq ≠ tp := by
    rintro rfl
    have hold := hp.extend (extends_put_of_none (b := bytes) (m := mode) hnone)
      (by rw [hfile]; simp)
    have hnew := hleads.of_no_link (by rw [at?_put_self (ne_nil_of_at?_eq_none hnone)]; simp) true
    exact hne (hold.unique hnew)
  exact ⟨htq, hleads.of_put_file htq⟩

/-- If the path led to a file before, the temporary file plays no part in where it leads. -/
theorem replaced_eq_put {old : List UInt8} (hold : w.disk.bytes target = .ok old)
    (h : replaced w target keepMode bytes = .ok d') :
    ∃ tq mode, Leads w.disk false linkLimit [] (w.disk.absolute target).parts tq ∧
      w.disk.at? tq ≠ some .dir ∧ d' = w.disk.put tq (.file bytes mode) := by
  obtain ⟨tp, tq, mode, hnone, hleads, hdir, rfl⟩ := replaced_eq_ok h
  obtain ⟨p, m, hp, hfile⟩ := exists_of_bytes hold
  obtain ⟨htq, hway⟩ := leads_of_put_new hp hfile hnone hleads
  rw [at?_put_of_ne (Ne.symm htq)] at hdir
  exact ⟨tq, mode, hway, hdir, rfl⟩

/-- A file that could be read can be read after it has been replaced, and has the new bytes. -/
theorem bytes_replaced {old : List UInt8} (hd : w.disk.IsTree)
    (hold : w.disk.bytes target = .ok old) (h : replaced w target keepMode bytes = .ok d') :
    d'.bytes target = .ok bytes := by
  obtain ⟨tq, mode, hway, hdir, rfl⟩ := replaced_eq_put hold h
  obtain ⟨p, m, hp, hfile⟩ := exists_of_bytes hold
  have hnew : (w.disk.put tq (.file bytes mode)).at? tq = some (.file bytes mode) :=
    at?_put_self (ne_nil_of_not_dir hdir)
  refine bytes_of_leads ?_ hnew
  by_cases hlink : ∃ t, w.disk.at? tq = some (.link t)
  · obtain ⟨t, ht⟩ := hlink
    exact hway.put_link hd (at?_root _) ht hp ⟨_, _, hfile⟩
  · rw [not_exists] at hlink
    exact (hway.of_no_link hlink true).put_file hdir hlink

/-- Whatever can be read at the path after a replacement are the new bytes. -/
theorem eq_of_bytes_replaced {read : List UInt8} (hd : w.disk.IsTree)
    (h : replaced w target keepMode bytes = .ok d') (hread : d'.bytes target = .ok read) :
    read = bytes := by
  obtain ⟨tp, tq, mode, hnone, hleads, hnot, rfl⟩ := replaced_eq_ok h
  obtain ⟨p, m, hway, hfile⟩ := exists_of_bytes hread
  by_cases hp : p = tq
  · subst hp
    have hnil : p ≠ [] := ne_nil_of_at?_file hfile
    rw [at?_put_self hnil] at hfile
    cases hfile
    rfl
  · -- a file elsewhere could be read before, and then the path leads to the new one
    rw [at?_put_of_ne (Ne.symm hp)] at hfile
    have hold : w.disk.bytes target = .ok read := bytes_of_leads (hway.of_put_file hp) hfile
    have hnew := bytes_replaced hd hold h
    rw [hread] at hnew
    cases hnew
    rfl

end MarkerBoard.Action
