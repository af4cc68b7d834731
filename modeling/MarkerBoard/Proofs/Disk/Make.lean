import MarkerBoard.Proofs.Disk.Replace

/-!
# New entries

Making directories, and writing a file that is not there yet, takes nothing away from a disk: all
its entries stay, and all new ones stand where nothing was. So every path that led to something
leads there still.

Main results:

* `Disk.Grows.toExtends` — a disk that grows keeps its paths.
* `Disk.grows_makePath`, `Disk.of_makePath` — what making directories does, and what it preserves.
* `Disk.grows_write` — what writing a new file does.
-/
namespace MarkerBoard.Disk

variable {d d' d'' : Disk} {lastToo : Bool} {n : Nat} {at_ p q : Place} {names rest : List Text}
  {node : Node} {new : Node → Prop}

/-- The second disk has what the first one has, and perhaps new entries of a kind. -/
structure Grows (new : Node → Prop) (d d' : Disk) : Prop where
  here : d'.here = d.here
  at?_eq : ∀ q, d'.at? q = d.at? q ∨ d.at? q = none ∧ ∃ n, new n ∧ d'.at? q = some n

namespace Grows

theorem refl (new : Node → Prop) (d : Disk) : Grows new d d := ⟨rfl, fun _ => .inl rfl⟩

theorem trans (h : Grows new d d') (h' : Grows new d' d'') : Grows new d d'' := by
  refine ⟨h'.here.trans h.here, fun q => ?_⟩
  rcases h'.at?_eq q with heq | ⟨hnone, n, hn, hsome⟩
  · rw [heq]
    exact h.at?_eq q
  · rcases h.at?_eq q with heq' | ⟨-, n', -, hsome'⟩
    · exact .inr ⟨heq' ▸ hnone, n, hn, hsome⟩
    · rw [hsome'] at hnone
      cases hnone

theorem mono {new' : Node → Prop} (h : Grows new d d') (hnew : ∀ n, new n → new' n) :
    Grows new' d d' := by
  refine ⟨h.here, fun q => (h.at?_eq q).imp_right ?_⟩
  rintro ⟨hnone, n, hn, hsome⟩
  exact ⟨hnone, n, hnew n hn, hsome⟩

theorem at?_of_some (h : Grows new d d') (hq : d.at? q = some node) : d'.at? q = some node := by
  rcases h.at?_eq q with heq | ⟨hnone, -⟩
  · rw [heq, hq]
  · rw [hnone] at hq
    cases hq

/-- What is there was there before, or it is new. -/
theorem old_or_new (h : Grows new d d') (hq : d'.at? q = some node) :
    d.at? q = some node ∨ new node := by
  rcases h.at?_eq q with heq | ⟨-, n, hn, hsome⟩
  · exact .inl (heq ▸ hq)
  · cases hq.symm.trans hsome
    exact .inr hn

theorem link_iff (h : Grows new d d') (hnew : ∀ t, ¬ new (.link t)) (q : Place) (t : Text) :
    d'.at? q = some (.link t) ↔ d.at? q = some (.link t) :=
  ⟨fun hq => (h.old_or_new hq).resolve_right (hnew t), h.at?_of_some⟩

/-- A disk that grows keeps its paths. -/
theorem toExtends (h : Grows new d d') (hnew : ∀ t, ¬ new (.link t)) : Extends d' d :=
  ⟨fun _ => h.at?_of_some, fun _ _ => h.at?_of_some, fun _ b m hq => ⟨b, m, h.at?_of_some hq⟩,
    fun q t => (h.link_iff hnew q t).1⟩

end Grows

theorem grows_put (h : d.at? p = none) (hn : new node) : Grows new d (d.put p node) := by
  refine ⟨rfl, fun q => ?_⟩
  by_cases hpq : p = q
  · subst hpq
    exact .inr ⟨h, node, hn, at?_put_self (ne_nil_of_at?_eq_none h)⟩
  · exact .inl (at?_put_of_ne hpq)

/-! ## Directories -/

/-- A path leads to the directory that is put where it led, if there was nothing. -/
theorem Leads.put_dir (h : Leads d lastToo n at_ names p) (hp : d.at? p = none) :
    Leads (d.put p .dir) lastToo n at_ names p := by
  have hsame : ∀ {p r : Place} {node : Node}, d.at? r = some node → d.at? p = none →
      (d.put p .dir).at? r = some node := by
    intro p r node hr hp
    have hgrows : Grows (fun _ => True) d (d.put p .dir) := grows_put hp trivial
    exact hgrows.at?_of_some hr
  induction h with
  | here n p => exact .here n p
  | up _ ih => exact .up (ih hp)
  | last n at_ hname _ _ => exact .enter hname (at?_put_self (by simp)) (.here n _)
  | enter hname hdir _ ih => exact .enter hname (hsame hdir hp) (ih hp)
  | jump hname hlink hrest _ ih => exact .jump hname (hsame hlink hp) hrest (ih hp)

theorem node?_eq_some_iff {d : Disk} {p : Path} : d.node? p = some node ↔
    ∃ place, Leads d true linkLimit [] (d.absolute p).parts place ∧ d.at? place = some node := by
  rw [node?]
  constructor
  · intro h
    split at h
    · next place hplace => exact ⟨place, locate_eq_ok_iff.1 hplace, h⟩
    · cases h
  · rintro ⟨place, hway, hat⟩
    rw [locate_eq_ok_iff.2 hway]
    exact hat

theorem isDir_iff {d : Disk} {p : Path} : d.isDir p = true ↔
    ∃ place, Leads d true linkLimit [] (d.absolute p).parts place ∧ d.at? place = some .dir := by
  rw [isDir, decide_eq_true_iff, node?_eq_some_iff]

/-- A directory is made where its path leads, if nothing is there. -/
theorem makeDir_eq_put {p : Path} (h : d.makeDir p = .ok d') :
    ∃ place, Leads d false linkLimit [] (d.absolute p).parts place ∧ d.at? place = none ∧
      d' = d.put place .dir := by
  rw [makeDir, Steps.except_bind_ok_iff] at h
  obtain ⟨place, hplace, h⟩ := h
  split at h
  · next hnone => exact ⟨place, locateEntry_eq_ok_iff.1 hplace, hnone, (Except.ok.inj h).symm⟩
  · cases h

/-- The path of a new directory leads to it. -/
theorem Leads.put_new_dir (h : Leads d false n at_ names p) (hp : d.at? p = none) :
    Leads (d.put p .dir) true n at_ names p :=
  (h.of_no_link (by rw [hp]; simp) true).put_dir hp

/-- A directory that has been made is one, and nothing else has changed. -/
theorem exists_of_makeDir {p : Path} (h : d.makeDir p = .ok d') :
    Grows (· = .dir) d d' ∧ d'.isDir p = true := by
  obtain ⟨place, hway, hnone, rfl⟩ := makeDir_eq_put h
  exact ⟨grows_put hnone rfl, isDir_iff.2 ⟨place, hway.put_new_dir hnone,
    at?_put_self (ne_nil_of_at?_eq_none hnone)⟩⟩

/-- A path that leads to something leads to an entry also if a link at its end is not followed. -/
theorem Leads.exists_entry (h : Leads d true n at_ names p) (hp : d.at? p ≠ none) :
    ∃ q, Leads d false n at_ names q ∧ d.at? q ≠ none := by
  induction h with
  | here n p => exact ⟨p, .here n p, hp⟩
  | up _ ih =>
    obtain ⟨q, hq, hat⟩ := ih hp
    exact ⟨q, .up hq, hat⟩
  | last n at_ hname _ hdir => exact ⟨_, .last n at_ hname (fun _ _ => rfl) hdir, hp⟩
  | enter hname hdir _ ih =>
    obtain ⟨q, hq, hat⟩ := ih hp
    exact ⟨q, .enter hname hdir hq, hat⟩
  | @jump n at_ name rest p target hname hlink _ _ ih =>
    by_cases hnil : rest = []
    · -- the link itself is the entry
      subst hnil
      exact ⟨_, .last _ at_ hname (fun _ _ => rfl) (by rw [hlink]; simp), by rw [hlink]; simp⟩
    · obtain ⟨q, hq, hat⟩ := ih hp
      exact ⟨q, .jump hname hlink (fun h => absurd h hnil) hq, hat⟩

/-- Where a path leads to something, no directory can be made. -/
theorem makeDir_of_node? {p : Path} (h : d.node? p = some node) :
    d.makeDir p = .error (.onPath .alreadyThere p) := by
  obtain ⟨place, hway, hplace⟩ := node?_eq_some_iff.1 h
  obtain ⟨q, hq, hat⟩ := hway.exists_entry (by rw [hplace]; simp)
  obtain ⟨node, hnode⟩ := Option.ne_none_iff_exists'.1 hat
  rw [makeDir, locateEntry_eq_ok_iff.2 hq]
  dsimp only [bind, Except.bind]
  rw [hnode]

/-- A directory is made, or it is there already, or it cannot be made and nothing changes. -/
theorem makeDirHere_cases (refused : Path → Option Text) (d : Disk) (p : Path) :
    (∃ d', d.makeDir p = .ok d' ∧ d.makeDirHere refused p = (.ok (), d')) ∨
    (d.isDir p = true ∧ d.makeDirHere refused p = (.ok (), d)) ∨
    ∃ f, d.isDir p = false ∧ d.makeDirHere refused p = (.error f, d) := by
  rw [makeDirHere]
  split
  · next f hmake =>
    rw [unlessDir]
    cases hdir : d.isDir p with
    | true => exact .inr (.inl ⟨rfl, rfl⟩)
    | false => exact .inr (.inr ⟨f, rfl, rfl⟩)
  · next d' hmake =>
    split
    · exact .inl ⟨d', hmake, rfl⟩
    · next message _ =>
      have hdir : d.isDir p = false := Bool.eq_false_iff.2 fun hdir => by
        cases (makeDir_of_node? (of_decide_eq_true hdir)).symm.trans hmake
      exact .inr (.inr ⟨.device message, hdir, rfl⟩)

/-- What making a single directory preserves, making those above it preserves too, whether or not
all of them can be made. -/
theorem of_makePath {keeps : Disk → Prop} {refused : Path → Option Text} {p : Path}
    {r : Except Fault Unit} (hd : keeps d) (h : d.makePath refused p = (r, d'))
    (hmake : ∀ d d' q, keeps d → d.makeDir q = .ok d' → keeps d') : keeps d' := by
  have hhere : ∀ {d d' : Disk} {p : Path} {r : Except Fault Unit}, keeps d →
      d.makeDirHere refused p = (r, d') → keeps d' := by
    intro d d' p r hd h
    obtain ⟨d₁, hone, heq⟩ | ⟨-, heq⟩ | ⟨f, -, heq⟩ := makeDirHere_cases refused d p
    · cases heq.symm.trans h
      exact hmake _ _ p hd hone
    · cases heq.symm.trans h
      exact hd
    · cases heq.symm.trans h
      exact hd
  fun_induction makePath refused d p generalizing d' r with
  | case1 =>
    cases h
    exact hd
  | case2 p _ _ _ _ hparent ih => exact hhere (ih hparent) h
  | case3 p _ _ _ _ _ hparent ih =>
    cases h
    exact ih hparent
  | case4 => exact hhere hd h

/-- Making a directory and those above it only adds directories. -/
theorem grows_makePath {refused : Path → Option Text} {p : Path} {r : Except Fault Unit}
    (h : d.makePath refused p = (r, d')) : Grows (· = .dir) d d' :=
  of_makePath (.refl (· = .dir) d) h
    fun _ _ _ hgrows hmake => hgrows.trans (exists_of_makeDir hmake).1

theorem isDir_of_makeDirHere {refused : Path → Option Text} {p : Path}
    (h : d.makeDirHere refused p = (.ok (), d')) : d'.isDir p = true := by
  obtain ⟨d₁, hone, heq⟩ | ⟨hdir, heq⟩ | ⟨f, -, heq⟩ := makeDirHere_cases refused d p
  · cases heq.symm.trans h
    exact (exists_of_makeDir hone).2
  · cases heq.symm.trans h
    exact hdir
  · cases heq.symm.trans h

/-- A directory that has been made with those above it is one. -/
theorem isDir_of_makePath {refused : Path → Option Text} {p : Path}
    (h : d.makePath refused p = (.ok (), d')) : d'.isDir p = true := by
  rw [makePath] at h
  split at h
  · split at h
    · cases h
    · split at h
      · exact isDir_of_makeDirHere h
      · cases h
  · exact isDir_of_makeDirHere h

/-- A directory that is there need not be made. -/
theorem makePath_of_isDir {p : Path} (h : d.isDir p = true) (refused : Path → Option Text) :
    d.makePath refused p = (.ok (), d) := by
  rw [makePath, makeDirHere, makeDir_of_node? (of_decide_eq_true h)]
  exact congrArg (·, d) (if_pos h)

/-- What is there, but is no directory, stays. -/
theorem makePath_of_node? {p : Path} (h : d.node? p = some node) (hnode : node ≠ .dir)
    (refused : Path → Option Text) :
    d.makePath refused p = (.error (.onPath .alreadyThere p), d) := by
  have hdir : ¬ d.isDir p = true := by
    rw [isDir, decide_eq_true_iff, h, Option.some.injEq]
    exact hnode
  rw [makePath, makeDirHere, makeDir_of_node? h]
  exact congrArg (·, d) (if_neg hdir)

/-! ## Files -/

theorem node?_of_leads {p : Path} {place : Place}
    (h : Leads d true linkLimit [] (d.absolute p).parts place) : d.node? p = d.at? place := by
  rw [node?, locate_eq_ok_iff.2 h]

/-- A file is written where its path leads, unless that is a directory. Where nothing is, it has
the permission bits of a new file. -/
theorem write_eq_put {p : Path} {b : List UInt8} (h : d.write p b = .ok d') :
    ∃ place m, Leads d true linkLimit [] (d.absolute p).parts place ∧ d.at? place ≠ some .dir ∧
      (d.at? place = none → m = newFileMode) ∧ d' = d.put place (.file b m) := by
  rw [write, Steps.except_bind_ok_iff] at h
  obtain ⟨place, hplace, h⟩ := h
  have hway := locate_eq_ok_iff.1 hplace
  split at h
  · cases h
  · next b' m hfile =>
    refine ⟨place, m, hway, by rw [hfile]; simp, fun hnone => ?_, (Except.ok.inj h).symm⟩
    cases hnone.symm.trans hfile
  · next hdir _ => exact ⟨place, newFileMode, hway, hdir, fun _ => rfl, (Except.ok.inj h).symm⟩

/-- A file is written where its path leads, if nothing is there. -/
theorem exists_put_of_write {p : Path} {b : List UInt8} (hnew : d.contains p = false)
    (h : d.write p b = .ok d') :
    ∃ place, Leads d true linkLimit [] (d.absolute p).parts place ∧ d.at? place = none ∧
      d' = d.put place (.file b newFileMode) := by
  obtain ⟨place, m, hway, -, hmode, rfl⟩ := write_eq_put h
  have hnone : d.at? place = none := by
    rwa [contains, node?_of_leads hway, Option.isSome_eq_false_iff, Option.isNone_iff_eq_none]
      at hnew
  exact ⟨place, hway, hnone, by rw [hmode hnone]⟩

/-- Writing a file where no path leads to anything adds the file. -/
theorem grows_write {p : Path} {b : List UInt8} (hnew : d.contains p = false)
    (h : d.write p b = .ok d') : Grows (∃ m, · = .file b m) d d' := by
  obtain ⟨place, -, hnone, rfl⟩ := exists_put_of_write hnew h
  exact grows_put hnone ⟨newFileMode, rfl⟩

/-! ## The way through a directory -/

/-- A path with a further part leads by way of what the path before leads to. -/
theorem Leads.exists_of_append (h : Leads d lastToo n at_ (names ++ rest) p) (hrest : rest ≠ []) :
    ∃ q, Leads d true n at_ names q ∧ ∃ k, Leads d lastToo k q rest p := by
  generalize hall : names ++ rest = all at h
  -- the way is cut at the step at which the names before are used up
  induction h generalizing names with
  | here n p => exact absurd (List.append_eq_nil_iff.1 hall).2 hrest
  | @up n at_ more p hway ih =>
    cases names with
    | nil =>
      obtain rfl : rest = _ := hall
      exact ⟨at_, .here n at_, n, .up hway⟩
    | cons name names =>
      cases hall
      obtain ⟨q, hq, hp⟩ := ih rfl
      exact ⟨q, .up hq, hp⟩
  | @last n at_ name hname hlink hdir =>
    cases names with
    | nil =>
      obtain rfl : rest = _ := hall
      exact ⟨at_, .here n at_, n, .last n at_ hname hlink hdir⟩
    | cons name' names =>
      rw [List.cons_append, List.cons.injEq] at hall
      exact absurd (List.append_eq_nil_iff.1 hall.2).2 hrest
  | @enter n at_ name more p hname hdir hway ih =>
    cases names with
    | nil =>
      obtain rfl : rest = _ := hall
      exact ⟨at_, .here n at_, n, .enter hname hdir hway⟩
    | cons name' names =>
      cases hall
      obtain ⟨q, hq, hp⟩ := ih rfl
      exact ⟨q, .enter hname hdir hq, hp⟩
  | @jump n at_ name more p target hname hlink hmore hway ih =>
    cases names with
    | nil =>
      obtain rfl : rest = _ := hall
      exact ⟨at_, .here _ at_, n + 1, .jump hname hlink hmore hway⟩
    | cons name' names =>
      cases hall
      obtain ⟨q, hq, hp⟩ := ih (List.append_assoc ..)
      exact ⟨q, .jump hname hlink (fun _ => rfl) hq, hp⟩

/-- A single name leads to the entry with that name, if a link there is not followed. -/
theorem Leads.eq_of_entry {name : Text} (h : Leads d false n at_ [name] p)
    (hname : name ≠ ['.', '.']) : p = at_ ++ [name] := by
  cases h with
  | up => exact absurd rfl hname
  | last => rfl
  | enter _ _ h => exact leads_nil_iff.1 h
  | jump _ _ hrest => exact absurd (hrest rfl) (by simp)

/-- A single name leads to the entry with that name, unless that is a link. -/
theorem Leads.eq_of_single {name : Text} (h : Leads d lastToo n at_ [name] p)
    (hname : name ≠ ['.', '.']) (hlink : ∀ t, d.at? (at_ ++ [name]) ≠ some (.link t)) :
    p = at_ ++ [name] := by
  cases h with
  | up => exact absurd rfl hname
  | last => rfl
  | enter _ _ h => exact leads_nil_iff.1 h
  | jump _ hl => exact absurd hl (hlink _)

end MarkerBoard.Disk
