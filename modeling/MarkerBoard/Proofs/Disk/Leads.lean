import MarkerBoard.Proofs.Disk.Put

/-!
# Where paths lead

A path that leads somewhere does so through directories and links, each name in its turn. Most
changes of a disk keep all these, and then the path still leads there.

Main results:

* `Disk.follow_eq_ok_iff` — following names succeeds as the rules of `Disk.Leads` say.
* `Disk.Leads.append_iff` — names after those of a directory are followed from the directory on.
* `Disk.Leads.of_put` — a path leads to the file that has been put where it leads.
* `Disk.resolveFrom_of_leads` — a path that leads somewhere resolves to that place.
-/
namespace MarkerBoard.Disk

/-- Where the names of a link's target start when the link is in the directory at a place. -/
def linkBase (target : Text) (at_ : Place) : Place :=
  if (Path.ofText target).isAbsolute then [] else at_

/-- Names lead from a place to a place by way of directories and a number of links at most. -/
inductive Leads (d : Disk) (lastToo : Bool) : Nat → Place → List Text → Place → Prop
  | here (n : Nat) (p : Place) : Leads d lastToo n p [] p
  | up {n : Nat} {at_ : Place} {rest : List Text} {p : Place} :
      Leads d lastToo n at_.dropLast rest p → Leads d lastToo n at_ (['.', '.'] :: rest) p
  | last (n : Nat) (at_ : Place) {name : Text} : name ≠ ['.', '.'] →
      (∀ t, d.at? (at_ ++ [name]) = some (.link t) → lastToo = false) →
      d.at? (at_ ++ [name]) ≠ some .dir → Leads d lastToo n at_ [name] (at_ ++ [name])
  | enter {n : Nat} {at_ : Place} {name : Text} {rest : List Text} {p : Place} :
      name ≠ ['.', '.'] → d.at? (at_ ++ [name]) = some .dir →
      Leads d lastToo n (at_ ++ [name]) rest p → Leads d lastToo n at_ (name :: rest) p
  | jump {n : Nat} {at_ : Place} {name : Text} {rest : List Text} {p : Place} {target : Text} :
      name ≠ ['.', '.'] → d.at? (at_ ++ [name]) = some (.link target) →
      (rest = [] → lastToo = true) →
      Leads d lastToo n (linkBase target at_) ((Path.ofText target).parts ++ rest) p →
      Leads d lastToo (n + 1) at_ (name :: rest) p

variable {d d' : Disk} {lastToo : Bool} {n : Nat} {at_ p q : Place} {names rest : List Text}

theorem follow_eq_ok_iff : d.follow lastToo n at_ names = .ok p ↔ Leads d lastToo n at_ names p := by
  constructor
  · intro h
    -- each case of following that succeeds is a step of the way
    fun_induction follow d lastToo n at_ names with
    | case1 n at_ =>
      cases h
      exact .here n _
    | case2 n at_ rest ih => exact .up (ih h)
    | case3 n at_ name hname hnone =>
      cases h
      exact .last n at_ hname (fun t ht => by rw [hnone] at ht; cases ht) (by rw [hnone]; simp)
    | case4 => cases h
    | case5 n at_ name hname bytes mode hfile =>
      cases h
      exact .last n at_ hname (fun t ht => by rw [hfile] at ht; cases ht) (by rw [hfile]; simp)
    | case6 => cases h
    | case7 n at_ name rest hname hdir ih => exact .enter hname hdir (ih h)
    | case8 n at_ name rest hname target hlink hlast =>
      cases h
      obtain ⟨rfl, hlast⟩ := hlast
      exact .last n at_ hname (fun _ _ => hlast) (by rw [hlink]; simp)
    | case9 => cases h
    | case10 at_ name rest hname target hlink hlast n path ih =>
      refine .jump hname hlink (fun hrest => ?_) (ih h)
      by_contra hfalse
      exact hlast ⟨hrest, by simpa using hfalse⟩
  · intro h
    induction h with
    | here => rw [follow]
    | up _ ih => rw [follow, if_pos rfl, ih]
    | last n at_ hname hlink hdir =>
      rw [follow, if_neg hname]
      split
      · rfl
      · rfl
      · next h => exact absurd h hdir
      · next t h => simp [hlink t h]
    | enter hname hdir _ ih =>
      rw [follow, if_neg hname, hdir]
      exact ih
    | jump hname hlink hrest _ ih =>
      rw [follow, if_neg hname]
      simp only [hlink]
      rw [if_neg fun h => absurd (hrest h.1) (by rw [h.2]; simp)]
      exact ih

theorem mapError_eq_ok_iff {ε ε' α : Type} {f : ε → ε'} {x : Except ε α} {a : α} :
    x.mapError f = .ok a ↔ x = .ok a := by
  cases x with
  | error e => simp [Except.mapError]
  | ok b => simp [Except.mapError]

/-- A path is located by following its names, and a link at its end. -/
theorem locate_eq_ok_iff {path : Path} :
    d.locate path = .ok p ↔ Leads d true linkLimit [] (d.absolute path).parts p := by
  rw [locate, mapError_eq_ok_iff, follow_eq_ok_iff]

/-- An entry is located by following the names of its path, but not a link at its end. -/
theorem locateEntry_eq_ok_iff {path : Path} :
    d.locateEntry path = .ok p ↔ Leads d false linkLimit [] (d.absolute path).parts p := by
  rw [locateEntry, mapError_eq_ok_iff, follow_eq_ok_iff]

theorem Leads.unique (hp : Leads d lastToo n at_ names p) (hq : Leads d lastToo n at_ names q) :
    p = q := by
  rw [← follow_eq_ok_iff] at hp hq
  rw [hp] at hq
  exact Except.ok.inj hq

/-! ## One name -/

@[simp] theorem leads_nil_iff : Leads d lastToo n at_ [] p ↔ p = at_ := by
  constructor
  · intro h
    cases h
    rfl
  · rintro rfl
    exact .here n p

theorem leads_up_iff :
    Leads d lastToo n at_ (['.', '.'] :: rest) p ↔ Leads d lastToo n at_.dropLast rest p := by
  constructor
  · intro h
    cases h with
    | up h => exact h
    | last _ _ hname => exact absurd rfl hname
    | enter hname => exact absurd rfl hname
    | jump hname => exact absurd rfl hname
  · exact .up

theorem leads_enter_iff {name : Text} (hname : name ≠ ['.', '.'])
    (hdir : d.at? (at_ ++ [name]) = some .dir) :
    Leads d lastToo n at_ (name :: rest) p ↔ Leads d lastToo n (at_ ++ [name]) rest p := by
  constructor
  · intro h
    cases h with
    | up h => exact absurd rfl hname
    | last _ _ _ _ hnot => exact absurd hdir hnot
    | enter _ _ h => exact h
    | jump _ hlink =>
      rw [hdir] at hlink
      cases hlink
  · exact .enter hname hdir

theorem leads_jump_iff {name target : Text} (hname : name ≠ ['.', '.'])
    (hlink : d.at? (at_ ++ [name]) = some (.link target)) (hrest : rest = [] → lastToo = true) :
    Leads d lastToo n at_ (name :: rest) p ↔
      ∃ k, n = k + 1 ∧
        Leads d lastToo k (linkBase target at_) ((Path.ofText target).parts ++ rest) p := by
  constructor
  · intro h
    cases h with
    | up h => exact absurd rfl hname
    | last _ _ _ hlast => exact absurd (hrest rfl) (by rw [hlast target hlink]; simp)
    | enter _ hdir =>
      rw [hlink] at hdir
      cases hdir
    | jump _ hlink' _ h =>
      rw [hlink] at hlink'
      cases hlink'
      exact ⟨_, rfl, h⟩
  · rintro ⟨k, rfl, h⟩
    exact .jump hname hlink hrest h

/-- A file, or nothing at all, is the end of a path. -/
theorem Leads.eq_of_stop {name : Text} (hname : name ≠ ['.', '.'])
    (hdir : d.at? (at_ ++ [name]) ≠ some .dir) (hlink : ∀ t, d.at? (at_ ++ [name]) ≠ some (.link t))
    (h : Leads d lastToo n at_ (name :: rest) p) : rest = [] ∧ p = at_ ++ [name] := by
  cases h with
  | up h => exact absurd rfl hname
  | last => exact ⟨rfl, rfl⟩
  | enter _ hdir' => exact absurd hdir' hdir
  | jump _ hlink' => exact absurd hlink' (hlink _)

/-! ## Several names -/

theorem Leads.mono (h : Leads d lastToo n at_ names p) {m : Nat} (hm : n ≤ m) :
    Leads d lastToo m at_ names p := by
  induction h generalizing m with
  | here _ p => exact .here m p
  | up _ ih => exact .up (ih hm)
  | last _ at_ hname hlink hdir => exact .last m at_ hname hlink hdir
  | enter hname hdir _ ih => exact .enter hname hdir (ih hm)
  | jump hname hlink hrest _ ih =>
    obtain ⟨m, rfl⟩ := Nat.exists_eq_add_of_lt (Nat.lt_of_lt_of_le (Nat.lt_succ_self _) hm)
    rw [show ∀ n : Nat, n + m + 1 = (n + m) + 1 from fun _ => rfl]
    exact .jump hname hlink hrest (ih (by omega))

/-- Names after those of a directory are followed from the directory on. -/
theorem Leads.append_iff (h : Leads d true n at_ names p) (hp : d.at? p = some .dir) :
    ∃ k ≤ n, ∀ (lastToo : Bool) (rest : List Text) (q : Place), rest ≠ [] →
      (Leads d lastToo n at_ (names ++ rest) q ↔ Leads d lastToo k p rest q) := by
  induction h with
  | here n p => exact ⟨n, Nat.le_refl n, fun _ _ _ _ => Iff.rfl⟩
  | up _ ih =>
    obtain ⟨k, hk, ih⟩ := ih hp
    refine ⟨k, hk, fun l rest q hrest => ?_⟩
    rw [List.cons_append, leads_up_iff, ih l rest q hrest]
  | last n at_ _ _ hnot => exact absurd hp hnot
  | enter hname hdir _ ih =>
    obtain ⟨k, hk, ih⟩ := ih hp
    refine ⟨k, hk, fun l rest q hrest => ?_⟩
    rw [List.cons_append, leads_enter_iff hname hdir, ih l rest q hrest]
  | @jump n at_ name rest' p target hname hlink hrest' _ ih =>
    obtain ⟨k, hk, ih⟩ := ih hp
    refine ⟨k, by omega, fun l rest q hrest => ?_⟩
    -- further names follow, so the link is not the last one and is followed in any case
    have hne : rest' ++ rest = [] → l = true := fun h => absurd (List.append_eq_nil_iff.1 h).2 hrest
    rw [List.cons_append, leads_jump_iff hname hlink hne, ← ih l rest q hrest, List.append_assoc]
    constructor
    · rintro ⟨k, hk, h⟩
      rw [show n = k by omega]
      exact h
    · exact fun h => ⟨n, rfl, h⟩

/-! ## Other disks -/

/-- The disk has at every place what another one has there, up to the contents of files, and
perhaps more, but no more links. -/
structure Extends (d' d : Disk) : Prop where
  dir : ∀ q, d.at? q = some .dir → d'.at? q = some .dir
  link : ∀ q t, d.at? q = some (.link t) → d'.at? q = some (.link t)
  file : ∀ q b m, d.at? q = some (.file b m) → ∃ b m, d'.at? q = some (.file b m)
  no_link : ∀ q t, d'.at? q = some (.link t) → d.at? q = some (.link t)

/-- A file that is put where nothing was, or another file, leaves all directories and links. -/
theorem extends_put {b : List UInt8} {m : Nat} (hp : p ≠ [])
    (h : ∀ n, d.at? p = some n → ∃ b m, n = .file b m) : Extends (d.put p (.file b m)) d := by
  have hkeep : ∀ q n, d.at? q = some n → (∀ b m, n ≠ .file b m) →
      (d.put p (.file b m)).at? q = some n := by
    intro q n hq hn
    rw [at?_put_of_ne]
    · exact hq
    · rintro rfl
      obtain ⟨b, m, hfile⟩ := h n hq
      exact hn b m hfile
  refine ⟨fun q hq => hkeep q _ hq (by simp), fun q t hq => hkeep q _ hq (by simp), ?_, ?_⟩
  · intro q b₁ m₁ hq
    by_cases hpq : p = q
    · rw [← hpq, at?_put_self hp]
      exact ⟨b, m, rfl⟩
    · rw [at?_put_of_ne hpq]
      exact ⟨b₁, m₁, hq⟩
  · intro q t hq
    by_cases hpq : p = q
    · rw [← hpq, at?_put_self hp] at hq
      cases hq
    · rwa [at?_put_of_ne hpq] at hq

theorem extends_put_of_none {b : List UInt8} {m : Nat} (h : d.at? p = none) :
    Extends (d.put p (.file b m)) d :=
  extends_put (ne_nil_of_at?_eq_none h) fun n hn => by rw [h] at hn; cases hn

/-- A path that leads to something still leads there when more is on the disk. -/
theorem Leads.extend (h : Leads d lastToo n at_ names p) (hd : Extends d' d)
    (hp : d.at? p ≠ none) : Leads d' lastToo n at_ names p := by
  induction h with
  | here n p => exact .here n p
  | up _ ih => exact .up (ih hp)
  | last n at_ hname hlink hdir =>
    refine .last n at_ hname (fun t ht => hlink t (hd.no_link _ t ht)) ?_
    cases hat : d.at? (at_ ++ [_]) with
    | none => exact absurd hat hp
    | some node =>
      cases node with
      | file b m =>
        obtain ⟨b, m, h⟩ := hd.file _ _ _ hat
        rw [h]
        simp
      | dir => exact absurd hat hdir
      | link t =>
        rw [hd.link _ t hat]
        simp
  | enter hname hdir _ ih => exact .enter hname (hd.dir _ hdir) (ih hp)
  | jump hname hlink hrest _ ih => exact .jump hname (hd.link _ _ hlink) hrest (ih hp)

/-- A path that leads somewhere resolves to that place, also on a disk with other entries: what
counts are the links on the way, and that there are no more of them. -/
theorem Leads.resolveFrom_eq (h : Leads d true n at_ names p)
    (hlink : ∀ q t, d.at? q = some (.link t) → d'.at? q = some (.link t))
    (hmore : ∀ q, q = p ∨ d.at? q = some .dir → ∀ t, d'.at? q = some (.link t) →
      d.at? q = some (.link t)) : d'.resolveFrom n at_ names = p := by
  -- where there is no link, one goes on with the next name
  have hstay : ∀ {n : Nat} {at_ : Place} {name : Text} {rest : List Text}, name ≠ ['.', '.'] →
      (∀ t, d'.at? (at_ ++ [name]) ≠ some (.link t)) →
      d'.resolveFrom n at_ (name :: rest) = d'.resolveFrom n (at_ ++ [name]) rest := by
    intro n at_ name rest hname hnot
    rw [resolveFrom, if_neg hname]
    exact fun _ t _ h => hnot t h
  induction h with
  | here => rw [resolveFrom]
  | up _ ih =>
    rw [resolveFrom.eq_def]
    simpa using ih hmore
  | last n at_ hname hnot _ =>
    rw [hstay hname fun t ht => absurd (hnot t (hmore _ (.inl rfl) t ht)) (by simp), resolveFrom]
  | @enter n at_ name rest p hname hdir _ ih =>
    rw [hstay hname fun t ht => ?_, ih hmore]
    rw [hmore _ (.inr hdir) t ht] at hdir
    cases hdir
  | @jump n at_ name rest p target hname hl _ _ ih =>
    rw [resolveFrom, if_neg hname]
    · exact ih hmore
    · exact hlink _ target hl

/-- A path that leads somewhere resolves to that place, also on a disk with the same links that
has less on it. -/
theorem resolveFrom_of_leads (h : Leads d true n at_ names p)
    (hlink : ∀ q t, d.at? q = some (.link t) ↔ d'.at? q = some (.link t)) :
    d'.resolveFrom n at_ names = p :=
  h.resolveFrom_eq (fun q t => (hlink q t).1) fun q _ t => (hlink q t).2

end MarkerBoard.Disk
