import MarkerBoard.Proofs.Disk.Sound

/-!
# Changes that paths do not see

Some files are dull: nobody cares whether a path leads to one of them or to nothing at all. A change
is hidden behind a place if a dull file comes to stand there, and elsewhere only dull files and
directories are made where nothing was. If the place was idle, no path to anything else led through
it, so all paths to directories and to files that are not dull lead where they led.

The converse holds but for one case. A path can go up again from a name that does not exist, and so
lead nowhere. It leads somewhere as soon as a directory with that name is made.

Main results:

* `Disk.Leads.hidden` — a path that leads to something still leads there.
* `Disk.Leads.of_hidden` — a path that leads to something led there before, unless it strays.
-/
namespace MarkerBoard.Disk

variable {d d' d'' : Disk} {lastToo : Bool} {n : Nat} {at_ p q r place : Place}
  {names rest : List Text} {node : Node} {b : List UInt8} {m : Nat} {t : Text}
  {dull dull' : List UInt8 → Prop} {made : Prop}

/-- An entry that matters when a path leads to it. -/
def IsLoud (dull : List UInt8 → Prop) : Node → Prop
  | .file b _ => ¬ dull b
  | .dir => True
  | .link _ => False

/-- The entry can be replaced by a dull file: there is none, or a dull file, or a link that leads to
nothing else. -/
inductive IsIdle (dull : List UInt8 → Prop) (d : Disk) (place : Place) : Prop
  | none : d.at? place = .none → IsIdle dull d place
  | file {b : List UInt8} {m : Nat} : d.at? place = some (.file b m) → dull b →
      IsIdle dull d place
  | link {t : Text} : d.at? place = some (.link t) →
      (∀ n r node, Leads d true n (linkBase t place.dropLast) (Path.ofText t).parts r →
        d.at? r = some node → ¬ IsLoud dull node) → IsIdle dull d place

/-- An entry that may come to stand where nothing was: a dull file or, if any are made at all, a
directory. -/
def IsFaint (dull : List UInt8 → Prop) (made : Prop) (node : Node) : Prop :=
  made ∧ node = .dir ∨ ∃ b m, node = .file b m ∧ dull b

/-- The second disk has what the first one has, but a dull file may stand at a place, and elsewhere
there may be faint entries where nothing was. -/
structure Hidden (dull : List UInt8 → Prop) (made : Prop) (place : Place) (d d' : Disk) : Prop where
  here : d'.here = d.here
  own : d'.at? place = d.at? place ∨ ∃ b m, d'.at? place = some (.file b m) ∧ dull b
  other : ∀ q, q ≠ place →
    d'.at? q = d.at? q ∨ d.at? q = none ∧ ∃ node, IsFaint dull made node ∧ d'.at? q = some node

/-- Names go up again after a directory that is new on the second disk. -/
inductive Strays (d d' : Disk) : Place → List Text → Prop
  | out {at_ : Place} {name : Text} {rest : List Text} : name ≠ ['.', '.'] →
      d.at? (at_ ++ [name]) = none → d'.at? (at_ ++ [name]) = some .dir → ['.', '.'] ∈ rest →
      Strays d d' at_ (name :: rest)
  | up {at_ : Place} {rest : List Text} :
      Strays d d' at_.dropLast rest → Strays d d' at_ (['.', '.'] :: rest)
  | enter {at_ : Place} {name : Text} {rest : List Text} : name ≠ ['.', '.'] →
      d.at? (at_ ++ [name]) = some .dir → Strays d d' (at_ ++ [name]) rest →
      Strays d d' at_ (name :: rest)
  | jump {at_ : Place} {name target : Text} {rest : List Text} : name ≠ ['.', '.'] →
      d.at? (at_ ++ [name]) = some (.link target) →
      Strays d d' (linkBase target at_) ((Path.ofText target).parts ++ rest) →
      Strays d d' at_ (name :: rest)

/-! ## Entries -/

theorem not_isFaint_link (t : Text) : ¬ IsFaint dull made (.link t) := by
  rintro (⟨-, h⟩ | ⟨b, m, h, -⟩)
  · cases h
  · cases h

theorem IsIdle.ne_of_isLoud (h : IsIdle dull d place) (hq : d.at? q = some node)
    (hloud : IsLoud dull node) : q ≠ place := by
  rintro rfl
  cases h with
  | none hnone => cases hnone.symm.trans hq
  | file hfile hdull =>
    cases hfile.symm.trans hq
    exact hloud hdull
  | link hlink =>
    cases hlink.symm.trans hq
    exact hloud

theorem IsIdle.mono (h : IsIdle dull d place) (hdull : ∀ b, dull b → dull' b) :
    IsIdle dull' d place := by
  cases h with
  | none hnone => exact .none hnone
  | file hfile hb => exact .file hfile (hdull _ hb)
  | link hlink hend =>
    refine .link hlink fun n r node hway hr hloud => hend n r node hway hr ?_
    cases node with
    | file b m => exact fun hb => hloud (hdull b hb)
    | dir => exact trivial
    | link => exact hloud

namespace Hidden

theorem refl (dull : List UInt8 → Prop) (made : Prop) (place : Place) (d : Disk) :
    Hidden dull made place d d :=
  ⟨rfl, .inl rfl, fun _ _ => .inl rfl⟩

/-- All that a hidden change can do: nothing is changed, or a dull file comes to stand there, or a
directory is made where nothing was. -/
theorem at?_cases (h : Hidden dull made place d d') (q : Place) :
    d'.at? q = d.at? q ∨ (∃ b m, d'.at? q = some (.file b m) ∧ dull b) ∨
      made ∧ d.at? q = none ∧ d'.at? q = some .dir := by
  by_cases hplace : q = place
  · rw [hplace]
    exact h.own.imp_right .inl
  · rcases h.other q hplace with heq | ⟨hnone, node, ⟨hmade, rfl⟩ | ⟨b, m, rfl, hb⟩, hnode⟩
    · exact .inl heq
    · exact .inr (.inr ⟨hmade, hnone, hnode⟩)
    · exact .inr (.inl ⟨b, m, hnode, hb⟩)

/-- What matters on the first disk is on the second one. -/
theorem at?_of_isLoud (h : Hidden dull made place d d') (hidle : IsIdle dull d place)
    (hq : d.at? q = some node) (hloud : IsLoud dull node) : d'.at? q = some node := by
  rcases h.other q (hidle.ne_of_isLoud hq hloud) with heq | ⟨hnone, -⟩
  · rw [heq, hq]
  · cases hnone.symm.trans hq

theorem at?_of_link (h : Hidden dull made place d d') (hne : q ≠ place)
    (hq : d.at? q = some (.link t)) : d'.at? q = some (.link t) := by
  rcases h.other q hne with heq | ⟨hnone, -⟩
  · rw [heq, hq]
  · cases hnone.symm.trans hq

/-- No links are new. -/
theorem link_of_link (h : Hidden dull made place d d') (hq : d'.at? q = some (.link t)) :
    d.at? q = some (.link t) := by
  rcases h.at?_cases q with heq | ⟨b, m, hfile, -⟩ | ⟨-, -, hdir⟩
  · rwa [← heq]
  · cases hfile.symm.trans hq
  · cases hdir.symm.trans hq

/-- A link stays, unless a file comes to stand for it. -/
theorem link_or_file (h : Hidden dull made place d d') (hq : d.at? q = some (.link t)) :
    d'.at? q = some (.link t) ∨ ∃ b m, d'.at? q = some (.file b m) := by
  rcases h.at?_cases q with heq | ⟨b, m, hfile, -⟩ | ⟨-, hnone, -⟩
  · exact .inl (heq.trans hq)
  · exact .inr ⟨b, m, hfile⟩
  · cases hnone.symm.trans hq

/-- A new directory stands where nothing was, if any are made. -/
theorem dir_of_dir (h : Hidden dull made place d d') (hq : d'.at? q = some .dir) :
    d.at? q = some .dir ∨ made ∧ d.at? q = none := by
  rcases h.at?_cases q with heq | ⟨b, m, hfile, -⟩ | ⟨hmade, hnone, -⟩
  · exact .inl (by rw [← heq, hq])
  · cases hfile.symm.trans hq
  · exact .inr ⟨hmade, hnone⟩

/-- A file that matters is not new. -/
theorem file_of_file (h : Hidden dull made place d d') (hq : d'.at? q = some (.file b m))
    (hloud : ¬ dull b) : d.at? q = some (.file b m) := by
  rcases h.at?_cases q with heq | ⟨b', m', hfile, hdull⟩ | ⟨-, -, hdir⟩
  · rwa [← heq]
  · cases hfile.symm.trans hq
    exact absurd hdull hloud
  · cases hdir.symm.trans hq

theorem at?_ne_none (h : Hidden dull made place d d') (hq : d.at? q ≠ none) :
    d'.at? q ≠ none := by
  rcases h.at?_cases q with heq | ⟨b, m, hfile, -⟩ | ⟨-, hnone, -⟩
  · rwa [heq]
  · rw [hfile]
    simp
  · exact absurd hnone hq

/-- Faint entries, and then a dull file at the place. -/
theorem grows_put (h : Hidden dull made place d d') (hgrows : Grows (IsFaint dull made) d' d'')
    (hplace : place ≠ []) (hb : dull b) :
    Hidden dull made place d (d''.put place (.file b m)) := by
  refine ⟨hgrows.here.trans h.here, .inr ⟨b, m, at?_put_self hplace, hb⟩, fun q hq => ?_⟩
  rw [at?_put_of_ne (Ne.symm hq)]
  rcases hgrows.at?_eq q with heq | ⟨hnone, hnew⟩
  · rw [heq]
    exact h.other q hq
  · rcases h.other q hq with heq | ⟨-, node, -, hnode⟩
    · exact .inr ⟨heq ▸ hnone, hnew⟩
    · cases hnone.symm.trans hnode

end Hidden

/-! ## Paths -/

/-- A path that leads to something that matters still leads there after a hidden change. -/
theorem Leads.hidden (h : Leads d true n at_ names r) (hd : d.IsTree)
    (hhid : Hidden dull made place d d') (hidle : IsIdle dull d place)
    (hat : d.at? at_ = some .dir) (hr : d.at? r = some node) (hloud : IsLoud dull node) :
    Leads d' true n at_ names r := by
  induction h with
  | here n p => exact .here n p
  | up _ ih => exact .up (ih (hd.dir_dropLast hat) hr)
  | @last n at_ name hname hlink hdir =>
    have hr' := hhid.at?_of_isLoud hidle hr hloud
    rw [hr] at hlink hdir
    exact .last n at_ hname (by rwa [hr']) (by rwa [hr'])
  | enter hname hdir _ ih =>
    exact .enter hname (hhid.at?_of_isLoud hidle hdir trivial) (ih hdir hr)
  | @jump n at_ name rest r target hname hlink hrest hway ih =>
    refine .jump hname (hhid.at?_of_link ?_ hlink) hrest (ih (at?_linkBase hat target) hr)
    -- through an idle place the path would lead to nothing that matters, not even to a directory
    rintro rfl
    cases hidle with
    | none hnone => cases hnone.symm.trans hlink
    | file hfile => cases hfile.symm.trans hlink
    | link hlink' hend =>
      cases hlink'.symm.trans hlink
      rw [List.dropLast_concat] at hend
      by_cases hnil : rest = []
      · rw [hnil, List.append_nil] at hway
        exact hend n r node hway hr hloud
      · obtain ⟨q, hq, hway, -⟩ := hway.exists_dir (fun _ => hd.dir_dropLast)
          (at?_linkBase hat target) hnil
        exact hend n q .dir hway hq trivial

/-- A way without links that does not go up stays below where it starts. -/
theorem Leads.exists_append (h : Leads d lastToo n (p ++ q) names r) (hup : ['.', '.'] ∉ names)
    (hlink : ∀ more t, d.at? (p ++ more) ≠ some (.link t)) : ∃ more, r = p ++ more := by
  generalize hat : p ++ q = at_ at h
  induction h generalizing q with
  | here => exact ⟨q, hat.symm⟩
  | up => exact absurd List.mem_cons_self hup
  | @last n at_ name =>
    subst hat
    exact ⟨q ++ [name], List.append_assoc ..⟩
  | @enter n at_ name rest r _ _ _ ih =>
    subst hat
    exact ih (fun hmem => hup (List.mem_cons_of_mem _ hmem)) (List.append_assoc ..).symm
  | jump _ hl =>
    subst hat
    rw [List.append_assoc] at hl
    exact absurd hl (hlink _ _)

/-- Nothing is below a place without an entry. -/
theorem IsTree.eq_none_of_append (hd : d.IsTree) (hnone : d.at? p = none) (more : List Text) :
    d.at? (p ++ more) = none := by
  by_contra hne
  by_cases hnil : more = []
  · rw [hnil, List.append_nil] at hne
    exact hne hnone
  · have hdir := hd.dir_of_append hne hnil
    cases hnone.symm.trans hdir

/-- A path that leads to a file that matters led there before the hidden change, unless it
strays. -/
theorem Leads.of_hidden (h : Leads d' true n at_ names r) (hd : d.IsTree)
    (hhid : Hidden dull made place d d') (hat : d.at? at_ = some .dir)
    (hr : d.at? r = some (.file b m)) (hstray : ¬ Strays d d' at_ names) :
    Leads d true n at_ names r := by
  induction h with
  | here n p => exact .here n p
  | up _ ih => exact .up (ih (hd.dir_dropLast hat) hr fun hs => hstray (.up hs))
  | @last n at_ name hname _ _ =>
    refine .last n at_ hname (fun t ht => ?_) (by rw [hr]; simp)
    cases hr.symm.trans ht
  | @enter n at_ name rest r hname hdir hway ih =>
    rcases hhid.dir_of_dir hdir with hold | ⟨-, hnone⟩
    · exact .enter hname hold (ih hold hr fun hs => hstray (.enter hname hold hs))
    · -- the way does not get out of the new directory any more, and there is no old file in it
      have hnew := hd.eq_none_of_append hnone
      have hup : ['.', '.'] ∉ rest := fun hmem => hstray (.out hname hnone hdir hmem)
      rw [← List.append_nil (at_ ++ [name])] at hway
      obtain ⟨more, rfl⟩ := hway.exists_append hup fun more t ht => by
        cases (hnew more).symm.trans (hhid.link_of_link ht)
      cases (hnew more).symm.trans hr
  | @jump n at_ name rest r target hname hlink hrest _ ih =>
    have hold := hhid.link_of_link hlink
    exact .jump hname hold hrest
      (ih (at?_linkBase hat target) hr fun hs => hstray (.jump hname hold hs))

/-! ## Strays -/

/-- No names stray if no directory is new. -/
theorem not_strays (h : ∀ q, d'.at? q = some .dir → d.at? q = some .dir) :
    ¬ Strays d d' at_ names := by
  intro hs
  induction hs with
  | out _ hnone hdir => cases hnone.symm.trans (h _ hdir)
  | up _ ih => exact ih
  | enter _ _ _ ih => exact ih
  | jump _ _ _ ih => exact ih

/-- Names that lead to a directory do not stray, but those after them may. -/
theorem Strays.of_append (h : Strays d d' at_ (names ++ rest)) (hway : Leads d true n at_ names p)
    (hp : d.at? p = some .dir) : Strays d d' p rest := by
  induction hway with
  | here => exact h
  | up _ ih =>
    cases h with
    | out hname => exact absurd rfl hname
    | up h => exact ih h hp
    | enter hname => exact absurd rfl hname
    | jump hname => exact absurd rfl hname
  | last _ _ _ _ hdir => exact absurd hp hdir
  | enter hname hdir _ ih =>
    cases h with
    | out _ hnone => cases hnone.symm.trans hdir
    | up => exact absurd rfl hname
    | enter _ _ h => exact ih h hp
    | jump _ hlink => cases hlink.symm.trans hdir
  | jump hname hlink _ _ ih =>
    cases h with
    | out _ hnone => cases hnone.symm.trans hlink
    | up => exact absurd rfl hname
    | enter _ hdir => cases hdir.symm.trans hlink
    | jump _ hlink' h =>
      cases hlink'.symm.trans hlink
      refine ih ?_ hp
      rw [List.append_assoc]
      exact h

/-- The names of an entry stray only if the entry is a link whose target does. -/
theorem Strays.exists_link (h : Strays d d' p names) (hd : d.IsSound)
    (hat : d.at? (p ++ names) ≠ none) : ∃ t, d.at? (p ++ names) = some (.link t) ∧
      Strays d d' (linkBase t (p ++ names).dropLast) (Path.ofText t).parts := by
  induction names generalizing p with
  | nil => cases h
  | cons name names ih =>
    have hup : ['.', '.'] ∉ name :: names :=
      fun hmem => hd.no_up _ hat (List.mem_append_right p hmem)
    rw [List.append_cons] at hat ⊢
    cases h with
    | out _ _ _ hmem => exact absurd (List.mem_cons_of_mem _ hmem) hup
    | up => exact absurd List.mem_cons_self hup
    | enter _ _ h => exact ih h hat
    | @jump _ _ target _ _ hlink h =>
      -- only a directory has entries in it, so the link is the entry
      obtain rfl : names = [] := by
        by_contra hne
        cases hlink.symm.trans (hd.tree.dir_of_append hat hne)
      rw [List.append_nil] at h ⊢
      rw [List.dropLast_concat]
      exact ⟨target, hlink, h⟩

end MarkerBoard.Disk
