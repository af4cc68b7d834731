import Mathlib
import MarkerBoard.Proofs.Disk.Sound

/-!
# What a walk selects

A walk looks at the entries of a disk; what it is to find is said by paths. A file below the root is
selected if its path leads by way of directories alone, none of them a link and none with an
excluded name, and if it is not ignored itself. A link at the end of the path is a file, unless it
leads to a directory.

Main results:

* `Disk.at?_of_named?` — a path without links on its way names the entry that its names spell.
* `Walk.mem_files_iff_isSelected` — a walk finds the selected files.
* `Walk.precedes_iff` — the order of a walk, directory by directory.
* `Walk.eq_of_pairwise_precedes` — there is no other such order of the same files.
* `Walk.files_eq_append` — a walk goes from a directory to its subdirectories.
* `Walk.files_eq_filter` — with more excluded names a walk leaves files out.
* `Walk.files_of_isSound` — what a walk finds, all together.
-/
namespace MarkerBoard

/-! ## Entries and their paths -/

namespace Disk

variable {d : Disk} {place p : Place} {names : List Text} {node : Node}

/-- What a path names: a link at its end stands for itself. -/
def named? (d : Disk) (p : Path) : Option Node :=
  match d.locateEntry p with
  | .ok place => d.at? place
  | .error _ => none

theorem named?_eq_some_iff : d.named? ⟨['/'], names⟩ = some node ↔
    ∃ q, Leads d false linkLimit [] names q ∧ d.at? q = some node := by
  have habs : (d.absolute ⟨['/'], names⟩).parts = names := rfl
  rw [named?]
  constructor
  · intro h
    split at h
    · next q hq => exact ⟨q, habs ▸ locateEntry_eq_ok_iff.1 hq, h⟩
    · cases h
  · rintro ⟨q, hway, hq⟩
    rw [locateEntry_eq_ok_iff.2 (habs.symm ▸ hway)]
    exact hq

/-- The names of an entry are a path to it. -/
theorem IsSound.named?_eq (hd : d.IsSound) (hat : d.at? p = some node) :
    d.named? ⟨['/'], p⟩ = some node :=
  named?_eq_some_iff.2 ⟨p, hd.leads (p := []) linkLimit (by simp [hat]), hat⟩

/-- A path from a directory on, without links on its way, names the entry that its names spell. -/
theorem at?_of_named? (hd : d.IsSound) (hdir : d.at? place = some .dir)
    (hup : ['.', '.'] ∉ names)
    (hlink : ∀ dir, dir ≠ [] → dir <+: names.dropLast → ∀ t,
      d.named? ⟨['/'], place ++ dir⟩ ≠ some (.link t))
    (h : d.named? ⟨['/'], place ++ names⟩ = some node) : d.at? (place ++ names) = some node := by
  induction names generalizing place with
  | nil =>
    rw [List.append_nil] at h ⊢
    rw [← h, hd.named?_eq hdir, hdir]
  | cons name rest ih =>
    rw [List.mem_cons, not_or] at hup
    obtain ⟨q, hway, hq⟩ := named?_eq_some_iff.1 h
    -- the names are followed from the directory on
    have hplace : Leads d true linkLimit [] place place := hd.leads_of_dir hdir
    obtain ⟨k, -, hk⟩ := hplace.append_iff hdir
    have hstep : Leads d false k place (name :: rest) q := (hk false _ q (by simp)).1 hway
    cases hstep with
    | up => exact absurd rfl hup.1
    | last => exact hq
    | enter _ hsub _ =>
      rw [List.append_cons] at h ⊢
      refine ih hsub hup.2 (fun dir hne hpre t => ?_) h
      have hrest : rest ≠ [] := by
        rintro rfl
        exact hne (List.prefix_nil.1 hpre)
      rw [← List.append_cons]
      refine hlink (name :: dir) (by simp) ?_ t
      rw [List.dropLast_cons_of_ne_nil hrest]
      exact (List.prefix_cons_inj name).2 hpre
    | jump _ hl hrest _ =>
      -- the link stands on the way, since it is not followed at the end
      have hne : rest ≠ [] := fun hnil => absurd (hrest hnil) (by simp)
      refine absurd (hd.named?_eq hl) (hlink [name] (by simp) ?_ _)
      rw [List.dropLast_cons_of_ne_nil hne]
      exact (List.prefix_cons_inj name).2 (List.nil_prefix)

end Disk

namespace Walk

open Disk

variable {d : Disk} {root : Path} {place : Place} {names : List Text} {node : Node}
  {excluded : List Text} {ignored : Text → Bool}

/-! ## The selected files -/

/-- The names lead from a place to a file that a walk is to find. -/
structure IsSelected (d : Disk) (place : Place) (excluded : List Text) (ignored : Text → Bool)
    (names : List Text) : Prop where
  ne_nil : names ≠ []
  isName : ∀ n ∈ names, Path.IsName n
  isThere : d.named? ⟨['/'], place ++ names⟩ ≠ none
  not_dir : d.isDir ⟨['/'], place ++ names⟩ = false
  no_link : ∀ dir, dir ≠ [] → dir <+: names.dropLast → ∀ t,
    d.named? ⟨['/'], place ++ dir⟩ ≠ some (.link t)
  not_excluded : ∀ n ∈ names.dropLast, n ∉ excluded
  not_ignored : ignored (Text.join ['/'] names) = false

theorem isOpen_iff : isOpen excluded names = true ↔ ∀ n ∈ names.dropLast, n ∉ excluded := by
  simp [isOpen]

/-- An entry counts as a file unless its path leads to a directory. -/
theorem isFile_eq (hd : d.IsSound) (hat : d.at? (place ++ names) = some node) :
    isFile d place names node = !d.isDir ⟨['/'], place ++ names⟩ := by
  cases node with
  | file b m =>
    -- the path leads to the file and nowhere else
    have hway : Leads d true linkLimit [] (place ++ names) (place ++ names) :=
      (hd.leads (p := []) linkLimit (by simp [hat])).of_no_link (by simp [hat]) true
    rw [isFile, eq_comm, Bool.not_eq_true', ← Bool.not_eq_true, isDir_iff]
    rintro ⟨q, hq, hdir⟩
    rw [Leads.unique hq hway, hat] at hdir
    cases hdir
  | dir =>
    have hdir : d.isDir ⟨['/'], place ++ names⟩ = true :=
      isDir_iff.2 ⟨_, hd.leads_of_dir hat, hat⟩
    rw [isFile, hdir]
    rfl
  | link t => rfl

/-- A walk finds the selected files. -/
theorem mem_files_iff_isSelected (hd : d.IsSound)
    (hname : ∀ e ∈ d.entries, ∀ n ∈ e.1, Path.IsName n) (hroot : d.locate root = .ok place)
    (hdir : d.at? place = some .dir) :
    names ∈ files d root excluded ignored ↔ IsSelected d place excluded ignored names := by
  rw [mem_files_iff (locate_eq_ok_iff.1 hroot) hdir hd.nodup, isOpen_iff]
  constructor
  · rintro ⟨hne, ⟨node, hat, hfile⟩, hopen, hseen⟩
    have hmem := mem_entries_of_at? hat (by simp [hne])
    refine ⟨hne, fun n hn => hname _ hmem n (List.mem_append_right _ hn), ?_, ?_, ?_, hopen, hseen⟩
    · rw [hd.named?_eq hat]
      simp
    · rw [isFile_eq hd hat] at hfile
      simpa using hfile
    · -- what has entries in it is a directory
      rintro sub hsub ⟨more, hmore⟩ t
      have hpre : place ++ names = place ++ sub ++ (more ++ [names.getLast hne]) := by
        rw [List.append_assoc, ← List.append_assoc sub, hmore, List.dropLast_append_getLast]
      have hsubdir : d.at? (place ++ sub) = some .dir :=
        hd.tree.dir_of_append (by rw [← hpre, hat]; simp) (by simp)
      rw [hd.named?_eq hsubdir]
      simp
  · rintro ⟨hne, hisName, hthere, hnot, hlink, hopen, hseen⟩
    obtain ⟨node, hnode⟩ := Option.ne_none_iff_exists'.1 hthere
    have hat := at?_of_named? hd hdir (fun hup => (hisName _ hup).2.2.1 rfl) hlink hnode
    refine ⟨hne, ⟨node, hat, ?_⟩, hopen, hseen⟩
    rw [isFile_eq hd hat, hnot]
    rfl

/-! ## Their order -/

/-- The names of a file come before those of another one. -/
inductive Precedes : List Text → List Text → Prop
  /-- Two files of a directory. -/
  | file (dir : List Text) {x y : Text} : x ≠ y → Text.isUpTo x y = true →
      Precedes (dir ++ [x]) (dir ++ [y])
  /-- A file of a directory, and one in a subdirectory. -/
  | below (dir : List Text) {x y : Text} {ys : List Text} : ys ≠ [] →
      Precedes (dir ++ [x]) (dir ++ y :: ys)
  /-- Files in two subdirectories. -/
  | apart (dir : List Text) {x y : Text} {xs ys : List Text} : xs ≠ [] → ys ≠ [] → x ≠ y →
      Text.isUpTo x y = true → Precedes (dir ++ x :: xs) (dir ++ y :: ys)

theorem Precedes.cons {a b : List Text} (h : Precedes a b) (name : Text) :
    Precedes (name :: a) (name :: b) := by
  cases h with
  | file dir hne hle => exact .file (name :: dir) hne hle
  | below dir hys => exact .below (name :: dir) hys
  | apart dir hxs hys hne hle => exact .apart (name :: dir) hxs hys hne hle

theorem before_append_left {a b : List Text} (ha : a ≠ []) (hb : b ≠ []) (dir : List Text) :
    before (dir ++ a) (dir ++ b) = before a b := by
  induction dir with
  | nil => rfl
  | cons x dir ih =>
    obtain ⟨y, ys, hys⟩ := List.exists_cons_of_ne_nil (List.append_ne_nil_of_right_ne_nil dir ha)
    obtain ⟨z, zs, hzs⟩ := List.exists_cons_of_ne_nil (List.append_ne_nil_of_right_ne_nil dir hb)
    rw [List.cons_append, List.cons_append, ← ih, hys, hzs, Bool.eq_iff_iff, before_cons_iff]
    simp

/-- Of two files one comes before the other in a walk. -/
theorem precedes_iff {a b : List Text} (ha : a ≠ []) (hb : b ≠ []) :
    Precedes a b ↔ a ≠ b ∧ before a b = true := by
  constructor
  · intro h
    cases h with
    | file dir hne hle =>
      rw [before_append_left (by simp) (by simp)]
      exact ⟨by simpa using hne, hle⟩
    | below dir hys =>
      rw [before_append_left (by simp) (by simp)]
      obtain ⟨y, ys, rfl⟩ := List.exists_cons_of_ne_nil hys
      exact ⟨by simp, rfl⟩
    | apart dir hxs hys hne hle =>
      rw [before_append_left (by simp) (by simp)]
      obtain ⟨x, xs, rfl⟩ := List.exists_cons_of_ne_nil hxs
      obtain ⟨y, ys, rfl⟩ := List.exists_cons_of_ne_nil hys
      exact ⟨by simp [hne], before_cons_iff.2 (.inl ⟨hne, hle⟩)⟩
  · rintro ⟨hab, h⟩
    -- the directories that the two files have in common go first
    induction a generalizing b with
    | nil => exact absurd rfl ha
    | cons x xs ih =>
      obtain ⟨y, ys, rfl⟩ := List.exists_cons_of_ne_nil hb
      cases xs with
      | nil =>
        cases ys with
        | nil => exact .file [] (fun hxy => hab (by rw [hxy])) h
        | cons y' ys => exact .below [] (by simp)
      | cons x' xs =>
        cases ys with
        | nil => cases h
        | cons y' ys =>
          rcases before_cons_iff.1 h with ⟨hxy, hle⟩ | ⟨rfl, hrest⟩
          · exact .apart [] (by simp) (by simp) hxy hle
          · exact (ih (by simp) (by simp) (fun heq => hab (by rw [heq])) hrest).cons x

theorem Precedes.ne_nil {a b : List Text} (h : Precedes a b) : a ≠ [] ∧ b ≠ [] := by
  cases h <;> simp

/-- Files in this order are in no other one. -/
theorem eq_of_pairwise_precedes {l l' : List (List Text)} (hl : l.Pairwise Precedes)
    (hl' : l'.Pairwise Precedes) (h : ∀ names, names ∈ l ↔ names ∈ l') : l = l' := by
  have hne : ∀ {a b : List Text}, Precedes a b → a ≠ b ∧ before a b = true := fun hab =>
    (precedes_iff hab.ne_nil.1 hab.ne_nil.2).1 hab
  refine List.Perm.eq_of_pairwise (fun a b _ _ hab hba => ?_) hl hl' ?_
  · exact before_antisymm (hne hab).2 (hne hba).2
  · rw [List.perm_ext_iff_of_nodup (hl.imp fun hab => (hne hab).1)
      (hl'.imp fun hab => (hne hab).1)]
    exact h

section Root

variable (hway : Leads d true linkLimit [] (d.absolute root).parts place)
  (hdir : d.at? place = some .dir) (hnodup : (d.entries.map Prod.fst).Nodup)

include hway hdir hnodup

theorem pairwise_precedes_files (excluded : List Text) (ignored : Text → Bool) :
    (files d root excluded ignored).Pairwise Precedes := by
  have hne : ∀ names ∈ files d root excluded ignored, names ≠ [] := fun names hmem =>
    ((mem_files_iff hway hdir hnodup).1 hmem).1
  refine ((pairwise_files hway hdir).and (nodup_files hway hdir hnodup)).imp_of_mem ?_
  exact fun ha hb h => (precedes_iff (hne _ ha) (hne _ hb)).2 h.symm

/-! ## More excluded names -/

/-- With more excluded names a walk leaves out the files below them. -/
theorem files_eq_filter {more : List Text} (hmore : excluded ⊆ more) :
    files d root more ignored = (files d root excluded ignored).filter (isOpen more) := by
  refine eq_of_pairwise_precedes (pairwise_precedes_files hway hdir hnodup _ _)
    ((pairwise_precedes_files hway hdir hnodup _ _).filter _) fun names => ?_
  rw [List.mem_filter, mem_files_iff hway hdir hnodup, mem_files_iff hway hdir hnodup]
  have hopen : isOpen more names = true → isOpen excluded names = true := fun h =>
    isOpen_iff.2 fun n hn hexcluded => isOpen_iff.1 h n hn (hmore hexcluded)
  tauto

end Root

/-! ## From directory to directory -/

/-- The names of entries of a directory for which a test holds, in their order. -/
def namesIn (d : Disk) (place : Place) (test : Text → Node → Bool) : List Text :=
  (((d.below place).filter fun e => e.1.length = 1 && test (e.1.headD []) e.2).map
    fun e => e.1.headD []).mergeSort Text.isUpTo

theorem mem_namesIn_iff {test : Text → Node → Bool} {name : Text}
    (hnodup : (d.entries.map Prod.fst).Nodup) :
    name ∈ namesIn d place test ↔
      ∃ node, d.at? (place ++ [name]) = some node ∧ test name node = true := by
  rw [namesIn, List.mem_mergeSort, List.mem_map]
  constructor
  · rintro ⟨⟨names, node⟩, he, rfl⟩
    obtain ⟨hmem, htest⟩ := List.mem_filter.1 he
    rw [Bool.and_eq_true, decide_eq_true_eq, List.length_eq_one_iff] at htest
    obtain ⟨⟨name, rfl⟩, htest⟩ := htest
    exact ⟨node, ((mem_below_iff hnodup).1 hmem).2, htest⟩
  · rintro ⟨node, hat, htest⟩
    have hmem : ([name], node) ∈ d.below place := (mem_below_iff hnodup).2 ⟨by simp, hat⟩
    exact ⟨([name], node), List.mem_filter.2 ⟨hmem, by simpa⟩, rfl⟩

theorem pairwise_namesIn (hnodup : (d.entries.map Prod.fst).Nodup) (place : Place)
    (test : Text → Node → Bool) :
    (namesIn d place test).Pairwise fun x y => x ≠ y ∧ Text.isUpTo x y = true := by
  have hsorted : (namesIn d place test).Pairwise fun x y => Text.isUpTo x y = true := by
    have htrans : ∀ x y z, Text.isUpTo x y = true → Text.isUpTo y z = true →
        Text.isUpTo x z = true := fun _ _ _ => Text.isUpTo_trans
    have htotal : ∀ x y, (Text.isUpTo x y || Text.isUpTo y x) = true := by
      intro x y
      rw [Bool.or_eq_true]
      exact Text.isUpTo_total x y
    exact List.pairwise_mergeSort htrans htotal _
  have hne : (namesIn d place test).Nodup := by
    rw [namesIn, (List.mergeSort_perm _ _).nodup_iff]
    refine List.Nodup.of_map ([·]) ?_
    rw [List.map_map]
    have hid : ∀ e ∈ (d.below place).filter fun e => e.1.length = 1 && test (e.1.headD []) e.2,
        (([·]) ∘ fun e : Place × Node => e.1.headD []) e = e.1 := by
      rintro ⟨names, node⟩ he
      have htest := (List.mem_filter.1 he).2
      rw [Bool.and_eq_true, decide_eq_true_eq, List.length_eq_one_iff] at htest
      obtain ⟨⟨name, rfl⟩, -⟩ := htest
      rfl
    rw [List.map_congr_left hid]
    exact (nodup_below hnodup place).sublist (List.filter_sublist.map _)
  exact hne.and hsorted

/-- The files of a directory that are not ignored. -/
def filesIn (d : Disk) (place : Place) (ignored : Text → Bool) : List Text :=
  namesIn d place fun name node => isFile d place [name] node && !ignored name

/-- The subdirectories of a directory that a walk enters. -/
def dirsIn (d : Disk) (place : Place) (excluded : List Text) : List Text :=
  namesIn d place fun name node => node = .dir && !excluded.contains name

theorem mem_dirsIn_iff {sub : Text} (hnodup : (d.entries.map Prod.fst).Nodup) :
    sub ∈ dirsIn d place excluded ↔ d.at? (place ++ [sub]) = some .dir ∧ sub ∉ excluded := by
  rw [dirsIn, mem_namesIn_iff hnodup]
  constructor
  · rintro ⟨node, hat, htest⟩
    rw [Bool.and_eq_true, decide_eq_true_eq] at htest
    exact ⟨htest.1 ▸ hat, by simpa using htest.2⟩
  · rintro ⟨hat, hsub⟩
    exact ⟨_, hat, by simpa using hsub⟩

theorem isFile_cons (sub : Text) (names : List Text) (node : Node) :
    isFile d place (sub :: names) node = isFile d (place ++ [sub]) names node := by
  cases node with
  | file b m => rfl
  | dir => rfl
  | link t => rw [isFile, isFile, List.append_cons]

theorem isOpen_cons_iff {sub : Text} (hne : names ≠ []) :
    isOpen excluded (sub :: names) = true ↔ sub ∉ excluded ∧ isOpen excluded names = true := by
  rw [isOpen_iff, isOpen_iff, List.dropLast_cons_of_ne_nil hne, List.forall_mem_cons]

theorem join_cons (hne : names ≠ []) (sub : Text) :
    Text.join ['/'] (sub :: names) = sub ++ '/' :: Text.join ['/'] names := by
  obtain ⟨name, rest, rfl⟩ := List.exists_cons_of_ne_nil hne
  exact Text.join_cons_cons ..

/-- What walks of the subdirectories of a directory find, one after the other. -/
def filesBelow (d : Disk) (place : Place) (excluded : List Text) (ignored : Text → Bool) :
    List (List Text) :=
  (dirsIn d place excluded).flatMap fun sub =>
    (files d ⟨['/'], place ++ [sub]⟩ excluded fun t => ignored (sub ++ '/' :: t)).map (sub :: ·)

theorem mem_filesBelow_iff : names ∈ filesBelow d place excluded ignored ↔
    ∃ sub ∈ dirsIn d place excluded, ∃ rest ∈ files d ⟨['/'], place ++ [sub]⟩ excluded
      fun t => ignored (sub ++ '/' :: t), sub :: rest = names := by
  simp only [filesBelow, List.mem_flatMap, List.mem_map]

section Below

variable (hd : d.IsSound)

include hd

theorem ne_nil_of_mem_files {sub : Text} (hsub : sub ∈ dirsIn d place excluded)
    (hnames : names ∈ files d ⟨['/'], place ++ [sub]⟩ excluded ignored) : names ≠ [] := by
  have hdir := ((mem_dirsIn_iff hd.nodup).1 hsub).1
  exact ((mem_files_iff (hd.leads_of_dir hdir) hdir hd.nodup).1 hnames).1

theorem pairwise_precedes_filesIn (place : Place) (ignored : Text → Bool) :
    ((filesIn d place ignored).map ([·])).Pairwise Precedes := by
  rw [List.pairwise_map]
  exact (pairwise_namesIn hd.nodup _ _).imp fun h => .file [] h.1 h.2

theorem pairwise_precedes_filesBelow (place : Place) (excluded : List Text)
    (ignored : Text → Bool) : (filesBelow d place excluded ignored).Pairwise Precedes := by
  rw [filesBelow, List.pairwise_flatMap]
  constructor
  · -- in one subdirectory, a walk has its own order
    intro sub hsub
    have hdir := ((mem_dirsIn_iff hd.nodup).1 hsub).1
    rw [List.pairwise_map]
    exact (pairwise_precedes_files (hd.leads_of_dir hdir) hdir hd.nodup _ _).imp fun h => h.cons sub
  · -- in two of them, their names tell
    refine (pairwise_namesIn hd.nodup _ _).imp_of_mem fun hx hy h a ha b hb => ?_
    obtain ⟨xs, hxs, rfl⟩ := List.mem_map.1 ha
    obtain ⟨ys, hys, rfl⟩ := List.mem_map.1 hb
    exact .apart [] (ne_nil_of_mem_files hd hx hxs) (ne_nil_of_mem_files hd hy hys) h.1 h.2

end Below

section Steps

variable (hd : d.IsSound) (hway : Leads d true linkLimit [] (d.absolute root).parts place)
  (hdir : d.at? place = some .dir)

include hd hway hdir

theorem mem_files_singleton_iff {name : Text} :
    [name] ∈ files d root excluded ignored ↔ name ∈ filesIn d place ignored := by
  rw [mem_files_iff hway hdir hd.nodup, filesIn, mem_namesIn_iff hd.nodup]
  simp [isOpen, Text.join, ← and_assoc]

theorem mem_files_cons_iff {sub : Text} (hne : names ≠ []) :
    sub :: names ∈ files d root excluded ignored ↔ sub ∈ dirsIn d place excluded ∧
      names ∈ files d ⟨['/'], place ++ [sub]⟩ excluded fun t => ignored (sub ++ '/' :: t) := by
  rw [mem_files_iff hway hdir hd.nodup, mem_dirsIn_iff hd.nodup, isOpen_cons_iff hne,
    join_cons hne, List.append_cons]
  simp only [isFile_cons]
  constructor
  · rintro ⟨-, ⟨node, hat, hfile⟩, hopen, hseen⟩
    have hsub : d.at? (place ++ [sub]) = some .dir :=
      hd.tree.dir_of_append (by rw [hat]; simp) hne
    exact ⟨⟨hsub, hopen.1⟩, (mem_files_iff (hd.leads_of_dir hsub) hsub hd.nodup).2
      ⟨hne, ⟨node, hat, hfile⟩, hopen.2, hseen⟩⟩
  · rintro ⟨⟨hsub, hexcluded⟩, hnames⟩
    obtain ⟨-, hfile, hopen, hseen⟩ :=
      (mem_files_iff (hd.leads_of_dir hsub) hsub hd.nodup).1 hnames
    exact ⟨by simp, hfile, ⟨hexcluded, hopen⟩, hseen⟩

/-- A walk of a directory finds its files, and then what walks of its subdirectories find, except
those with excluded names. -/
theorem files_eq_append (excluded : List Text) (ignored : Text → Bool) :
    files d root excluded ignored =
      (filesIn d place ignored).map ([·]) ++ filesBelow d place excluded ignored := by
  refine eq_of_pairwise_precedes (pairwise_precedes_files hway hdir hd.nodup _ _) ?_ fun names => ?_
  · refine List.pairwise_append.2 ⟨pairwise_precedes_filesIn hd place ignored,
      pairwise_precedes_filesBelow hd place excluded ignored, fun a ha b hb => ?_⟩
    obtain ⟨x, -, rfl⟩ := List.mem_map.1 ha
    obtain ⟨sub, hsub, rest, hrest, rfl⟩ := mem_filesBelow_iff.1 hb
    exact .below [] (ne_nil_of_mem_files hd hsub hrest)
  · rw [List.mem_append, List.mem_map, mem_filesBelow_iff]
    constructor
    · intro hmem
      obtain ⟨name, rest, rfl⟩ :=
        List.exists_cons_of_ne_nil ((mem_files_iff hway hdir hd.nodup).1 hmem).1
      by_cases hrest : rest = []
      · subst hrest
        exact .inl ⟨name, (mem_files_singleton_iff hd hway hdir).1 hmem, rfl⟩
      · obtain ⟨hsub, hmem⟩ := (mem_files_cons_iff hd hway hdir hrest).1 hmem
        exact .inr ⟨name, hsub, rest, hmem, rfl⟩
    · rintro (⟨name, hmem, rfl⟩ | ⟨sub, hsub, rest, hrest, rfl⟩)
      · exact (mem_files_singleton_iff hd hway hdir).2 hmem
      · exact (mem_files_cons_iff hd hway hdir (ne_nil_of_mem_files hd hsub hrest)).2 ⟨hsub, hrest⟩

end Steps

/-! ## All together -/

/-- A walk of a disk finds each selected file once and nothing else. The files of a directory come
first, in the order of their names, and then what is in its subdirectories, in the order of theirs.
With more excluded names some files are left out, and the others stay in their order. -/
theorem files_of_isSound (hd : d.IsSound) (hname : ∀ e ∈ d.entries, ∀ n ∈ e.1, Path.IsName n)
    (hroot : d.locate root = .ok place) (hdir : d.at? place = some .dir) (excluded : List Text)
    (ignored : Text → Bool) :
    ((files d root excluded ignored).map (Text.join ['/'])).Nodup ∧
    (∀ t, t ∈ (files d root excluded ignored).map (Text.join ['/']) ↔
      ∃ names, t = Text.join ['/'] names ∧ IsSelected d place excluded ignored names) ∧
    (files d root excluded ignored).Pairwise Precedes ∧
    ∀ more, excluded ⊆ more → ((files d root more ignored).map (Text.join ['/'])).Sublist
      ((files d root excluded ignored).map (Text.join ['/'])) := by
  have hway := locate_eq_ok_iff.1 hroot
  have hmem : ∀ names, names ∈ files d root excluded ignored ↔
      IsSelected d place excluded ignored names := fun names =>
    mem_files_iff_isSelected hd hname hroot hdir
  refine ⟨?_, ?_, pairwise_precedes_files hway hdir hd.nodup _ _, fun more hmore => ?_⟩
  · refine List.Nodup.map_on (fun a ha b hb hab => ?_) (nodup_files hway hdir hd.nodup)
    exact Path.eq_of_join_eq ((hmem a).1 ha).ne_nil ((hmem b).1 hb).ne_nil ((hmem a).1 ha).isName
      ((hmem b).1 hb).isName hab
  · intro t
    rw [List.mem_map]
    exact exists_congr fun names => by rw [hmem, and_comm, eq_comm]
  · rw [files_eq_filter hway hdir hd.nodup hmore]
    exact List.filter_sublist.map _

/-- A directory with two files, a link to one of them and a link to a subdirectory; in the
subdirectory a file, and another one with an excluded directory above it. -/
def sampleTree : Disk where
  here := ⟨['/'], []⟩
  entries := [(["r"], .dir), (["r", "ld"], .link "a".toList), (["r", "lf"], .link "b.c".toList),
    (["r", "b.c"], .file [] 420), (["r", "a"], .dir), (["r", "a", "x.c"], .file [] 420),
    (["r", "a", "out"], .dir), (["r", "a", "out", "y.c"], .file [] 420),
    (["r", "C.c"], .file [] 420)].map fun e => (e.1.map String.toList, e.2)

theorem files_of_isSound_sampleTree :
    ((files sampleTree (.ofText "/r".toList) ["out".toList] (· = "b.c".toList)).map
      (Text.join ['/'])).Nodup ∧
    (∀ t, t ∈ (files sampleTree (.ofText "/r".toList) ["out".toList] (· = "b.c".toList)).map
        (Text.join ['/']) ↔
      ∃ names, t = Text.join ['/'] names ∧
        IsSelected sampleTree ["r".toList] ["out".toList] (· = "b.c".toList) names) ∧
    (files sampleTree (.ofText "/r".toList) ["out".toList] (· = "b.c".toList)).Pairwise Precedes ∧
    ((files sampleTree (.ofText "/r".toList) ["a".toList, "out".toList] (· = "b.c".toList)).map
      (Text.join ['/'])).Sublist
        ((files sampleTree (.ofText "/r".toList) ["out".toList] (· = "b.c".toList)).map
          (Text.join ['/'])) ∧
    files sampleTree (.ofText "/r".toList) ["out".toList] (· = "b.c".toList) =
      [["C.c"], ["lf"], ["a", "x.c"]].map (List.map String.toList) ∧
    files sampleTree (.ofText "/r".toList) ["a".toList, "out".toList] (· = "b.c".toList) =
      [["C.c"], ["lf"]].map (List.map String.toList) := by
  have hsound : sampleTree.IsSound := isSound_of_forall (by decide) (by decide)
  have hroot : sampleTree.locate (.ofText "/r".toList) = .ok ["r".toList] := by cbv
  obtain ⟨hnodup, hmem, horder, hmore⟩ := files_of_isSound hsound (by decide) hroot (by decide)
    ["out".toList] (· = "b.c".toList)
  exact ⟨hnodup, hmem, horder, hmore _ (by simp), by cbv, by cbv⟩

end Walk
end MarkerBoard
