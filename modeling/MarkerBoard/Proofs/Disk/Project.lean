import Mathlib.Data.List.Nodup
import MarkerBoard.Proofs.Disk.Replace
import MarkerBoard.Proofs.Path
import MarkerBoard.Proofs.Text.Utf8
import MarkerBoard.Proofs.Walk
import MarkerBoard.Scan

/-!
# The files of a project on a disk

Below the root of a project without links, every path leads to the place that its names spell. So
replacing a file changes the text of that file, and neither the other texts nor the files that a
scan looks at.

Main results:

* `Disk.IsProject.leads_iff` — where the paths of a project lead.
* `Disk.IsProject.put` — a project with a new file in the stead of an old one.
* `Disk.IsProject.files_put`, `Disk.IsProject.exists_sources_put` — what a scan looks at then.
-/
namespace MarkerBoard.Disk

variable {d : Disk} {root : Path} {place p q : Place} {names : List Text} {b b' : List UInt8}
  {m m' : Nat}

/-- A disk on which a project has its root at a place, and no links below it. -/
structure IsProject (d : Disk) (root : Path) (place : Place) : Prop where
  leads : Leads d true linkLimit [] (d.absolute root).parts place
  dir : d.at? place = some .dir
  tree : d.IsTree
  nodup : (d.entries.map Prod.fst).Nodup
  no_link : ∀ names t, d.at? (place ++ names) ≠ some (.link t)
  isName : ∀ names, d.at? (place ++ names) ≠ none → ∀ n ∈ names, Path.IsName n

/-- The path of a file of a project. -/
def filePath (root : Path) (names : List Text) : Path := ⟨root.anchor, root.parts ++ names⟩

/-- Looking at each entry of a disk tells whether a project is on it. -/
theorem isProject_of_forall
    (hfollow : d.follow true linkLimit [] (d.absolute root).parts = .ok place)
    (hdir : d.at? place = some .dir) (hnodup : (d.entries.map Prod.fst).Nodup)
    (h : ∀ e ∈ d.entries, d.at? e.1.dropLast = some .dir ∧ (∀ n ∈ e.1, Path.IsName n) ∧
      (e.2 matches .link _) = false) : d.IsProject root place := by
  refine ⟨follow_eq_ok_iff.1 hfollow, hdir, isTree_of_forall fun e he => (h e he).1, hnodup, ?_, ?_⟩
  · intro names t hat
    by_cases hnil : place ++ names = []
    · rw [hnil, at?_root] at hat
      cases hat
    · exact absurd (h _ (mem_entries_of_at? hat hnil)).2.2 (by simp)
  · intro names hat n hn
    obtain ⟨node, hnode⟩ := Option.ne_none_iff_exists'.1 hat
    have hnil : place ++ names ≠ [] := by simp [List.ne_nil_of_mem hn]
    exact (h _ (mem_entries_of_at? hnode hnil)).2.1 n (List.mem_append_right _ hn)

/-! ## Paths -/

theorem IsTree.dir_of_append (hd : d.IsTree) (h : d.at? (p ++ q) ≠ none) (hq : q ≠ []) :
    d.at? p = some .dir := by
  induction q generalizing p with
  | nil => exact absurd rfl hq
  | cons name q ih =>
    rw [List.append_cons] at h
    refine hd p name ?_
    by_cases hnil : q = []
    · rwa [hnil, List.append_nil] at h
    · rw [ih h hnil]
      simp

/-- Names that do not lead upwards are a path from a directory to the entry below it that they
spell. -/
theorem IsTree.leads (hd : d.IsTree) (k : Nat) (hup : ['.', '.'] ∉ names)
    (hat : d.at? (p ++ names) ≠ none) : Leads d false k p names (p ++ names) := by
  -- by induction on the names that are left to follow
  induction names generalizing p with
  | nil =>
    rw [List.append_nil]
    exact .here k p
  | cons name names ih =>
    rw [List.mem_cons, not_or] at hup
    obtain ⟨hname, hup⟩ := hup
    rw [List.append_cons] at hat ⊢
    by_cases hdir : d.at? (p ++ [name]) = some .dir
    · exact .enter (Ne.symm hname) hdir (ih hup hat)
    · -- only a directory has entries in it, so this is the last name
      obtain rfl : names = [] := by
        by_contra hne
        exact hdir (hd.dir_of_append hat hne)
      rw [List.append_nil]
      exact .last k p (Ne.symm hname) (fun _ _ => rfl) hdir

theorem absolute_filePath (d : Disk) (root : Path) (names : List Text) :
    (d.absolute (filePath root names)).parts = (d.absolute root).parts ++ names := by
  have hanchor : (filePath root names).isAbsolute = root.isAbsolute := rfl
  rw [absolute, absolute, Path.join, Path.join, hanchor]
  split
  · rfl
  · exact (List.append_assoc _ _ _).symm

namespace IsProject

variable (h : d.IsProject root place)

include h

/-- Names below the root lead to the entry that they spell. -/
theorem leads_below (lastToo : Bool) (k : Nat) (hat : d.at? (place ++ names) ≠ none) :
    Leads d lastToo k place names (place ++ names) := by
  have hup : ['.', '.'] ∉ names := fun hmem => (h.isName names hat _ hmem).2.2.1 rfl
  exact (h.tree.leads k hup hat).of_no_link (h.no_link names) lastToo

/-- The path of an entry below the root leads to it and to nothing else. -/
theorem leads_iff (lastToo : Bool) (hat : d.at? (place ++ names) ≠ none) (hne : names ≠ []) :
    Leads d lastToo linkLimit [] (d.absolute (filePath root names)).parts q ↔
      q = place ++ names := by
  obtain ⟨k, -, hk⟩ := h.leads.append_iff h.dir
  rw [absolute_filePath, hk lastToo names q hne]
  constructor
  · exact fun hq => hq.unique (h.leads_below lastToo k hat)
  · rintro rfl
    exact h.leads_below lastToo k hat

/-- The text of a file below the root. -/
theorem text?_filePath (hat : d.at? (place ++ names) = some (.file b m)) (hne : names ≠ []) :
    d.text? (filePath root names) = (Utf8.decode b).toOption := by
  have hleads := (h.leads_iff true (by rw [hat]; simp) hne).2 rfl
  rw [text?, Action.bytes_of_leads hleads hat]

/-! ## A file in the stead of another one -/

omit h in
theorem at?_put_ne_none (hat : d.at? p = some (.file b m))
    (hq : (d.put p (.file b' m')).at? q ≠ none) : d.at? q ≠ none := by
  by_cases hpq : p = q
  · rw [← hpq, hat]
    simp
  · rwa [at?_put_of_ne hpq] at hq

/-- A project with a new file in the stead of an old one. -/
theorem put (hat : d.at? p = some (.file b m)) :
    (d.put p (.file b' m')).IsProject root place := by
  have hp := ne_nil_of_at?_file hat
  have hext : Extends (d.put p (.file b' m')) d :=
    extends_put hp fun n hn => ⟨b, m, Option.some.inj (hn.symm.trans hat)⟩
  refine ⟨h.leads.extend hext (by rw [h.dir]; simp), hext.dir _ h.dir, ?_, ?_, ?_, ?_⟩
  · exact fun q name hq => hext.dir _ (h.tree q name (at?_put_ne_none hat hq))
  · rw [Disk.put, map_fst_putIn (⟨_, mem_entries_of_at? hat hp, rfl⟩)]
    exact h.nodup
  · exact fun names t hq => h.no_link names t (hext.no_link _ _ hq)
  · exact fun names hq => h.isName names (at?_put_ne_none hat hq)

/-! ## What a scan looks at -/

theorem at?_of_mem {e : Place × Node} (he : e ∈ d.entries) (hne : e.1 ≠ []) :
    d.at? e.1 = some e.2 :=
  Disk.at?_of_mem h.nodup he hne

/-- An entry is a file below the root that a scan looks at. -/
def seen (place : Place) (excluded : List Text) (ignored : Text → Bool) (e : Place × Node) : Bool :=
  place.isPrefixOf e.1 && e.1 ≠ place && (e.2 matches .file _ _) &&
    Walk.isOpen excluded (e.1.drop place.length) &&
    !ignored (Text.join ['/'] (e.1.drop place.length))

/-- Without links, a scan looks at the files that are seen. -/
theorem files_eq (excluded : List Text) (ignored : Text → Bool) :
    Walk.files d root excluded ignored =
      (((d.entries.filter (seen place excluded ignored)).map Prod.fst).map
        (List.drop place.length)).mergeSort Walk.before := by
  rw [Walk.files, locate_eq_ok_iff.2 h.leads]
  simp only [h.dir, if_true]
  congr 1
  rw [below, List.filter_map, List.filter_filter, List.map_map, List.map_map]
  -- what is looked at below the root is a file at once, for there is no link to one
  have hfilter : d.entries.filter (fun e => ((fun e => Walk.isFile d place e.1 e.2 &&
      Walk.isOpen excluded e.1 && !ignored (Text.join ['/'] e.1)) ∘
        fun e => (e.1.drop place.length, e.2)) e && (place.isPrefixOf e.1 && e.1 ≠ place)) =
      d.entries.filter (seen place excluded ignored) := by
    refine List.filter_congr fun e he => ?_
    rw [seen, Function.comp]
    by_cases hpre : place.isPrefixOf e.1 = true
    · by_cases hne : e.1 = place
      · simp [hne]
      · have hat : d.at? e.1 = some e.2 := by
          refine h.at?_of_mem he ?_
          intro hnil
          rw [hnil] at hpre hne
          exact hne (List.prefix_nil.1 (List.isPrefixOf_iff_prefix.1 hpre)).symm
        obtain ⟨names, hnames⟩ := isPrefixOf_iff.1 hpre
        obtain ⟨r, node⟩ := e
        cases node with
        | file b m => simp [Walk.isFile, Bool.and_comm, Bool.and_left_comm]
        | dir => simp [Walk.isFile]
        | link t =>
          rw [hnames] at hat
          exact absurd hat (h.no_link names t)
    · simp [hpre]
  rw [hfilter]
  rfl

theorem exists_of_mem_files {excluded : List Text} {ignored : Text → Bool}
    (hn : names ∈ Walk.files d root excluded ignored) :
    names ≠ [] ∧ ∃ b m, d.at? (place ++ names) = some (.file b m) := by
  obtain ⟨hne, ⟨node, hat, hfile⟩, -⟩ := (Walk.mem_files_iff h.leads h.dir h.nodup).1 hn
  refine ⟨hne, ?_⟩
  cases node with
  | file b m => exact ⟨b, m, hat⟩
  | dir => cases hfile
  | link t => exact absurd hat (h.no_link names t)

theorem nodup_files (excluded : List Text) (ignored : Text → Bool) :
    (Walk.files d root excluded ignored).Nodup :=
  Walk.nodup_files h.leads h.dir h.nodup

/-- A scan looks at the same files after one of them has been replaced. -/
theorem files_put (hat : d.at? p = some (.file b m)) (excluded : List Text)
    (ignored : Text → Bool) :
    Walk.files (d.put p (.file b' m')) root excluded ignored =
      Walk.files d root excluded ignored := by
  have hp := ne_nil_of_at?_file hat
  rw [(h.put hat).files_eq, h.files_eq, Disk.put,
    map_fst_filter_putIn ?_ (⟨_, mem_entries_of_at? hat hp, rfl⟩)]
  rintro ⟨q, node⟩ he rfl
  rw [h.at?_of_mem he hp] at hat
  cases hat
  rfl

/-! ## Their texts -/

/-- Another file keeps its text when one is replaced. -/
theorem text?_put_of_ne {other : List Text} (hat : d.at? (place ++ names) = some (.file b m))
    (ho : d.at? (place ++ other) = some (.file b' m')) (hne : other ≠ []) (hother : other ≠ names)
    (new : List UInt8) (mode : Nat) :
    (d.put (place ++ names) (.file new mode)).text? (filePath root other) =
      d.text? (filePath root other) := by
  have ho' : (d.put (place ++ names) (.file new mode)).at? (place ++ other) =
      some (.file b' m') := by
    rw [at?_put_of_ne fun heq => hother (List.append_cancel_left heq).symm, ho]
  rw [(h.put hat).text?_filePath ho' hne, h.text?_filePath ho hne]

theorem text?_put_self {text : Text} (hat : d.at? (place ++ names) = some (.file b m))
    (hne : names ≠ []) (mode : Nat) :
    (d.put (place ++ names) (.file (Utf8.encode text) mode)).text? (filePath root names) =
      some text := by
  rw [(h.put hat).text?_filePath (at?_put_self (by simp [hne])) hne, Utf8.decode_encode]
  rfl

/-- The name and the text of a file, as a scan reads them. -/
def source? (d : Disk) (root : Path) (names : List Text) : Option (Text × Text) :=
  (d.text? (filePath root names)).map fun text => (Text.join ['/'] names, text)

omit h in
/-- What a scan reads are the texts of the files that it looks at. -/
theorem exists_of_mem_sources {excluded : List Text} {ignored : List Ignore.Pattern}
    {e : Text × Text} (he : e ∈ d.sources root excluded ignored) :
    ∃ names ∈ Walk.files d root excluded (Ignore.ignores ignored),
      e.1 = Text.join ['/'] names ∧ d.text? (filePath root names) = some e.2 := by
  obtain ⟨names, hnames, hsome⟩ := List.mem_filterMap.1 he
  obtain ⟨text, htext, rfl⟩ := Option.map_eq_some_iff.1 hsome
  exact ⟨names, hnames, rfl, htext⟩

/-- A text that a scan reads is found under the name that the scan gives to its file. -/
theorem text?_of_mem_sources {excluded : List Text} {ignored : List Ignore.Pattern}
    {file text : Text} (he : (file, text) ∈ d.sources root excluded ignored) :
    d.text? (root.join (Path.ofText file)) = some text := by
  obtain ⟨names, hnames, hname, htext⟩ := exists_of_mem_sources he
  obtain ⟨hne, b, m, hat⟩ := h.exists_of_mem_files hnames
  rw [show file = _ from hname, Path.join_ofText_join _ hne (h.isName names (by rw [hat]; simp))]
  exact htext

omit h in
/-- Different files are read under different paths, if no name has a slash in it. -/
theorem nodup_sources_of_files {excluded : List Text} {ignored : List Ignore.Pattern}
    (hnodup : (Walk.files d root excluded (Ignore.ignores ignored)).Nodup)
    (hnames : ∀ names ∈ Walk.files d root excluded (Ignore.ignores ignored),
      names ≠ [] ∧ ∀ n ∈ names, Path.IsName n) :
    ((d.sources root excluded ignored).map Prod.fst).Nodup := by
  have hjoin : ((Walk.files d root excluded (Ignore.ignores ignored)).map
      (Text.join ['/'])).Nodup := by
    refine hnodup.map_on fun names hn names' hn' heq => ?_
    obtain ⟨hne, h⟩ := hnames names hn
    obtain ⟨hne', h'⟩ := hnames names' hn'
    exact Path.eq_of_join_eq hne hne' h h' heq
  -- the names of the texts are some of those of the files
  have hsublist : ∀ files : List (List Text), ((files.filterMap (source? d root)).map
      Prod.fst).Sublist (files.map (Text.join ['/'])) := by
    intro files
    induction files with
    | nil => exact List.Sublist.slnil
    | cons names files ih =>
      rw [List.map_cons]
      cases htext : d.text? (filePath root names) with
      | none =>
        rw [List.filterMap_cons_none (by rw [source?, htext]; rfl)]
        exact ih.cons _
      | some text =>
        rw [List.filterMap_cons_some (by rw [source?, htext]; rfl), List.map_cons]
        exact ih.cons_cons _
  exact hjoin.sublist (hsublist _)

/-- A scan gives different names to different files, since no name has a slash in it. -/
theorem nodup_sources (excluded : List Text) (ignored : List Ignore.Pattern) :
    ((d.sources root excluded ignored).map Prod.fst).Nodup := by
  refine nodup_sources_of_files (h.nodup_files _ _) fun names hnames => ?_
  obtain ⟨hne, b, m, hat⟩ := h.exists_of_mem_files hnames
  exact ⟨hne, h.isName _ (by rw [hat]; simp)⟩

omit h in
/-- What a scan reads, if it looks at a file among others. -/
theorem sources_of_files_eq {excluded : List Text} {ignored : List Ignore.Pattern} {text : Text}
    {pre post : List (List Text)}
    (hfiles : Walk.files d root excluded (Ignore.ignores ignored) = pre ++ names :: post)
    (htext : d.text? (filePath root names) = some text) :
    d.sources root excluded ignored =
      pre.filterMap (source? d root) ++
        (Text.join ['/'] names, text) :: post.filterMap (source? d root) := by
  have hone : source? d root names = some (Text.join ['/'] names, text) := by
    rw [source?, htext, Option.map_some]
  show (Walk.files d root excluded (Ignore.ignores ignored)).filterMap (source? d root) = _
  rw [hfiles, List.filterMap_append, List.filterMap_cons_some hone]

/-- The files that a scan looks at beside one are other files. -/
theorem exists_of_mem_others {excluded : List Text} {ignored : Text → Bool}
    {pre post : List (List Text)} {other : List Text}
    (hfiles : Walk.files d root excluded ignored = pre ++ names :: post)
    (ho : other ∈ pre ++ post) :
    other ≠ names ∧ other ≠ [] ∧ ∃ b m, d.at? (place ++ other) = some (.file b m) := by
  have hnodup := h.nodup_files excluded ignored
  rw [hfiles, List.nodup_append] at hnodup
  have hmem : other ∈ Walk.files d root excluded ignored := by
    rw [hfiles]
    simp only [List.mem_append, List.mem_cons] at ho ⊢
    tauto
  refine ⟨?_, h.exists_of_mem_files hmem⟩
  rintro rfl
  rcases List.mem_append.1 ho with ho | ho
  · exact hnodup.2.2 _ ho _ List.mem_cons_self rfl
  · exact (List.nodup_cons.1 hnodup.2.1).1 ho

/-- A scan reads the same texts after a file has been replaced, but for that file. -/
theorem exists_sources_put {excluded : List Text} {ignored : List Ignore.Pattern}
    {text : Text} (hn : names ∈ Walk.files d root excluded (Ignore.ignores ignored))
    (htext : d.text? (filePath root names) = some text) :
    ∃ before after, (∀ e ∈ before ++ after, e.1 ≠ Text.join ['/'] names) ∧
      d.sources root excluded ignored = before ++ (Text.join ['/'] names, text) :: after ∧
      ∀ (text' : Text) (mode : Nat),
        (d.put (place ++ names) (.file (Utf8.encode text') mode)).sources root excluded ignored =
          before ++ (Text.join ['/'] names, text') :: after := by
  obtain ⟨hne, b, m, hat⟩ := h.exists_of_mem_files hn
  obtain ⟨pre, post, hfiles⟩ := List.append_of_mem hn
  refine ⟨pre.filterMap (source? d root), post.filterMap (source? d root), ?_,
    sources_of_files_eq hfiles htext, ?_⟩
  -- other files have other names, since no name has a slash in it
  · intro e he heq
    rw [← List.filterMap_append] at he
    obtain ⟨other, ho, hoe⟩ := List.mem_filterMap.1 he
    obtain ⟨_, -, rfl⟩ := Option.map_eq_some_iff.1 hoe
    obtain ⟨hdiff, hne', b', m', hat'⟩ := h.exists_of_mem_others hfiles ho
    exact hdiff (Path.eq_of_join_eq hne' hne (h.isName _ (by rw [hat']; simp))
      (h.isName _ (by rw [hat]; simp)) heq)
  · intro text' mode
    have hsame : ∀ other ∈ pre ++ post,
        source? (d.put (place ++ names) (.file (Utf8.encode text') mode)) root other =
          source? d root other := by
      intro other ho
      obtain ⟨hdiff, hne', b', m', hat'⟩ := h.exists_of_mem_others hfiles ho
      rw [source?, source?, h.text?_put_of_ne hat hat' hne' hdiff]
    rw [sources_of_files_eq (by rw [h.files_put hat, hfiles]) (h.text?_put_self hat hne mode),
      List.filterMap_congr fun other ho => hsame other (List.mem_append_left _ ho),
      List.filterMap_congr fun other ho => hsame other (List.mem_append_right _ ho)]

end IsProject
end MarkerBoard.Disk
