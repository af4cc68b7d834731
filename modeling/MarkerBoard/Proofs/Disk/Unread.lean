import MarkerBoard.Proofs.Scan

/-!
# Files that cannot be read

An entry below the root of a project may count as a file and have no text: its bytes are none, or
its link leads to nothing or to such a file. Paths end at files, and a link to a directory or to a
text is no such entry. So whatever of these entries is removed, all paths to directories and to
texts lead where they led, and a scan finds the same items.

Main results:

* `Disk.LacksUnread.append_iff` — paths by way of a directory.
* `Disk.LacksUnread.leads_text` — paths to texts.
* `ScanContext.itemsOn_readable` — the items without all files that cannot be read.
-/
namespace MarkerBoard

namespace Disk

variable {d d' : Disk} {root : Path} {place at_ p q r : Place} {names rest : List Text} {l : Bool}
  {n m k : Nat} {node : Node} {b : List UInt8} {t text : Text}

/-- The entry with some names below a root counts as a file and has no text. -/
def isUnread (d : Disk) (root : Path) (place : Place) (names : List Text) (node : Node) : Bool :=
  names ≠ [] && Walk.isFile d place names node && (d.text? (filePath root names)).isNone

/-- The second disk lacks nothing but files below a root that cannot be read. -/
structure LacksUnread (root : Path) (place : Place) (d d' : Disk) : Prop where
  here : d'.here = d.here
  nodup : (d'.entries.map Prod.fst).Nodup
  sub : ∀ q node, d'.at? q = some node → d.at? q = some node
  kept : ∀ q node, d.at? q = some node → d'.at? q = some node ∨
    ∃ names, q = place ++ names ∧ d.isUnread root place names node = true

/-! ## Links -/

/-- The names of a link lead where the link does. -/
theorem IsSound.leads_link (hd : d.IsSound) (hne : names ≠ [])
    (hlink : d.at? (p ++ names) = some (.link t))
    (hway : Leads d true n (linkBase t (p ++ names).dropLast) (Path.ofText t).parts r) :
    Leads d true (n + 1) p names r := by
  have hup : ['.', '.'] ∉ names :=
    fun hmem => hd.no_up _ (by rw [hlink]; simp) (List.mem_append_right p hmem)
  -- by induction on the names that are left to follow
  induction names generalizing p with
  | nil => exact absurd rfl hne
  | cons name names ih =>
    rw [List.mem_cons, not_or] at hup
    by_cases hnil : names = []
    · subst hnil
      rw [List.dropLast_concat] at hway
      refine .jump (Ne.symm hup.1) hlink (fun _ => rfl) ?_
      rwa [List.append_nil]
    · rw [List.append_cons] at hlink hway
      exact .enter (Ne.symm hup.1) (hd.tree.dir_of_append (by rw [hlink]; simp) hnil)
        (ih hnil hlink hway hup.2)

/-- A path to a directory, or with further names, goes through links to directories. -/
theorem Leads.exists_dir_of_jump (hd : d.IsTree) (hat : d.at? at_ = some .dir)
    (hway : Leads d true n (linkBase t at_) ((Path.ofText t).parts ++ rest) p)
    (h : rest ≠ [] ∨ d.at? p = some .dir) :
    ∃ r, d.at? r = some .dir ∧ Leads d true n (linkBase t at_) (Path.ofText t).parts r := by
  by_cases hrest : rest = []
  · rw [hrest, List.append_nil] at hway
    exact ⟨p, h.resolve_left (fun hne => hne hrest), hway⟩
  · obtain ⟨r, hr, hway, -⟩ := hway.exists_dir (fun _ => hd.dir_dropLast)
      (at?_linkBase hat t) hrest
    exact ⟨r, hr, hway⟩

namespace LacksUnread

section Kept

variable (h : LacksUnread root place d d')

include h

theorem ne_none_of_ne_none (hq : d'.at? q ≠ none) : d.at? q ≠ none := by
  obtain ⟨node, hnode⟩ := Option.ne_none_iff_exists'.1 hq
  rw [h.sub _ _ hnode]
  simp

theorem absolute_eq (path : Path) : d'.absolute path = d.absolute path := by
  rw [absolute, absolute, h.here]

/-- An entry with a text is not lacking. -/
theorem kept_of_text (text : Text) (hq : d.at? q = some node)
    (htext : ∀ names, names ≠ [] → q = place ++ names →
      d.text? (filePath root names) = some text) : d'.at? q = some node := by
  rcases h.kept _ _ hq with hkept | ⟨names, rfl, hunread⟩
  · exact hkept
  · simp only [isUnread, Bool.and_eq_true, decide_eq_true_eq] at hunread
    simp [htext names hunread.1.1 rfl] at hunread

theorem dir_of_dir (hq : d.at? q = some .dir) : d'.at? q = some .dir := by
  rcases h.kept q .dir hq with hkept | ⟨names, -, hunread⟩
  · exact hkept
  · simp [isUnread, Walk.isFile] at hunread

theorem isSound (hd : d.IsSound) : d'.IsSound := by
  refine ⟨fun p name hp => ?_, h.nodup, fun p hp => ?_⟩
  · exact h.dir_of_dir (hd.tree p name (h.ne_none_of_ne_none hp))
  · exact hd.no_up p (h.ne_none_of_ne_none hp)

/-- A link to a directory is not lacking. -/
theorem link_of_dir {name : Text} (hd : d.IsSound) (hn : n < linkLimit)
    (hlink : d.at? (at_ ++ [name]) = some (.link t))
    (hway : Leads d true n (linkBase t at_) (Path.ofText t).parts r)
    (hr : d.at? r = some .dir) : d'.at? (at_ ++ [name]) = some (.link t) := by
  rcases h.kept _ _ hlink with hkept | ⟨names, hq, hunread⟩
  · exact hkept
  · -- the link leads to the directory also by its own names, so it does not count as a file
    have hself : d.isDir ⟨['/'], place ++ names⟩ = true := by
      refine isDir_iff.2 ⟨r, ?_, hr⟩
      show Leads d true linkLimit [] (place ++ names) r
      rw [← hq]
      refine (hd.leads_link (p := []) (by simp) hlink ?_).mono hn
      show Leads d true n (linkBase t (at_ ++ [name]).dropLast) _ r
      rwa [List.dropLast_concat]
    simp [isUnread, Walk.isFile, hself] at hunread

/-- A path to a directory leads there without the files, and further names are followed from there
on, with as many links left as before. -/
theorem append_iff (hd : d.IsSound) (hat : d.at? at_ = some .dir) (hn : n ≤ linkLimit)
    (hway : Leads d true n at_ names p) (hp : d.at? p = some .dir) :
    Leads d' true n at_ names p ∧ ∃ k ≤ n, ∀ (l : Bool) (rest : List Text) (q : Place), rest ≠ [] →
      (Leads d l n at_ (names ++ rest) q ↔ Leads d l k p rest q) ∧
      (Leads d' l n at_ (names ++ rest) q ↔ Leads d' l k p rest q) := by
  -- by induction on the path; each link that it follows leads to a directory and is not lacking
  induction hway with
  | here n p => exact ⟨.here n p, n, Nat.le_refl n, fun _ _ _ _ => ⟨Iff.rfl, Iff.rfl⟩⟩
  | up _ ih =>
    obtain ⟨hway', k, hk, ih⟩ := ih (hd.tree.dir_dropLast hat) hn hp
    refine ⟨.up hway', k, hk, fun l rest q hrest => ?_⟩
    rw [List.cons_append, leads_up_iff, leads_up_iff]
    exact ih l rest q hrest
  | last n at_ _ _ hnot => exact absurd hp hnot
  | enter hname hdir _ ih =>
    obtain ⟨hway', k, hk, ih⟩ := ih hdir hn hp
    have hdir' := h.dir_of_dir hdir
    refine ⟨.enter hname hdir' hway', k, hk, fun l rest q hrest => ?_⟩
    rw [List.cons_append, leads_enter_iff hname hdir, leads_enter_iff hname hdir']
    exact ih l rest q hrest
  | @jump n at_ name rest' p target hname hlink hrest' hway ih =>
    obtain ⟨hway', k, hk, ih⟩ := ih (at?_linkBase hat target) (by omega) hp
    obtain ⟨r, hr, hr'⟩ := Leads.exists_dir_of_jump hd.tree hat hway (.inr hp)
    have hlink' := h.link_of_dir hd (by omega) hlink hr' hr
    refine ⟨.jump hname hlink' hrest' hway', k, by omega, fun l rest q hrest => ?_⟩
    -- further names follow, so the link is followed in any case
    have hne : rest' ++ rest = [] → l = true := fun h => absurd (List.append_eq_nil_iff.1 h).2 hrest
    have hone : ∀ P : Nat → Prop, (∃ j, n + 1 = j + 1 ∧ P j) ↔ P n := by
      intro P
      constructor
      · rintro ⟨j, hj, hP⟩
        rwa [show n = j by omega]
      · exact fun hP => ⟨n, rfl, hP⟩
    rw [List.cons_append, leads_jump_iff hname hlink hne, leads_jump_iff hname hlink' hne, hone, hone,
      ← List.append_assoc]
    exact ih l rest q hrest

/-- What a path leads to without the files, it leads to with them. -/
theorem leads_of_leads (hway : Leads d' l n at_ names p) (hp : d'.at? p ≠ none) :
    Leads d l n at_ names p := by
  induction hway with
  | here n p => exact .here n p
  | up _ ih => exact .up (ih hp)
  -- where the path ends, something is there, so it is the same with the files
  | last n at_ hname hlink hdir =>
    obtain ⟨node, hnode⟩ := Option.ne_none_iff_exists'.1 hp
    rw [hnode] at hlink hdir
    have hold := h.sub _ _ hnode
    exact .last n at_ hname (by rwa [hold]) (by rwa [hold])
  | enter hname hdir _ ih => exact .enter hname (h.sub _ _ hdir) (ih hp)
  | jump hname hlink hrest _ ih => exact .jump hname (h.sub _ _ hlink) hrest (ih hp)

end Kept

/-! ## Texts -/

section Root

variable (h : LacksUnread root place d d') (hd : d.IsSound)
  (hroot : ∀ (names : List Text) (q : Place), names ≠ [] →
    (Leads d true linkLimit [] ((d.absolute root).parts ++ names) q ↔ Leads d true k place names q))

include h hd hroot

/-- A file with a text is not lacking. -/
theorem file_of_text (hq : d.at? q = some (.file b m)) (hdecode : Utf8.decode b = .ok text) :
    d'.at? q = some (.file b m) := by
  refine h.kept_of_text text hq fun names hne hnames => ?_
  subst hnames
  have hself : Leads d true k place names (place ++ names) :=
    (hd.leads k (by rw [hq]; simp)).of_no_link (by rw [hq]; simp) true
  refine text?_eq_some_iff.2 ⟨_, b, m, ?_, hq, hdecode⟩
  rwa [absolute_filePath, hroot _ _ hne]

/-- From the root on, a path to a text leads there without the files. -/
theorem leads_text (hk : k ≤ linkLimit) (hat : d.at? at_ = some .dir) (hn : n ≤ k)
    (hway : Leads d true n at_ names r) (hr : d.at? r = some (.file b m))
    (hdecode : Utf8.decode b = .ok text) : Leads d' true n at_ names r := by
  induction hway with
  | here n p => exact .here n p
  | up _ ih => exact .up (ih (hd.tree.dir_dropLast hat) hn hr)
  | last n at_ hname _ _ =>
    have hr' := h.file_of_text hd hroot hr hdecode
    exact .last n at_ hname (fun t ht => by cases hr'.symm.trans ht) (by rw [hr']; simp)
  | enter hname hdir _ ih => exact .enter hname (h.dir_of_dir hdir) (ih hdir hn hr)
  | @jump n at_ name rest r target hname hlink hrest hway ih =>
    refine .jump hname ?_ hrest (ih (at?_linkBase hat target) (by omega) hr)
    by_cases hnil : rest = []
    · -- a link to the text has the text itself
      rw [hnil, List.append_nil] at hway
      refine h.kept_of_text text hlink fun names hne hq => ?_
      rw [hq] at hlink
      have hself : Leads d true (n + 1) place names r := by
        refine hd.leads_link hne hlink ?_
        rwa [← hq, List.dropLast_concat]
      refine text?_eq_some_iff.2 ⟨r, b, m, ?_, hr, hdecode⟩
      rw [absolute_filePath, hroot _ _ hne]
      exact hself.mono hn
    · obtain ⟨q, hq, hway'⟩ := Leads.exists_dir_of_jump hd.tree hat hway (.inl hnil)
      exact h.link_of_dir hd (by omega) hlink hway' hq

end Root

/-- Without the files, the entries show the same texts. -/
theorem shows_iff (h : LacksUnread root place d d') (hd : d.IsSound)
    (hway : Leads d true linkLimit [] (d.absolute root).parts place)
    (hdir : d.at? place = some .dir) (names : List Text) (text : Text) :
    d.Shows root place names text ↔ d'.Shows root place names text := by
  -- the paths are compared from the root on, with the links that the way to the root has left
  obtain ⟨-, k, hk, hsplit⟩ := h.append_iff hd (at?_root d) (Nat.le_refl _) hway hdir
  unfold Shows
  rw [text?_eq_some_iff, text?_eq_some_iff, h.absolute_eq, absolute_filePath]
  constructor
  · rintro ⟨hat, q, b, m, hq, hfile, hdecode⟩
    -- the root is a directory and has no text
    have hne : names ≠ [] := by
      rintro rfl
      rw [List.append_nil] at hq
      cases hway.unique hq
      cases hdir.symm.trans hfile
    have hroot : ∀ (names : List Text) (q : Place), names ≠ [] →
        (Leads d true linkLimit [] ((d.absolute root).parts ++ names) q ↔
          Leads d true k place names q) := fun names q hne => (hsplit true names q hne).1
    refine ⟨?_, q, b, m, ?_, h.file_of_text hd hroot hfile hdecode, hdecode⟩
    · obtain ⟨node, hnode⟩ := Option.ne_none_iff_exists'.1 hat
      have hkept : d'.at? (place ++ names) = some node := by
        refine h.kept_of_text text hnode fun names' _ hnames => ?_
        cases List.append_cancel_left hnames
        exact text?_eq_some_iff.2 ⟨q, b, m, by rwa [absolute_filePath], hfile, hdecode⟩
      rw [hkept]
      simp
    · rw [(hsplit true names q hne).2]
      exact h.leads_text hd hroot hk hdir (Nat.le_refl k) ((hroot names q hne).1 hq) hfile hdecode
  · rintro ⟨hat, q, b, m, hq, hfile, hdecode⟩
    refine ⟨h.ne_none_of_ne_none hat, q, b, m, ?_, h.sub _ _ hfile, hdecode⟩
    exact h.leads_of_leads hq (by rw [hfile]; simp)

end LacksUnread

/-! ## All of them -/

/-- The disk without the files below a root that cannot be read. -/
def readable (d : Disk) (root : Path) : Disk :=
  match d.locate root with
  | .error _ => d
  | .ok place => { d with entries := d.entries.filter fun e =>
      !(place.isPrefixOf e.1 && d.isUnread root place (e.1.drop place.length) e.2) }

theorem lacksUnread_readable (hd : d.IsSound)
    (hway : Leads d true linkLimit [] (d.absolute root).parts place) :
    LacksUnread root place d (d.readable root) := by
  have hreadable : d.readable root = { d with entries := d.entries.filter fun e =>
      !(place.isPrefixOf e.1 && d.isUnread root place (e.1.drop place.length) e.2) } := by
    rw [readable, locate_eq_ok_iff.2 hway]
  have hnodup : ((d.readable root).entries.map Prod.fst).Nodup := by
    rw [hreadable]
    exact hd.nodup.sublist (List.filter_sublist.map _)
  refine ⟨by rw [hreadable], hnodup, fun q node hq => ?_, fun q node hq => ?_⟩
  · -- what is there now was there before
    by_cases hnil : q = []
    · rw [hnil, at?_root] at hq ⊢
      exact hq
    · have hmem := mem_entries_of_at? hq hnil
      rw [hreadable] at hmem
      exact at?_of_mem hd.nodup (List.mem_filter.1 hmem).1 hnil
  · -- and what was there before is there now, unless it is left out
    by_cases hnil : q = []
    · rw [hnil, at?_root] at hq ⊢
      exact .inl hq
    · have hmem := mem_entries_of_at? hq hnil
      cases hgone : place.isPrefixOf q && d.isUnread root place (q.drop place.length) node with
      | true =>
        rw [Bool.and_eq_true] at hgone
        obtain ⟨names, rfl⟩ := isPrefixOf_iff.1 hgone.1
        rw [List.drop_left] at hgone
        exact .inr ⟨names, rfl, hgone.2⟩
      | false =>
        refine .inl (at?_of_mem hnodup (e := (q, node)) ?_ hnil)
        rw [hreadable]
        exact List.mem_filter.2 ⟨hmem, by rw [hgone]; rfl⟩

/-- Without a directory at the root, nothing is removed. -/
theorem readable_eq_self (hd : d.IsSound)
    (h : ∀ place, d.locate root = .ok place → d.at? place ≠ some .dir) :
    d.readable root = d := by
  rw [readable]
  split
  · rfl
  · next place hplace =>
    have hkeep : d.entries.filter (fun e =>
        !(place.isPrefixOf e.1 && d.isUnread root place (e.1.drop place.length) e.2)) =
        d.entries := by
      refine List.filter_eq_self.2 fun e he => ?_
      rw [Bool.not_eq_true', Bool.and_eq_false_iff]
      by_cases hpre : place.isPrefixOf e.1 = true
      · -- what is below it would be in a directory
        obtain ⟨names, hnames⟩ := isPrefixOf_iff.1 hpre
        refine .inr ?_
        rw [hnames, List.drop_left]
        cases names with
        | nil => rfl
        | cons name names =>
          refine absurd (hd.tree.dir_of_append ?_ (List.cons_ne_nil name names)) (h place hplace)
          rw [← hnames, at?_of_mem hd.nodup he (by simp [hnames])]
          simp
      · exact .inl (Bool.eq_false_iff.2 hpre)
    rw [hkeep]

end Disk

open Disk

/-- A scan finds the same items without the files that cannot be read. -/
theorem ScanContext.itemsOn_readable {d : Disk} {root : Path} (hd : d.IsSound) (ctx : ScanContext)
    (ignored : List Ignore.Pattern) :
    ctx.itemsOn (d.readable root) root ignored = ctx.itemsOn d root ignored := by
  by_cases hroot : ∃ place, d.locate root = .ok place ∧ d.at? place = some .dir
  · obtain ⟨place, hplace, hdir⟩ := hroot
    have hway := locate_eq_ok_iff.1 hplace
    have hlacks := lacksUnread_readable hd hway
    have hway' := (hlacks.append_iff hd (at?_root d) (Nat.le_refl _) hway hdir).1
    rw [← hlacks.absolute_eq] at hway'
    exact (itemsOn_congr hd (hlacks.isSound hd) hway hway' hdir (hlacks.dir_of_dir hdir)
      (fun names text _ => hlacks.shows_iff hd hway hdir names text) ctx ignored).symm
  · rw [readable_eq_self hd fun place hplace hdir => hroot ⟨place, hplace, hdir⟩]

end MarkerBoard
