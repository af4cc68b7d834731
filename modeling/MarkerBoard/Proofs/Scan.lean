import MarkerBoard.Proofs.Disk.Unseen
import MarkerBoard.Proofs.Grammar.Silent
import MarkerBoard.Proofs.Walk

/-!
# What a scan depends on

A scan reads the texts of the files that a walk finds, and takes the items from their markers. So
two disks on which the same files show texts with markers have the same items, and the same numbers
on them, whatever else there is to read.

Main results:

* `ScanContext.flatten_itemsOfFiles_filter` — files without markers play no part.
* `ScanContext.itemsOn_congr` — the items of two disks that show the same texts with markers.
-/
namespace MarkerBoard

/-! ## Texts with markers -/

namespace Grammar

/-- Some line of the text is a marker. -/
def hasMarker (g : Grammar) (t : Text) : Bool :=
  (Line.split t).any fun line => (g.marker? (Line.body line)).isSome

theorem IsSilent.hasMarker {t : Text} (h : IsSilent t) (g : Grammar) : g.hasMarker t = false := by
  rw [Grammar.hasMarker, List.any_eq_false]
  intro line hline
  rw [h g line hline]
  simp

end Grammar

namespace ScanContext

variable {ctx : ScanContext} {g : Grammar} {first : Column} {file text : Text}

theorem itemsFrom_eq_nil {lines : List Text} (h : ∀ line ∈ lines, g.marker? (Line.body line) = none)
    (id : Int) (n : Nat) : ctx.itemsFrom g first file id n lines = [] := by
  induction lines generalizing n with
  | nil => rfl
  | cons line lines ih =>
    obtain ⟨hline, hlines⟩ := List.forall_mem_cons.1 h
    rw [itemsFrom, hline]
    exact ih hlines (n + 1)

/-- A text without markers has no items. -/
theorem items_eq_nil (h : (Grammar.ofSettings ctx.settings).hasMarker text = false) (id : Int) :
    ctx.items file id text = [] := by
  rw [items]
  split
  · rfl
  · refine itemsFrom_eq_nil (fun line hline => ?_) id 1
    rw [Grammar.hasMarker, List.any_eq_false] at h
    simpa using h line hline

/-- Files without markers play no part, not even in the numbers of the items. -/
theorem flatten_itemsOfFiles_filter (ctx : ScanContext) (files : List (Text × Text)) (id : Int) :
    (ctx.itemsOfFiles id
      (files.filter fun f => (Grammar.ofSettings ctx.settings).hasMarker f.2)).flatten =
      (ctx.itemsOfFiles id files).flatten := by
  induction files generalizing id with
  | nil => rfl
  | cons f files ih =>
    obtain ⟨file, text⟩ := f
    rw [List.filter_cons]
    split
    · rw [itemsOfFiles, itemsOfFiles, List.flatten_cons, List.flatten_cons, ih]
    · next hmarker =>
      have hnil : ctx.items file id text = [] := items_eq_nil (by simpa using hmarker) id
      rw [itemsOfFiles, List.flatten_cons, hnil, List.nil_append, List.length_nil, Int.natCast_zero,
        Int.add_zero, ih]

end ScanContext

/-! ## Files with texts -/

namespace Disk

variable {d d' : Disk} {root : Path} {place : Place} {names : List Text} {text : Text}
  {excluded : List Text} {ignored : List Ignore.Pattern}

/-- An entry below the root of a project shows a text: there is one, and its path leads to a file
with the text. -/
def Shows (d : Disk) (root : Path) (place : Place) (names : List Text) (text : Text) : Prop :=
  d.at? (place ++ names) ≠ none ∧ d.text? (filePath root names) = some text

/-- A path has a text if it leads to a file with its bytes. -/
theorem text?_eq_some_iff {path : Path} : d.text? path = some text ↔
    ∃ q b m, Leads d true linkLimit [] (d.absolute path).parts q ∧
      d.at? q = some (.file b m) ∧ Utf8.decode b = .ok text := by
  constructor
  · intro h
    rw [text?] at h
    split at h
    · next b hbytes =>
      obtain ⟨q, m, hway, hat⟩ := Action.exists_of_bytes hbytes
      refine ⟨q, b, m, hway, hat, ?_⟩
      cases hdecode : Utf8.decode b with
      | error f =>
        rw [hdecode] at h
        cases h
      | ok t =>
        rw [hdecode] at h
        cases h
        rfl
    · cases h
  · rintro ⟨q, b, m, hway, hat, hdecode⟩
    rw [text?, Action.bytes_of_leads hway hat]
    exact congrArg Except.toOption hdecode

section Root

variable (hd : d.IsSound) (hway : Leads d true linkLimit [] (d.absolute root).parts place)
  (hdir : d.at? place = some .dir)

include hd hway hdir

/-- An entry with a text counts as a file. -/
theorem Shows.exists_isFile (h : d.Shows root place names text) (hne : names ≠ []) :
    ∃ node, d.at? (place ++ names) = some node ∧ Walk.isFile d place names node = true := by
  obtain ⟨hat, htext⟩ := h
  obtain ⟨q, b, m, hq, hfile, -⟩ := text?_eq_some_iff.1 htext
  obtain ⟨k, hk, hsplit⟩ := hway.append_iff hdir
  rw [absolute_filePath, hsplit true names q hne] at hq
  obtain ⟨node, hnode⟩ := Option.ne_none_iff_exists'.1 hat
  refine ⟨node, hnode, ?_⟩
  cases node with
  | file => rfl
  | dir =>
    -- its names lead to the directory and not to a file
    cases hq.unique (hd.leads_dir k true hnode)
    cases hnode.symm.trans hfile
  | link target =>
    -- the link leads to the file also if its directory is named without links
    show (!d.isDir ⟨['/'], place ++ names⟩) = true
    rw [Bool.not_eq_true', Bool.eq_false_iff]
    intro hisDir
    obtain ⟨r, hr, hrdir⟩ := isDir_iff.1 hisDir
    have hplace : Leads d true linkLimit [] place place := hd.leads_of_dir hdir
    obtain ⟨j, hj, hsplit'⟩ := hplace.append_iff hdir
    have habsolute : (d.absolute ⟨['/'], place ++ names⟩).parts = place ++ names := rfl
    rw [habsolute, hsplit' true names r hne] at hr
    cases (hr.mono hj).unique (hq.mono hk)
    cases hrdir.symm.trans hfile

/-- A scan reads the texts of the entries that are open to it. -/
theorem mem_files_and_source?_iff {source : Text × Text} :
    names ∈ Walk.files d root excluded (Ignore.ignores ignored) ∧
      IsProject.source? d root names = some source ↔
    (names ≠ [] ∧ Walk.isOpen excluded names = true ∧
      Ignore.ignores ignored (Text.join ['/'] names) = false) ∧
      source.1 = Text.join ['/'] names ∧ d.Shows root place names source.2 := by
  rw [Walk.mem_files_iff hway hdir hd.nodup, IsProject.source?, Option.map_eq_some_iff]
  constructor
  · rintro ⟨⟨hne, ⟨node, hnode, -⟩, hopen, hseen⟩, text, htext, rfl⟩
    exact ⟨⟨hne, hopen, hseen⟩, rfl, by rw [hnode]; simp, htext⟩
  · rintro ⟨⟨hne, hopen, hseen⟩, hname, hshows⟩
    exact ⟨⟨hne, hshows.exists_isFile hd hway hdir hne, hopen, hseen⟩, source.2, hshows.2,
      by rw [← hname]⟩

/-- After a hidden change, the entries show the same texts that matter, unless the target of a link
strays. -/
theorem Hidden.shows_iff {dull : List UInt8 → Prop} {made : Prop} {hidden : Place}
    (h : Hidden dull made hidden d d') (hidle : IsIdle dull d hidden) (hd' : d'.IsSound)
    (hlinks : ∀ names t, d.at? (place ++ names) = some (.link t) →
      ¬ Strays d d' (linkBase t (place ++ names).dropLast) (Path.ofText t).parts)
    (hloud : ∀ b, Utf8.decode b = .ok text → ¬ dull b) :
    d.Shows root place names text ↔ d'.Shows root place names text := by
  have habsolute : ∀ path, d'.absolute path = d.absolute path := by
    intro path
    rw [absolute, absolute, h.here]
  unfold Shows
  rw [text?_eq_some_iff, text?_eq_some_iff, habsolute]
  constructor
  · rintro ⟨hat, q, b, m, hq, hfile, hdecode⟩
    have hq' := hq.hidden hd.tree h hidle (at?_root d) hfile (hloud b hdecode)
    exact ⟨h.at?_ne_none hat, q, b, m, hq',
      h.at?_of_isLoud hidle hfile (hloud b hdecode), hdecode⟩
  · rintro ⟨hat, q, b, m, hq, hfile, hdecode⟩
    have hold := h.file_of_file hfile (hloud b hdecode)
    -- the names of a new entry would lead to it, and to no old file
    have hentry : d.at? (place ++ names) ≠ none := by
      intro hnone
      have hne : names ≠ [] := by
        rintro rfl
        rw [List.append_nil, hdir] at hnone
        cases hnone
      have hway' := hway.hidden hd.tree h hidle (at?_root d) hdir trivial
      obtain ⟨k, -, hsplit⟩ := hway'.append_iff (h.at?_of_isLoud hidle hdir trivial)
      rw [absolute_filePath, hsplit true names q hne] at hq
      have hself := (hd'.leads k hat).of_no_link (fun t ht => by
        cases hnone.symm.trans (h.link_of_link ht)) true
      cases hq.unique hself
      cases hnone.symm.trans hold
    have hstray : ¬ Strays d d' [] (d.absolute (filePath root names)).parts := by
      intro hs
      rw [absolute_filePath] at hs
      obtain ⟨t, ht, htarget⟩ := (hs.of_append hway hdir).exists_link hd hentry
      exact hlinks names t ht htarget
    exact ⟨hentry, q, b, m, hq.of_hidden hd.tree h (at?_root d) hold hstray, hold, hdecode⟩

end Root

end Disk

open Disk

/-- Two disks have the same items if they show the same texts with markers. -/
theorem ScanContext.itemsOn_congr {d d' : Disk} {root : Path} {place : Place} (hd : d.IsSound)
    (hd' : d'.IsSound) (hway : Leads d true linkLimit [] (d.absolute root).parts place)
    (hway' : Leads d' true linkLimit [] (d'.absolute root).parts place)
    (hdir : d.at? place = some .dir) (hdir' : d'.at? place = some .dir)
    (h : ∀ names text, ¬ Grammar.IsSilent text →
      (d.Shows root place names text ↔ d'.Shows root place names text))
    (ctx : ScanContext) (ignored : List Ignore.Pattern) :
    ctx.itemsOn d root ignored = ctx.itemsOn d' root ignored := by
  have hsources : (d.sources root ctx.settings.exclusions.directories ignored).filter
        (fun f => (Grammar.ofSettings ctx.settings).hasMarker f.2) =
      (d'.sources root ctx.settings.exclusions.directories ignored).filter
        (fun f => (Grammar.ofSettings ctx.settings).hasMarker f.2) := by
    have hread : ∀ d : Disk, (d.sources root ctx.settings.exclusions.directories ignored).filter
        (fun f => (Grammar.ofSettings ctx.settings).hasMarker f.2) =
        (Walk.files d root ctx.settings.exclusions.directories (Ignore.ignores ignored)).filterMap
          fun names => (IsProject.source? d root names).filter
            fun f => (Grammar.ofSettings ctx.settings).hasMarker f.2 :=
      fun d => List.filter_filterMap
    rw [hread, hread]
    refine Walk.filterMap_eq (Walk.pairwise_files hway hdir) (Walk.pairwise_files hway' hdir')
      (Walk.nodup_files hway hdir hd.nodup) (Walk.nodup_files hway' hdir' hd'.nodup)
      fun names source => ?_
    rw [Option.filter_eq_some_iff, Option.filter_eq_some_iff, ← and_assoc, ← and_assoc,
      mem_files_and_source?_iff hd hway hdir, mem_files_and_source?_iff hd' hway' hdir']
    -- a text with a marker is not silent
    refine and_congr_left fun hmarker => and_congr_right fun _ => and_congr_right fun _ => ?_
    refine h names source.2 fun hsilent => ?_
    rw [hsilent.hasMarker] at hmarker
    cases hmarker
  rw [itemsOn, itemsOn, ← flatten_itemsOfFiles_filter, hsources, flatten_itemsOfFiles_filter]

end MarkerBoard
