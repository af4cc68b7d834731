import MarkerBoard.Proofs.Disk.Unread
import MarkerBoard.Proofs.Session.Located

/-!
# Sightings

A scan finds every marker of the files that it reads, each once, and nothing else. The items are
the markers in the order of the files and of their lines, numbered from 1. Files that cannot be read
as text do not count, not even for the numbers.

The lines of a comment belong to the marker above them, and none of them is a marker. So the same
items are found if reading goes on after a whole comment instead of with the next line.

Main results:

* `ScanContext.itemsByBlocks_eq` — reading comment by comment passes over no marker.
* `Disk.mem_sightings_iff`, `Disk.pairwise_sightings` — which markers there are, and their order.
* `Action.scan_eq_sightings` — a scan finds them, with and without the files that cannot be read.
-/
namespace MarkerBoard

/-! ## Comment by comment -/

namespace ScanContext

variable {ctx : ScanContext} {g : Grammar} {first : Column} {file : Text}

/-- The items in lines, read comment by comment: behind a marker, reading goes on after the lines
that belong to it. -/
def itemsByBlocks (ctx : ScanContext) (g : Grammar) (first : Column) (file : Text) (id : Int)
    (n : Nat) (lines : List Text) : List Item :=
  match lines with
  | [] => []
  | line :: lines =>
    match g.marker? (Line.body line) with
    | none => itemsByBlocks ctx g first file id (n + 1) lines
    | some m =>
      ctx.item first file id n m (g.block lines) ::
        itemsByBlocks ctx g first file (id + 1) (n + 1 + (g.block lines).length)
          (lines.drop (g.block lines).length)
termination_by lines.length
decreasing_by
  · simp
  · rw [List.length_drop, List.length_cons]
    omega

/-- No line that belongs to an item opens one. -/
theorem itemsFrom_drop_block (id : Int) (n : Nat) (lines : List Text) :
    ctx.itemsFrom g first file id (n + (g.block lines).length) (lines.drop (g.block lines).length) =
      ctx.itemsFrom g first file id n lines := by
  induction lines generalizing n with
  | nil => rfl
  | cons line lines ih =>
    rw [Grammar.block]
    cases hblock : g.blockLine? line with
    | none => rfl
    | some b =>
      -- a line belongs to the comment above it only if it is no marker itself
      have hmarker : g.marker? (Line.body line) = none := by
        rw [Grammar.blockLine?] at hblock
        split at hblock
        · cases hblock
        · next h => simpa using h
      rw [itemsFrom, hmarker]
      show ctx.itemsFrom g first file id (n + ((g.block lines).length + 1))
        (lines.drop (g.block lines).length) = ctx.itemsFrom g first file id (n + 1) lines
      rw [← ih (n + 1)]
      congr 1
      omega

/-- Reading comment by comment passes over no marker. -/
theorem itemsByBlocks_eq (id : Int) (n : Nat) (lines : List Text) :
    ctx.itemsByBlocks g first file id n lines = ctx.itemsFrom g first file id n lines := by
  -- by induction on the lines that are left to read
  fun_induction itemsByBlocks ctx g first file id n lines with
  | case1 => rfl
  | case2 id n line lines hmarker ih =>
    rw [itemsFrom, hmarker]
    exact ih
  | case3 id n line lines m hmarker ih =>
    rw [itemsFrom, hmarker, ih]
    exact congrArg _ (itemsFrom_drop_block ..)

end ScanContext

/-! ## The markers of a text -/

namespace Grammar

variable {g : Grammar} {m : MarkerLine} {n : Nat} {text : Text}

/-- The markers in a text with the numbers of their lines, counted from 1. -/
def markers (g : Grammar) (text : Text) : List (Nat × MarkerLine) :=
  ((Line.split text).zipIdx 1).filterMap fun e => (g.marker? (Line.body e.1)).map (e.2, ·)

theorem mem_markers_iff : (n, m) ∈ g.markers text ↔
    ∃ line, 1 ≤ n ∧ (Line.split text)[n - 1]? = some line ∧ g.marker? (Line.body line) = some m := by
  rw [markers, List.mem_filterMap]
  constructor
  · rintro ⟨⟨line, n'⟩, he, hm⟩
    obtain ⟨m', hmarker, heq⟩ := Option.map_eq_some_iff.1 hm
    cases heq
    obtain ⟨hn, hline⟩ := List.mk_mem_zipIdx_iff_le_and_getElem?_sub.1 he
    exact ⟨line, hn, hline, hmarker⟩
  · rintro ⟨line, hn, hline, hmarker⟩
    refine ⟨(line, n), List.mk_mem_zipIdx_iff_le_and_getElem?_sub.2 ⟨hn, hline⟩, ?_⟩
    rw [hmarker]
    rfl

/-- The markers are in the order of their lines. -/
theorem pairwise_markers (g : Grammar) (text : Text) :
    (g.markers text).Pairwise fun a b => a.1 < b.1 := by
  have hnumbers : ((Line.split text).zipIdx 1).Pairwise fun a b => a.2 < b.2 := by
    rw [← List.pairwise_map (f := Prod.snd), List.zipIdx_map_snd]
    exact List.pairwise_lt_range' ..
  refine List.Pairwise.filterMap _ (fun e e' hlt a ha b hb => ?_) hnumbers
  obtain ⟨_, _, rfl⟩ := Option.map_eq_some_iff.1 ha
  obtain ⟨_, _, rfl⟩ := Option.map_eq_some_iff.1 hb
  exact hlt

/-- Without keywords no line is a marker. -/
theorem marker?_of_isMute (h : g.isMute = true) (line : Text) : g.marker? line = none := by
  have hkeywords : g.keywords = [] := List.isEmpty_iff.1 h
  have hword : ∀ t, word? title? ([] : List Text) t = none := by
    intro t
    rw [word?, List.findSome?_eq_none_iff]
    intro start _
    rw [firstWord?, List.findSome?_eq_none_iff]
    exact fun w hw => absurd (Text.mem_longestFirst.1 hw) List.not_mem_nil
  rw [marker?, hkeywords]
  cases opening? line with
  | none => rfl
  | some o => simp [hword]

theorem markers_of_isMute (h : g.isMute = true) (text : Text) : g.markers text = [] := by
  rw [markers, List.filterMap_eq_nil_iff]
  intro e _
  rw [marker?_of_isMute h]
  rfl

end Grammar

/-! ## The markers of a project -/

/-- A marker on a line of a file. -/
structure Sighting where
  /-- The names that lead to the file. -/
  names : List Text
  /-- The number of the line, from 1. -/
  line : Nat
  marker : MarkerLine

namespace Sighting

/-- The item of the sighting can be found by this. -/
def spot (x : Sighting) (id : Int) : Spot :=
  ⟨id, Text.join ['/'] x.names, x.line, x.marker.keyword, x.marker.titleText⟩

/-- The line is further up in the same file, or the file comes first. -/
def Precedes (x y : Sighting) : Prop :=
  x.names = y.names ∧ x.line < y.line ∨ x.names ≠ y.names ∧ Walk.before x.names y.names = true

end Sighting

namespace Disk

variable {d : Disk} {root : Path} {excluded : List Text} {ignored : List Ignore.Pattern}
  {g : Grammar}

/-- The markers of a file. There are none if it has no text. -/
def sightingsIn (d : Disk) (root : Path) (g : Grammar) (names : List Text) : List Sighting :=
  match d.text? (filePath root names) with
  | none => []
  | some text => (g.markers text).map fun e => ⟨names, e.1, e.2⟩

/-- The markers of the files that a scan looks at. -/
def sightings (d : Disk) (root : Path) (g : Grammar) (excluded : List Text)
    (ignored : List Ignore.Pattern) : List Sighting :=
  (Walk.files d root excluded (Ignore.ignores ignored)).flatMap (d.sightingsIn root g)

theorem mem_sightingsIn_iff {names : List Text} {x : Sighting} : x ∈ d.sightingsIn root g names ↔
    x.names = names ∧ ∃ text, d.text? (filePath root names) = some text ∧
      (x.line, x.marker) ∈ g.markers text := by
  rw [sightingsIn]
  split
  · next hnone => simp [hnone]
  · next text htext =>
    rw [List.mem_map]
    constructor
    · rintro ⟨e, he, rfl⟩
      exact ⟨rfl, text, htext, he⟩
    · rintro ⟨rfl, text', htext', hmem⟩
      cases htext.symm.trans htext'
      exact ⟨_, hmem, rfl⟩

/-- There is a sighting for each marker on a line of a file that is looked at and has a text. -/
theorem mem_sightings_iff {x : Sighting} : x ∈ d.sightings root g excluded ignored ↔
    x.names ∈ Walk.files d root excluded (Ignore.ignores ignored) ∧
      ∃ text line, d.text? (filePath root x.names) = some text ∧ 1 ≤ x.line ∧
        (Line.split text)[x.line - 1]? = some line ∧
        g.marker? (Line.body line) = some x.marker := by
  rw [sightings, List.mem_flatMap]
  constructor
  · rintro ⟨names, hnames, hx⟩
    obtain ⟨rfl, text, htext, hmem⟩ := mem_sightingsIn_iff.1 hx
    obtain ⟨line, hline⟩ := Grammar.mem_markers_iff.1 hmem
    exact ⟨hnames, text, line, htext, hline⟩
  · rintro ⟨hnames, text, line, htext, hline⟩
    exact ⟨_, hnames,
      mem_sightingsIn_iff.2 ⟨rfl, text, htext, Grammar.mem_markers_iff.2 ⟨line, hline⟩⟩⟩

theorem sightings_of_isMute (h : g.isMute = true) :
    d.sightings root g excluded ignored = [] := by
  rw [sightings, List.flatMap_eq_nil_iff]
  intro names _
  rw [sightingsIn]
  split
  · rfl
  · rw [Grammar.markers_of_isMute h, List.map_nil]

/-- The sightings are in order, so none of them is there twice. -/
theorem pairwise_sightings (hnodup : (d.entries.map Prod.fst).Nodup) (root : Path) (g : Grammar)
    (excluded : List Text) (ignored : List Ignore.Pattern) :
    (d.sightings root g excluded ignored).Pairwise Sighting.Precedes := by
  by_cases hroot : ∃ place, d.locate root = .ok place ∧ d.at? place = some .dir
  · obtain ⟨place, hplace, hdir⟩ := hroot
    have hway := locate_eq_ok_iff.1 hplace
    rw [sightings, List.pairwise_flatMap]
    constructor
    -- in one file the lines decide, and between files the walk does
    · intro names _
      rw [sightingsIn]
      split
      · exact .nil
      · rw [List.pairwise_map]
        exact (Grammar.pairwise_markers g _).imp fun hlt => .inl ⟨rfl, hlt⟩
    · refine (List.Pairwise.and (Walk.pairwise_files hway hdir)
        (Walk.nodup_files hway hdir hnodup)).imp fun hab x hx y hy => ?_
      obtain ⟨rfl, -⟩ := mem_sightingsIn_iff.1 hx
      obtain ⟨rfl, -⟩ := mem_sightingsIn_iff.1 hy
      exact .inr ⟨hab.2, hab.1⟩
  · have hnone : Walk.files d root excluded (Ignore.ignores ignored) = [] := by
      rw [Walk.files]
      split
      · rfl
      · next place hplace => exact if_neg fun hdir => hroot ⟨place, hplace, hdir⟩
    rw [sightings, hnone]
    exact .nil

end Disk

/-! ## Items of markers -/

namespace ScanContext

variable {ctx : ScanContext} {g : Grammar} {first : Column}

/-- The items in lines are their markers, numbered through. -/
theorem map_spot_itemsFrom (file : Text) (id n : Nat) (lines : List Text) :
    (ctx.itemsFrom g first file id n lines).map Spot.ofItem =
      (((lines.zipIdx n).filterMap fun e =>
        (g.marker? (Line.body e.1)).map (e.2, ·)).zipIdx id).map fun e =>
          ⟨e.2, file, e.1.1, e.1.2.keyword, e.1.2.titleText⟩ := by
  induction lines generalizing id n with
  | nil => rfl
  | cons line lines ih =>
    rw [itemsFrom, List.zipIdx_cons, List.filterMap_cons]
    cases hmarker : g.marker? (Line.body line) with
    | none => exact ih id (n + 1)
    | some m =>
      dsimp only [Option.map_some]
      rw [List.map_cons, List.zipIdx_cons, List.map_cons, ← ih (id + 1) (n + 1), Spot.ofItem]
      simp only [item_id, item_file, item_line, item_keyword, item_title]
      rfl

theorem map_spot_items (ctx : ScanContext) (file text : Text) (id : Nat) :
    (ctx.items file id text).map Spot.ofItem =
      (((Grammar.ofSettings ctx.settings).markers text).zipIdx id).map fun e =>
        ⟨e.2, file, e.1.1, e.1.2.keyword, e.1.2.titleText⟩ := by
  rw [items]
  split
  · next hfirst =>
    -- a board without columns has no keywords
    have hcolumns : ctx.settings.columns = [] := List.head?_eq_none_iff.1 hfirst
    have hmute : (Grammar.ofSettings ctx.settings).isMute = true := by
      rw [Grammar.isMute, Grammar.ofSettings, hcolumns]
      rfl
    rw [Grammar.markers_of_isMute hmute]
    rfl
  · exact map_spot_itemsFrom file id 1 _

/-- Each file begins with the number after those of the files before it. -/
theorem map_spot_itemsOfFiles (ctx : ScanContext) (d : Disk) (root : Path)
    (files : List (List Text)) (id : Nat) :
    (ctx.itemsOfFiles id (files.filterMap fun names =>
      (d.text? (Disk.filePath root names)).map fun text =>
        (Text.join ['/'] names, text))).flatten.map Spot.ofItem =
      ((files.flatMap (d.sightingsIn root (.ofSettings ctx.settings))).zipIdx id).map
        fun e => e.1.spot e.2 := by
  induction files generalizing id with
  | nil => rfl
  | cons names files ih =>
    rw [List.filterMap_cons, List.flatMap_cons, Disk.sightingsIn]
    cases htext : d.text? (Disk.filePath root names) with
    -- a file without a text takes no numbers
    | none => exact ih id
    | some text =>
      have hitems := map_spot_items ctx (Text.join ['/'] names) text id
      have hlength : (ctx.items (Text.join ['/'] names) id text).length =
          ((Grammar.ofSettings ctx.settings).markers text).length := by
        have := congrArg List.length hitems
        rwa [List.length_map, List.length_map, List.length_zipIdx] at this
      dsimp only [Option.map_some]
      rw [itemsOfFiles, List.flatten_cons, List.map_append, hitems, List.zipIdx_append,
        List.map_append, List.length_map, ← ih, hlength, List.zipIdx_map, List.map_map]
      rfl

/-- The items of a scan are the markers of the files that it reads, numbered through. -/
theorem map_spot_itemsOn (ctx : ScanContext) (d : Disk) (root : Path)
    (ignored : List Ignore.Pattern) :
    (ctx.itemsOn d root ignored).map Spot.ofItem =
      ((d.sightings root (.ofSettings ctx.settings) ctx.settings.exclusions.directories
        ignored).zipIdx 1).map fun e => e.1.spot e.2 := by
  rw [itemsOn, Disk.sources, Disk.sightings]
  exact map_spot_itemsOfFiles ctx d root _ 1

end ScanContext

/-! ## Scans -/

namespace Action

variable {p : Project} {s : Settings} {w : World}

/-- A scan finds the markers of the files that it reads, each once, in their order and with numbers
from 1, and it finds the same items without the files that cannot be read. It fails only if it would
read files and one of the patterns of files to ignore is none. -/
theorem scan_eq_sightings (hd : w.disk.IsSound) (hs : (p.settings w).1 = .ok s) :
    match Ignore.patterns s.exclusions.files with
    | .error pattern => (scan p w).1 =
        if (Grammar.ofSettings s).isMute then .ok [] else .error (.badPattern pattern)
    | .ok ignored => ∃ found : List Sighting, found.Pairwise Sighting.Precedes ∧
        (∀ x, x ∈ found ↔
          x.names ∈ Walk.files w.disk p.root s.exclusions.directories (Ignore.ignores ignored) ∧
          ∃ text line, w.disk.text? (Disk.filePath p.root x.names) = some text ∧ 1 ≤ x.line ∧
            (Line.split text)[x.line - 1]? = some line ∧
            (Grammar.ofSettings s).marker? (Line.body line) = some x.marker) ∧
        ∃ items, (scan p w).1 = .ok items ∧
          items.map Spot.ofItem = (found.zipIdx 1).map (fun e => e.1.spot e.2) ∧
          ∀ w', w' = { w with disk := w.disk.readable p.root } → (p.settings w').1 = .ok s →
            (scan p w').1 = .ok items := by
  split
  · next pattern hpattern =>
    obtain ⟨log, log', hscan⟩ := scan_apply hs
    rw [hscan, hpattern]
    split <;> rfl
  · next ignored hignored =>
    refine ⟨w.disk.sightings p.root (.ofSettings s) s.exclusions.directories ignored,
      Disk.pairwise_sightings hd.nodup .., fun x => Disk.mem_sightings_iff, ?_⟩
    -- what a scan finds depends on the world by the disk, the user and the time
    have hfound : ∀ w', (p.settings w').1 = .ok s → (scan p w').1 = .ok
        (if (Grammar.ofSettings s).isMute then [] else
          (⟨s, w'.git.currentUser w'.env, w'.localNow⟩ : ScanContext).itemsOn w'.disk p.root
            ignored) := by
      intro w' hs'
      obtain ⟨log, log', hscan⟩ := scan_apply hs'
      rw [hscan, hignored]
      split <;> rfl
    refine ⟨_, hfound w hs, ?_, ?_⟩
    · split
      · next hmute => rw [Disk.sightings_of_isMute hmute, List.map_nil, List.zipIdx_nil, List.map_nil]
      · exact ScanContext.map_spot_itemsOn ..
    · rintro w' rfl hs'
      rw [hfound _ hs']
      split
      · rfl
      · rw [ScanContext.itemsOn_readable hd]

/-- A world with a project of two texts, a file that is no text and a link that leads nowhere. -/
def sampleMixed : World := { sampleWorld with
  disk := ⟨⟨['/'], []⟩, [(["p".toList], .dir),
    (["p".toList, "a.py".toList],
      .file (Utf8.encode "#TODO: a\n# HIGH\n#FIXME: b -->".toList) 0o644),
    (["p".toList, "b.py".toList], .file [0xff] 0o644), (["p".toList, "c.py".toList], .link "d".toList),
    (["p".toList, "d.py".toList], .file (Utf8.encode "#TODO: c".toList) 0o644)]⟩ }

/-- That world without the file and the link. -/
def sampleUnmixed : World :=
  { sampleMixed with disk := sampleMixed.disk.readable Session.sampleProject.root }

set_option maxRecDepth 4000 in
theorem scan_eq_sightings_sampleMixed :
    sampleUnmixed.disk.entries.map Prod.fst = [["p".toList], ["p".toList, "a.py".toList],
      ["p".toList, "d.py".toList]] ∧
    ∃ items, (scan Session.sampleProject sampleMixed).1 = .ok items ∧
      items.map Spot.ofItem = [⟨1, "a.py".toList, 1, "TODO".toList, "a".toList⟩,
        ⟨2, "a.py".toList, 3, "FIXME".toList, "b".toList⟩,
        ⟨3, "d.py".toList, 1, "TODO".toList, "c".toList⟩] ∧
      (scan Session.sampleProject sampleUnmixed).1 = .ok items := by
  refine ⟨by cbv, ?_⟩
  have hd : sampleMixed.disk.IsSound := Disk.isSound_of_forall (by decide) (by decide)
  obtain ⟨found, -, -, items, hscan, -, hreadable⟩ :=
    scan_eq_sightings (p := Session.sampleProject) (s := ScanContext.sampleBoard) hd rfl
  refine ⟨items, hscan, ?_, hreadable _ rfl rfl⟩
  have hitems : ((scan Session.sampleProject sampleMixed).1.map (List.map Spot.ofItem)) = .ok
      [⟨1, "a.py".toList, 1, "TODO".toList, "a".toList⟩,
        ⟨2, "a.py".toList, 3, "FIXME".toList, "b".toList⟩,
        ⟨3, "d.py".toList, 1, "TODO".toList, "c".toList⟩] := by cbv
  rw [hscan] at hitems
  exact Except.ok.inj hitems

end Action

end MarkerBoard
