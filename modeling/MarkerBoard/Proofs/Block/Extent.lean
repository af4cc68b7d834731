import MarkerBoard.Proofs.Block.Recorded
import MarkerBoard.Proofs.Block.Repeat

/-!
# How far a comment goes

An edit and a scan look at the lines below a marker in two ways. For an edit the comment goes on
with lines that begin with the file's own opener; for a scan it goes on with comments of any kind.
Both stop before the next marker. So where an opener stands at the start of a line, the comment that
an edit finds is a part of the lines that a scan gives to the item, and it is all of them if they
are written with that opener. What an edit takes away is taken from the item whose marker it has
found, and from no other.

In markup this fails: there a line is the file's own if a comment opens anywhere in it, and a scan
has given up long before.

Main results:

* `Comment.isOwn_eq_startsWith` — the file's own comments, where they begin with the opener.
* `Grammar.ownLines_eq_takeWhile` — the lines of an edit are the first lines of a scan.
* `Grammar.exists_edit_eq` — what stays in any edit.
* `ScanContext.extent_of_marker` — an edit stays within the lines of the item.
-/
namespace MarkerBoard

namespace Text

theorem startsWith_iff {front t : Text} :
    startsWith front t = true ↔ ∃ rest, t = front ++ rest := by
  rw [startsWith, Option.isSome_iff_exists]
  exact exists_congr fun rest => after?_eq_some_iff

/-- What is trimmed at the end is not missed at the start. -/
theorem startsWith_trimEnd {front : Text} (h : EndsOutside isBlank front) (t : Text) :
    startsWith front (trimEnd t) = startsWith front t := by
  rw [Bool.eq_iff_iff, startsWith_iff, startsWith_iff]
  constructor
  · rintro ⟨rest, hrest⟩
    obtain ⟨blanks, ht, -⟩ := exists_dropEnd_append isBlank t
    exact ⟨rest ++ blanks, by rw [ht, ← trimEnd, hrest, List.append_assoc]⟩
  · rintro ⟨rest, rfl⟩
    exact ⟨trimEnd rest, dropEnd_append h rest⟩

end Text

namespace Comment

variable {opener : Text}

/-- A line is the file's own comment if it begins with the opener after some white space. -/
theorem isOwn_eq_startsWith (ho : opener ∈ openers) (hplain : opener ≠ markupOpener)
    (line : Text) : isOwn opener line = Text.startsWith opener (Text.trimStart line) := by
  have htrim : Text.startsWith opener (Text.trim line) =
      Text.startsWith opener (Text.trimStart line) :=
    Text.startsWith_trimEnd (endsOutside_opener ho) _
  rw [isOwn, if_neg hplain, htrim, Bool.and_eq_right_iff_imp, ← htrim]
  intro h
  obtain ⟨rest, hrest⟩ := Text.startsWith_iff.1 h
  simp [hrest, opener_ne_nil ho]

end Comment

namespace Grammar

variable {g : Grammar} {opener : Text}

/-- A line that begins with an opener is a comment. -/
theorem isSome_description?_of_startsWith {line : Text} (ho : opener ∈ Comment.openers)
    (h : Text.startsWith opener (Text.trimStart line) = true) : (description? line).isSome := by
  obtain ⟨rest, hrest⟩ := Text.startsWith_iff.1 h
  have hline : line = line.takeWhile Text.isBlank ++ (opener ++ rest) := by
    rw [← hrest, Text.trimStart, List.takeWhile_append_dropWhile]
  rw [isSome_description?, hline, opening?_append ho fun c hc => List.mem_takeWhile_imp hc]
  rfl

/-- A line that belongs to an item goes on with the comment of an edit if it begins with the file's
opener. -/
theorem continues_iff {line : Text} (ho : opener ∈ Comment.openers)
    (hplain : opener ≠ Comment.markupOpener) : g.continues opener line = true ↔
      g.goesOn line = true ∧ Text.startsWith opener (Text.trimStart (Line.body line)) = true := by
  rw [continues, goesOn, Comment.isOwn_eq_startsWith ho hplain, Bool.and_eq_true, Bool.and_eq_true]
  constructor
  · rintro ⟨hstart, hnone⟩
    exact ⟨⟨isSome_description?_of_startsWith ho hstart, hnone⟩, hstart⟩
  · rintro ⟨⟨-, hnone⟩, hstart⟩
    exact ⟨hstart, hnone⟩

/-- Each line that belongs to an item adds something to it. -/
theorem block_eq_map (g : Grammar) (lines : List Text) :
    (g.block lines).map some = (lines.takeWhile g.goesOn).map g.blockLine? := by
  induction lines with
  | nil => rfl
  | cons line lines ih =>
    have hsome : (g.blockLine? line).isSome = g.goesOn line := isSome_blockLine?
    rw [block, List.takeWhile_cons, ← hsome]
    cases hline : g.blockLine? line with
    | none => rfl
    | some b => simp [hline, ih]

/-- Of the lines after a marker, those that a scan reads for its item. -/
def scannedLines (g : Grammar) (rest : List Text) : List Text := rest.take (g.block rest).length

theorem scannedLines_eq (g : Grammar) (rest : List Text) :
    g.scannedLines rest = rest.takeWhile g.goesOn := by
  have hlength := congrArg List.length (g.block_eq_map rest)
  rw [List.length_map, List.length_map] at hlength
  rw [scannedLines, hlength]
  exact (List.prefix_iff_eq_take.1 (List.takeWhile_prefix _)).symm

theorem scannedLines_prefix (g : Grammar) (rest : List Text) : g.scannedLines rest <+: rest :=
  List.take_prefix _ _

/-- The comment that an edit finds is the first part of the lines that a scan reads. -/
theorem ownLines_eq_takeWhile (g : Grammar) (ho : opener ∈ Comment.openers)
    (hplain : opener ≠ Comment.markupOpener) (rest : List Text) :
    g.ownLines opener rest = (g.scannedLines rest).takeWhile fun line =>
      Text.startsWith opener (Text.trimStart (Line.body line)) := by
  rw [ownLines, scannedLines_eq, List.takeWhile_takeWhile]
  congr 1
  funext line
  rw [Bool.eq_iff_iff, continues_iff ho hplain]
  simp [and_comm]

/-- The first line of a new comment is the marker, whatever the note is. -/
theorem exists_annotate_cons (g : Grammar) (note marker : Text) (own : List Text)
    {terminator : Text} (ht : ∀ c ∈ terminator, Line.isEol c = true) :
    ∃ marker' comment, g.annotate note terminator marker own = marker' :: comment ∧
      Line.body marker' = Line.body marker := by
  have hbody : ∀ {e : Text}, (∀ c ∈ e, Line.isEol c = true) →
      Line.body (Line.body marker ++ e) = Line.body marker :=
    fun he => Line.body_append (Line.endsOutside_body marker) he
  rw [annotate_eq, List.map_cons, List.cons_append]
  -- the marker has the terminator of the comment if it is the only line, and else one of its own
  cases (g.keptLines own).map (Line.parts terminator) ++
      (addedTexts note marker).map (·, terminator) with
  | nil => exact ⟨_, [], rfl, hbody fun c => Line.isEol_of_mem_ending⟩
  | cons p parts => exact ⟨_, _, rfl, hbody (Line.isEol_of_mem_parts ht marker)⟩

/-- An edit leaves the lines above the marker, the marker, and the lines below its comment. -/
theorem exists_edit_eq {note line : Text} {lines rest new : List Text} {k : Nat}
    {expected : Option (Text × Text)} (hlines : lines.drop k = line :: rest)
    (h : g.edit opener note expected (k + 1) lines = .ok new) :
    ∃ marker' comment, Line.body marker' = Line.body line ∧
      new = lines.take k ++ marker' :: comment ++ rest.drop (g.ownLines opener rest).length := by
  obtain ⟨before, marker, own, after, m, hat, -, rfl⟩ := edit_eq_ok_iff.1 h
  have hk : k = before.length := by
    have := hat.number_eq
    omega
  have hdrop : lines.drop k = marker :: (own ++ after) := by rw [hk, hat.lines_eq, List.drop_left]
  have htake : lines.take k = before := by rw [hk, hat.lines_eq, List.take_left]
  obtain ⟨rfl, rfl⟩ := List.cons.inj (hlines.symm.trans hdrop)
  have heol : ∀ c ∈ terminatorFor lines line, Line.isEol c = true :=
    fun c => isEol_of_mem_terminatorFor
  obtain ⟨marker', comment, hcomment, hbody⟩ := g.exists_annotate_cons note line own heol
  refine ⟨marker', comment, hbody, ?_⟩
  rw [hcomment, htake, hat.ownLines_eq, List.drop_left]

end Grammar

namespace ScanContext

variable {ctx : ScanContext} {opener line text : Text} {rest : List Text} {k : Nat}

/-- A scan makes an item of each marker, with the lines that follow it. -/
theorem exists_item_mem_items {first : Column} {m : MarkerLine}
    (hfirst : ctx.settings.firstColumn? = some first)
    (hlines : (Line.split text).drop k = line :: rest)
    (hm : (Grammar.ofSettings ctx.settings).marker? (Line.body line) = some m) (file : Text)
    (id : Int) :
    ∃ id', ctx.item first file id' (k + 1) m ((Grammar.ofSettings ctx.settings).block rest) ∈
      ctx.items file id text := by
  have hk : k < (Line.split text).length := by
    by_contra hk
    rw [List.drop_eq_nil_of_le (by omega)] at hlines
    exact absurd hlines (by simp)
  have hnumber : 1 + ((Line.split text).take k).length = k + 1 := by
    rw [List.length_take]
    omega
  rw [items, hfirst]
  simp only []
  rw [← List.take_append_drop k (Line.split text), hlines, ← List.nil_append rest,
    itemsFrom_around hm (fun l hl => absurd hl List.not_mem_nil), hnumber]
  exact ⟨_, List.mem_append_right _ List.mem_cons_self⟩

/-- An edit at a marker finds a part of the lines that a scan reads for the item of the marker: all
of them if each begins with the opener, and fewer otherwise. Above the marker and below these lines
it changes nothing, and the marker stays. -/
theorem extent_of_marker (hcolumns : ctx.settings.columns ≠ [])
    (hlines : (Line.split text).drop k = line :: rest)
    (hmarker : ((Grammar.ofSettings ctx.settings).marker? (Line.body line)).isSome)
    (ho : opener ∈ Comment.openers) (hplain : opener ≠ Comment.markupOpener) (file : Text)
    (id : Int) :
    ∃ first m id' last,
      ctx.item first file id' (k + 1) m ((Grammar.ofSettings ctx.settings).block rest) ∈
        ctx.items file id text ∧
      (Grammar.ofSettings ctx.settings).blockEnd? opener (Line.split text) k = some last ∧
      last ≤ k + ((Grammar.ofSettings ctx.settings).scannedLines rest).length ∧
      (last = k + ((Grammar.ofSettings ctx.settings).scannedLines rest).length ↔
        ∀ l ∈ (Grammar.ofSettings ctx.settings).scannedLines rest,
          Text.startsWith opener (Text.trimStart (Line.body l)) = true) ∧
      ∀ note expected new,
        (Grammar.ofSettings ctx.settings).edit opener note expected (k + 1) (Line.split text) =
          .ok new →
        ∃ marker' comment, Line.body marker' = Line.body line ∧
          new = (Line.split text).take k ++ marker' :: comment ++
            rest.drop ((Grammar.ofSettings ctx.settings).scannedLines rest).length := by
  set g := Grammar.ofSettings ctx.settings
  obtain ⟨c, hc⟩ := List.exists_mem_of_ne_nil _ hcolumns
  obtain ⟨first, hfirst⟩ := Settings.exists_firstColumn? hc
  obtain ⟨m, hm⟩ := Option.isSome_iff_exists.1 hmarker
  obtain ⟨id', hitem⟩ := exists_item_mem_items hfirst hlines hm file id
  -- an edit finds the first lines of those that a scan reads
  have hown := g.ownLines_eq_takeWhile ho hplain rest
  have hprefix : g.ownLines opener rest <+: g.scannedLines rest := hown ▸ List.takeWhile_prefix _
  refine ⟨first, m, id', k + (g.ownLines opener rest).length, hitem, ?_, ?_, ?_, ?_⟩
  · have hafter : (Line.split text).drop (k + 1) = rest := by
      rw [← List.drop_drop, hlines, List.drop_one, List.tail_cons]
    rw [Grammar.blockEnd?, Grammar.linesAfter?, if_pos (by omega),
      show ((k : Int) + 1).toNat = k + 1 by omega, hafter, Option.map_some]
  · have := hprefix.length_le
    omega
  · rw [Int.add_right_inj, Int.natCast_inj, hown, ← List.takeWhile_eq_self_iff]
    exact ⟨(List.takeWhile_prefix _).eq_of_length, congrArg List.length⟩
  · intro note expected new hnew
    obtain ⟨marker', comment, hbody, rfl⟩ := Grammar.exists_edit_eq hlines hnew
    -- of the lines that a scan reads, those after the comment stand in what is left
    have hwithin := hprefix.trans (g.scannedLines_prefix rest)
    obtain ⟨more, hmore⟩ := hprefix
    have hrest : rest.drop (g.ownLines opener rest).length =
        more ++ rest.drop (g.scannedLines rest).length := by
      rw [← List.append_right_inj (g.ownLines opener rest), ← List.prefix_append_drop hwithin,
        ← List.append_assoc, hmore, ← List.prefix_append_drop (g.scannedLines_prefix rest)]
    refine ⟨marker', comment ++ more, hbody, ?_⟩
    rw [hrest, ← List.append_assoc, List.append_assoc _ (marker' :: comment), List.cons_append]

/-- The lines after a marker, in two comment styles and with a status line in each, and the marker
of another item. -/
def sampleBelow : List Text :=
  ["  // DOING\n", "  # b\n", "  // DONE\n", "// FIXME: c\n"].map String.toList

/-- A text with these lines after its first marker. -/
def sampleStyles : Text := "x\n  // TODO: a\n".toList ++ sampleBelow.flatten

set_option maxRecDepth 4000 in
theorem extent_of_marker_sampleStyles :
    ∃ first m id' last,
      sampleScan.item first "a.c".toList id' 2 m
          ((Grammar.ofSettings sampleBoard).block sampleBelow) ∈
        sampleScan.items "a.c".toList 1 sampleStyles ∧
      (Grammar.ofSettings sampleBoard).blockEnd? "//".toList (Line.split sampleStyles) 1 =
        some last ∧
      last ≤ 4 ∧ last ≠ 4 ∧
      ∀ note expected new,
        (Grammar.ofSettings sampleBoard).edit "//".toList note expected 2
          (Line.split sampleStyles) = .ok new →
        ∃ marker' comment, Line.body marker' = "  // TODO: a".toList ∧
          new = ["x\n".toList] ++ marker' :: comment ++ ["// FIXME: c\n".toList] := by
  have hscanned : (Grammar.ofSettings sampleBoard).scannedLines sampleBelow =
      sampleBelow.take 3 := by cbv
  have hmarker : ((Grammar.ofSettings sampleBoard).marker?
      (Line.body "  // TODO: a\n".toList)).isSome = true := by cbv
  have hlines : (Line.split sampleStyles).drop 1 = "  // TODO: a\n".toList :: sampleBelow := by
    decide
  have hopener : "//".toList ∈ Comment.openers := by decide
  have hcolumns : sampleScan.settings.columns ≠ [] := by decide
  obtain ⟨first, m, id', last, hitem, hend, hle, heq, hedit⟩ :=
    extent_of_marker hcolumns hlines hmarker hopener (by decide) "a.c".toList 1
  rw [show sampleScan.settings = sampleBoard from rfl, hscanned] at hle heq hedit
  refine ⟨first, m, id', last, hitem, hend, hle, ?_, hedit⟩
  -- the line with the number sign is read by a scan only
  intro hlast
  have hall := heq.1 hlast "  # b\n".toList (by decide)
  exact absurd hall (by decide)

end ScanContext
end MarkerBoard
