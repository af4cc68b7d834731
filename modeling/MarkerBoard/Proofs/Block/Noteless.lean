import MarkerBoard.Proofs.Block.Terminator
import MarkerBoard.Proofs.Grammar.Lines

/-!
# Comments without notes

An edit keeps a line of a comment unless it is a status line. It need not ask for notes, since a
note is a status line, whatever the words of the board are: also if a name is empty, has white space
at its ends, or begins another name. The lines that stay may get other terminators. But a note has
its name before these, so it would have been found without them.

Main results:

* `Grammar.note?_eq_none_of_statusLine?` — a line that an edit keeps is no note.
* `Grammar.forms_nested` — which forms of lines have which in them, and what an edit leaves.
-/
namespace MarkerBoard.Grammar

variable {g : Grammar} {line : Text} {own own' : List Text}

/-- A line that is no status line without its terminator is no note, with it or without it. -/
theorem note?_eq_none_of_statusLine? (h : g.statusLine? (Line.body line) = none) :
    g.note? line = none ∧ g.note? (Line.body line) = none := by
  have hnot : ¬ (g.statusLine? (Line.body line)).isSome := by simp [h]
  constructor
  · exact Option.not_isSome_iff_eq_none.1 fun hnote => hnot (isSome_statusLine?_body_of_note? hnote)
  · exact Option.not_isSome_iff_eq_none.1 fun hnote => hnot (isSome_statusLine?_of_note? hnote)

/-- Lines with the texts of those that an edit keeps are no notes. -/
theorem note?_eq_none_of_map_body (h : own'.map Line.body = (g.keptLines own).map Line.body) :
    ∀ l ∈ own', g.note? l = none ∧ g.note? (Line.body l) = none := by
  intro l hl
  have hbody : Line.body l ∈ (g.keptLines own).map Line.body := h ▸ List.mem_map_of_mem hl
  obtain ⟨k, hk, hkl⟩ := List.mem_map.1 hbody
  have hstatus : g.statusLine? (Line.body k) = none := by
    simpa [isStatusLine] using (List.mem_filter.1 hk).2
  exact note?_eq_none_of_statusLine? (hkl ▸ hstatus)

/-- On every board, notes and markers are status lines, and these, priorities, notes and markers are
descriptions. So an edit that adds no note leaves none: the lines around the comment of the marker
stay, and of the lines below the marker that then make up the comment, which are those that were no
status lines, none is a note. -/
theorem forms_nested (s : Settings) :
    (∀ line, ((ofSettings s).note? line).isSome → ((ofSettings s).statusLine? line).isSome) ∧
    (∀ line, ((ofSettings s).marker? line).isSome → ((ofSettings s).statusLine? line).isSome) ∧
    (∀ line, ((ofSettings s).marker? line).isSome ∨ ((ofSettings s).note? line).isSome ∨
      ((ofSettings s).priority? line).isSome ∨ ((ofSettings s).statusLine? line).isSome →
        (description? line).isSome) ∧
    ∀ opener expected number lines new,
      (ofSettings s).edit opener [] expected number lines = .ok new →
      ∃ marker comment,
        new = lines.take (number - 1).toNat ++ marker :: comment ++
          (lines.drop number.toNat).dropWhile ((ofSettings s).continues opener) ∧
        (ofSettings s).ownLines opener (new.drop number.toNat) = comment ∧
        comment.map Line.body = ((ofSettings s).keptLines
          ((ofSettings s).ownLines opener (lines.drop number.toNat))).map Line.body ∧
        ∀ l ∈ comment, (ofSettings s).note? l = none ∧
          (ofSettings s).note? (Line.body l) = none := by
  refine ⟨fun _ => isSome_statusLine?_of_note?, fun _ => isSome_statusLine?_of_marker?, ?_, ?_⟩
  · rintro line (h | h | h | h)
    · exact (isSome_marker?_iff.1 h).isSome_description?
    · exact (isSome_note?_iff.1 h).isSome_description?
    · exact (isSome_priority?_iff.1 h).isSome_description?
    · exact (isSome_statusLine?_iff.1 h).isSome_description?
  · intro opener expected number lines new h
    obtain ⟨before, marker, own, after, m, hat, -, rfl⟩ := edit_eq_ok_iff.1 h
    -- the comment that the next edit would find has the texts of the lines that are kept
    have hadded : addedTexts [] marker = [] := rfl
    obtain ⟨marker', own', hannotate, -, hown, hat'⟩ :=
      hat.annotated ⟨List.not_mem_nil, List.not_mem_nil⟩ fun t ht =>
        absurd (hadded ▸ ht) List.not_mem_nil
    rw [hadded, List.append_nil] at hown
    refine ⟨marker', own', ?_, ?_, ?_, note?_eq_none_of_map_body hown⟩
    · rw [hat.take_eq, hat.drop_eq, hat.dropWhile_eq, hannotate]
    · rw [hat'.drop_eq, hat'.ownLines_eq]
    · rw [hat.drop_eq, hat.ownLines_eq, hown]

/-! ## A board with odd names -/

/-- A board with an empty name, a padded one, and two that begin with one another, one of which
begins with a keyword too. -/
def sampleNames : Settings where
  columns := [⟨"a".toList, "A".toList, [], some "A| A B |".toList⟩,
    ⟨"b".toList, [], [], none⟩, ⟨"c".toList, " C ".toList, [], none⟩,
    ⟨"d".toList, "A B C".toList, [], none⟩, ⟨"e".toList, "A B C D".toList, [], none⟩]
  labels := ⟨"A".toList, " B".toList, []⟩
  exclusions := ⟨[], []⟩
  extra := []

/-- A comment with two notes, one with the empty name and one with the longest name. -/
def sampleNotes : List Text :=
  ["//A: t\r\n", "// 2024-01-02 09:00 by u\n", "//keep\r\n",
    "//A B C D\t2024-01-02 09:00 by u\r\r\n", "# A\n"].map String.toList

/-- Only one line is left below the marker, with the terminator of the last note. -/
theorem forms_nested_sampleNotes :
    ((ofSettings sampleNames).note? "// C  2024-01-02 09:00 by u -->".toList).isSome ∧
      ((ofSettings sampleNames).statusLine? "// C  2024-01-02 09:00 by u -->".toList).isSome ∧
      ((ofSettings sampleNames).marker? "//A: t".toList).isSome ∧
      ((ofSettings sampleNames).statusLine? "//A: t".toList).isSome ∧
      ((ofSettings sampleNames).priority? "# A".toList).isSome ∧
      (description? "# A".toList).isSome ∧
      (ofSettings sampleNames).edit "//".toList [] none 1 sampleNotes =
        .ok (["//A: t\r\n", "//keep\r\r\n", "# A\n"].map String.toList) ∧
      ∃ marker comment,
        ["//A: t\r\n", "//keep\r\r\n", "# A\n"].map String.toList =
          marker :: comment ++ ["# A\n".toList] ∧
        comment.map Line.body = ["//keep".toList] ∧
        ∀ l ∈ comment, (ofSettings sampleNames).note? l = none ∧
          (ofSettings sampleNames).note? (Line.body l) = none := by
  have hnote : ((ofSettings sampleNames).note?
      "// C  2024-01-02 09:00 by u -->".toList).isSome = true := by cbv
  have hmarker : ((ofSettings sampleNames).marker? "//A: t".toList).isSome = true := by cbv
  have hpriority : ((ofSettings sampleNames).priority? "# A".toList).isSome = true := by cbv
  have hnew : (ofSettings sampleNames).edit "//".toList [] none 1 sampleNotes =
      .ok (["//A: t\r\n", "//keep\r\r\n", "# A\n"].map String.toList) := by cbv
  have hafter : (sampleNotes.drop 1).dropWhile ((ofSettings sampleNames).continues "//".toList) =
      ["# A\n".toList] := by cbv
  have hkept : ((ofSettings sampleNames).keptLines ((ofSettings sampleNames).ownLines "//".toList
      (sampleNotes.drop 1))).map Line.body = ["//keep".toList] := by cbv
  obtain ⟨hnotes, hmarkers, hall, hedit⟩ := forms_nested sampleNames
  obtain ⟨marker, comment, hlines, -, htexts, hnone⟩ := hedit _ _ _ _ _ hnew
  exact ⟨hnote, hnotes _ hnote, hmarker, hmarkers _ hmarker, hpriority,
    hall _ (.inr (.inr (.inl hpriority))), hnew, marker, comment,
    hlines.trans (congrArg (marker :: comment ++ ·) hafter), htexts.trans hkept, hnone⟩

end MarkerBoard.Grammar
