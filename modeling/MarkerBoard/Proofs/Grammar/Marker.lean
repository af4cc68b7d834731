import Mathlib
import MarkerBoard.Proofs.Grammar.Note

/-!
# The lines that open an item

A marker is white space, an opener, white space, a keyword of the board, a colon, and the title.
Keywords are any texts that settings can name: they may have blanks, colons and signs in them, and
one may begin with another. A reader that asks for the longest keyword first finds a marker exactly
where there is one, and there is no choice in what it finds but that of the longest keyword.

Main results:

* `Settings.marks_iff` — a marker, read off what follows the opener.
* `Grammar.marker?_iff_marks` — which lines are markers, and what is read from them.
-/
namespace MarkerBoard

/-! ## Markers of a board -/

namespace Settings

variable {s : Settings} {opener keyword rest line : Text}

/-- The text is a piece between the bars of a column's pattern, without white space at its ends, and
not empty. -/
def IsKeyword (s : Settings) (keyword : Text) : Prop :=
  keyword ≠ [] ∧ ∃ c ∈ s.columns, ∃ pattern, c.pattern = some pattern ∧
    ∃ piece ∈ Text.splitAtEach '|' pattern, keyword = Text.trim piece

/-- The line is white space, an opener, white space, a keyword of the board, a colon and a rest. -/
def Marks (s : Settings) (opener keyword rest line : Text) : Prop :=
  opener ∈ Comment.openers ∧ s.IsKeyword keyword ∧ ∃ before between,
    line = before ++ (opener ++ (between ++ (keyword ++ ':' :: rest))) ∧
    (∀ c ∈ before, Text.isBlank c = true) ∧ ∀ c ∈ between, Text.isBlank c = true

theorem mem_keywords_iff : keyword ∈ (Grammar.ofSettings s).keywords ↔ s.IsKeyword keyword := by
  have hcolumn : ∀ c : Column, keyword ∈ c.keywords ↔ keyword ≠ [] ∧ ∃ pattern,
      c.pattern = some pattern ∧ ∃ piece ∈ Text.splitAtEach '|' pattern,
        keyword = Text.trim piece := by
    intro c
    unfold Column.keywords
    cases c.pattern with
    | none => simp
    | some pattern =>
      simp only [List.mem_filter, List.mem_map, decide_eq_true_eq, Option.some.injEq,
        exists_eq_left']
      exact ⟨fun ⟨⟨piece, hpiece, h⟩, hne⟩ => ⟨hne, piece, hpiece, h.symm⟩,
        fun ⟨hne, piece, hpiece, h⟩ => ⟨⟨piece, hpiece, h.symm⟩, hne⟩⟩
  simp only [Grammar.ofSettings, List.mem_flatMap, hcolumn, IsKeyword]
  constructor
  · rintro ⟨c, hc, hne, h⟩
    exact ⟨hne, c, hc, h⟩
  · rintro ⟨hne, c, hc, h⟩
    exact ⟨c, hc, hne, h⟩

/-- A keyword begins without white space. -/
theorem IsKeyword.beginsOutside (h : s.IsKeyword keyword) (t : Text) :
    Text.BeginsOutside Text.isBlank (keyword ++ t) := by
  obtain ⟨hne, -, -, -, -, piece, -, rfl⟩ := h
  intro c hc
  rw [List.head?_append_of_ne_nil _ hne] at hc
  exact Text.beginsOutside_dropEnds Text.isBlank piece c hc

end Settings

/-- The title in what follows the colon of a marker; none if that is blank. -/
def Text.titleOf (rest : Text) : Option Text :=
  if rest.all Text.isBlank then none else some (Text.trimStart rest)

namespace Grammar

variable {g : Grammar} {s : Settings} {opener keyword rest line t : Text} {m : MarkerLine}

/-- A title is read from what follows a colon. -/
theorem title?_eq_some_iff (ht : '\n' ∉ t) {title : Option Text} :
    title? t = some title ↔ ∃ rest, t = ':' :: rest ∧ title = Text.titleOf rest := by
  have hcolon : ∀ rest, '\n' ∉ rest → title? (':' :: rest) = some (Text.titleOf rest) := by
    intro rest hrest
    have hline : restOfLine (Text.trimStart rest) = Text.trimStart rest := by
      refine List.takeWhile_eq_self_iff.2 fun c hc => ?_
      have hne : c ≠ '\n' := fun h => hrest (h ▸ (List.dropWhile_suffix _).subset hc)
      simpa using hne
    have hblank : Text.trimStart rest = [] ↔ rest.all Text.isBlank = true := by
      rw [Text.trimStart, List.dropWhile_eq_nil_iff, List.all_eq_true]
    rw [title?, hline, Text.titleOf]
    simp only [hblank]
  constructor
  · intro h
    obtain ⟨rest, rfl⟩ := exists_colon_of_title? (by rw [h]; rfl)
    exact ⟨rest, rfl, Option.some.inj (h.symm.trans (hcolon rest fun hmem =>
      ht (List.mem_cons_of_mem _ hmem)))⟩
  · rintro ⟨rest, rfl, rfl⟩
    exact hcolon rest fun hmem => ht (List.mem_cons_of_mem _ hmem)

end Grammar

/-- Which opener and keyword a marker has is told by what follows the opener, since a line has one
opener. -/
theorem Settings.marks_iff {s : Settings} {opener keyword rest line : Text} :
    s.Marks opener keyword rest line ↔ s.IsKeyword keyword ∧ ∃ t,
      Grammar.opening? line = some (opener, t) ∧ Text.trimStart t = keyword ++ ':' :: rest := by
  simp only [Grammar.opening?_eq_some_iff]
  constructor
  · rintro ⟨ho, hk, before, between, rfl, hbefore, hbetween⟩
    exact ⟨hk, _, ⟨ho, before, rfl, hbefore⟩,
      Text.trimStart_append_eq hbetween (hk.beginsOutside _)⟩
  · rintro ⟨hk, t, ⟨ho, before, rfl, hbefore⟩, ht⟩
    refine ⟨ho, hk, before, t.takeWhile Text.isBlank, ?_, hbefore,
      fun c hc => List.mem_takeWhile_imp hc⟩
    rw [← ht, Text.trimStart, List.takeWhile_append_dropWhile]

namespace Grammar

variable {g : Grammar} {s : Settings} {opener keyword rest line t : Text} {m : MarkerLine}

/-! ## Reading them -/

/-- The marker on a line, where the keywords are asked for in a given order. -/
def markerBy? (order : List Text) (line : Text) : Option MarkerLine := do
  let (opener, t) ← opening? line
  let (keyword, title) ← (afterBlanks t).findSome? (firstWord? title? order)
  pure ⟨opener, keyword, title⟩

theorem markerBy?_longestFirst (g : Grammar) (line : Text) :
    markerBy? (Text.longestFirst g.keywords) line = g.marker? line := rfl

theorem markerBy?_eq_some_iff {order : List Text} (horder : ∀ w ∈ order, s.IsKeyword w) :
    markerBy? order line = some m ↔ ∃ t, opening? line = some (m.opener, t) ∧
      firstWord? title? order (Text.trimStart t) = some (m.keyword, m.title) := by
  have hfirst : ∀ w ∈ order, w ≠ [] ∧ ∀ c ∈ w.head?, Text.isBlank c = false := fun w hw =>
    ⟨(horder w hw).1, List.append_nil w ▸ (horder w hw).beginsOutside []⟩
  obtain ⟨opener, keyword, title⟩ := m
  simp only [markerBy?, findSome?_afterBlanks hfirst, Option.bind_eq_bind, Option.bind_eq_some_iff,
    Option.pure_def, Option.some.injEq, MarkerLine.mk.injEq]
  constructor
  · rintro ⟨⟨_, t⟩, hopen, ⟨_, _⟩, hword, rfl, rfl, rfl⟩
    exact ⟨t, hopen, hword⟩
  · rintro ⟨t, hopen, hword⟩
    exact ⟨(opener, t), hopen, (keyword, title), hword, rfl, rfl, rfl⟩

/-- What is found among keywords in the order of their length is a marker, with the title that its
rest has, and no other marker on the line has another opener, or a keyword that the one that is
found does not begin with. -/
theorem marks_of_markerBy? {order : List Text} (hline : '\n' ∉ line)
    (horder : ∀ w, w ∈ order ↔ s.IsKeyword w)
    (hsorted : order.Pairwise fun a b => b.length ≤ a.length) (h : markerBy? order line = some m) :
    (∃ rest, s.Marks m.opener m.keyword rest line ∧ m.title = Text.titleOf rest) ∧
    ∀ opener keyword rest, s.Marks opener keyword rest line →
      opener = m.opener ∧ keyword <+: m.keyword := by
  obtain ⟨t, hopen, hword⟩ := (markerBy?_eq_some_iff fun w => (horder w).1).1 h
  obtain ⟨hk, after, ht, hafter⟩ := firstWord?_eq_some hword
  have hlf : '\n' ∉ Text.trimStart t := by
    obtain ⟨-, before, rfl, -⟩ := opening?_eq_some_iff.1 hopen
    intro hmem
    refine hline (List.mem_append_right _ (List.mem_append_right _ ?_))
    exact (List.dropWhile_suffix _).subset hmem
  rw [ht, List.mem_append, not_or] at hlf
  obtain ⟨rest, rfl, htitle⟩ := (title?_eq_some_iff hlf.2).1 hafter
  have hmarker : s.Marks m.opener m.keyword rest line :=
    Settings.marks_iff.2 ⟨(horder _).1 hk, t, hopen, ht⟩
  refine ⟨⟨rest, hmarker, htitle⟩, ?_⟩
  intro opener keyword rest' hmarks
  obtain ⟨hkeyword, t', hopen', ht'⟩ := Settings.marks_iff.1 hmarks
  cases hopen.symm.trans hopen'
  refine ⟨rfl, ?_⟩
  -- both keywords stand at the same place, so the shorter one begins the longer one
  have hle : keyword.length ≤ m.keyword.length :=
    length_le_of_firstWord? hsorted hword ((horder _).2 hkeyword) ht' (by rfl)
  exact List.prefix_of_prefix_length_le ⟨_, ht'.symm⟩ ⟨_, ht.symm⟩ hle

theorem exists_markerBy?_of_marks {order : List Text} (horder : ∀ w, w ∈ order ↔ s.IsKeyword w)
    (h : s.Marks opener keyword rest line) : ∃ m, markerBy? order line = some m := by
  obtain ⟨hkeyword, t, hopen, ht⟩ := Settings.marks_iff.1 h
  obtain ⟨⟨w, title⟩, hword⟩ : ∃ found, firstWord? title? order (Text.trimStart t) = some found :=
    Option.isSome_iff_exists.1
      (isSome_firstWord?_iff.2 ⟨keyword, (horder _).2 hkeyword, _, ht, by rfl⟩)
  exact ⟨⟨opener, w, title⟩, (markerBy?_eq_some_iff fun w => (horder w).1).2 ⟨t, hopen, hword⟩⟩

/-- A marker is read from a line exactly if it is one: white space, an opener, white space, a
keyword and a colon. The opener is the only one that the line can be said to have; the keyword is
the longest one, which begins with every other keyword that would do; and the title is what follows
the colon, but for its white space in front. Of the order in which keywords are asked for only this
matters, that no shorter one comes before a longer one. -/
theorem marker?_iff_marks (s : Settings) (hline : '\n' ∉ line) :
    ((∃ m, (ofSettings s).marker? line = some m) ↔
      ∃ opener keyword rest, s.Marks opener keyword rest line) ∧
    (∀ m, (ofSettings s).marker? line = some m →
      (∃ rest, s.Marks m.opener m.keyword rest line ∧ m.title = Text.titleOf rest) ∧
      ∀ opener keyword rest, s.Marks opener keyword rest line →
        opener = m.opener ∧ keyword <+: m.keyword) ∧
    ∀ order : List Text, (∀ w, w ∈ order ↔ s.IsKeyword w) →
      order.Pairwise (fun a b => b.length ≤ a.length) →
      markerBy? order line = (ofSettings s).marker? line := by
  have hmem : ∀ w, w ∈ Text.longestFirst (ofSettings s).keywords ↔ s.IsKeyword w := fun w =>
    Text.mem_longestFirst.trans Settings.mem_keywords_iff
  have hlongest := Text.pairwise_longestFirst (ofSettings s).keywords
  refine ⟨⟨?_, ?_⟩, fun m h => marks_of_markerBy? hline hmem hlongest h, ?_⟩
  · rintro ⟨m, h⟩
    obtain ⟨⟨rest, hmarks, -⟩, -⟩ := marks_of_markerBy? hline hmem hlongest h
    exact ⟨m.opener, m.keyword, rest, hmarks⟩
  · rintro ⟨opener, keyword, rest, h⟩
    exact exists_markerBy?_of_marks hmem h
  · intro order horder hsorted
    refine Option.ext fun m => ?_
    rw [← markerBy?_longestFirst, markerBy?_eq_some_iff fun w => (horder w).1,
      markerBy?_eq_some_iff fun w => (hmem w).1]
    simp only [firstWord?_congr (fun w => (horder w).trans (hmem w).symm) hsorted hlongest]

/-! ## Keywords that begin with one another -/

/-- A board with keywords that have a colon, a blank and a sign in them. Two of them are equally
long, and one is the beginning of two others. -/
def sampleWords : Settings where
  columns := [⟨"todo".toList, "TODO".toList, "dark".toList, some "A|A:B| A B |".toList⟩,
    ⟨"done".toList, "DONE".toList, "green".toList, none⟩,
    ⟨"bug".toList, "BUG".toList, "red".toList, some "||A:.".toList⟩]
  labels := ⟨"LOW".toList, "MEDIUM".toList, "HIGH".toList⟩
  exclusions := ⟨[], []⟩
  extra := []

/-- The keyword with the colon in it is longer than the one before this colon, in any order of the
keywords. -/
theorem marker?_iff_marks_sampleWords :
    '\n' ∉ " #A:B: c".toList ∧
    (ofSettings sampleWords).marker? " #A:B: c".toList =
      some ⟨"#".toList, "A:B".toList, some "c".toList⟩ ∧
    sampleWords.Marks "#".toList "A".toList "B: c".toList " #A:B: c".toList ∧
    "A".toList <+: "A:B".toList ∧
    markerBy? ["A:.".toList, "A B".toList, "A:B".toList, "A".toList] " #A:B: c".toList =
      (ofSettings sampleWords).marker? " #A:B: c".toList := by
  have hline : '\n' ∉ " #A:B: c".toList := by decide
  have hread : (ofSettings sampleWords).marker? " #A:B: c".toList =
      some ⟨"#".toList, "A:B".toList, some "c".toList⟩ := by cbv
  have hkeywords : ∀ w, w ∈ ["A:.".toList, "A B".toList, "A:B".toList, "A".toList] ↔
      sampleWords.IsKeyword w := by
    intro w
    have hall : (ofSettings sampleWords).keywords =
        ["A".toList, "A:B".toList, "A B".toList, "A:.".toList] := by decide +kernel
    rw [← Settings.mem_keywords_iff, hall]
    simp only [List.mem_cons, List.not_mem_nil, or_false]
    tauto
  have hshort : sampleWords.Marks "#".toList "A".toList "B: c".toList " #A:B: c".toList :=
    ⟨by decide, (hkeywords _).1 (by decide), [' '], [], by decide, by decide, by decide⟩
  obtain ⟨-, hfound, horder⟩ := marker?_iff_marks sampleWords hline
  exact ⟨hline, hread, hshort, ((hfound _ hread).2 _ _ _ hshort).2,
    horder _ hkeywords (by decide)⟩

end Grammar
end MarkerBoard
