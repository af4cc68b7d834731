import MarkerBoard.Proofs.Grammar.Words
import MarkerBoard.Proofs.Moment.Minute
import MarkerBoard.Proofs.Text.Ends
import MarkerBoard.Grammar.Line

/-!
# The transition after a name

After its name a note has a stamp, the word "by", and a user. The user is the shortest text after
which the line can end, so it is read back without the white space around it, unless it ends in
a closing mark itself.

Main results:

* `Grammar.exists_colon_of_transition?` — the first colon of a transition comes late.
* `Grammar.user?_append` — a user is found when the line cannot end before.
* `Grammar.transition?_eq` — what is read from a transition.
-/
namespace MarkerBoard

/-- A user that a note can bear: visible, on one line, and not ending in a closing mark. -/
structure Comment.Signer (user : Text) : Prop where
  visible : Text.trim user ≠ []
  not_lf : '\n' ∉ user
  not_cr : '\r' ∉ user
  not_close : Text.endsWith Comment.markupClose (Text.trim user) = false

namespace Text

theorem endsWith_append (front back : Text) : endsWith back (front ++ back) = true := by
  rw [endsWith, before?, List.reverse_append, after?_append]
  rfl

/-- A text without white space at its end is not changed by what blanks follow it. -/
theorem append_left_cancel_of_blank {s s' b b' : Text} (hs : EndsOutside isBlank s)
    (hs' : EndsOutside isBlank s') (hb : ∀ c ∈ b, isBlank c = true)
    (hb' : ∀ c ∈ b', isBlank c = true) (h : s ++ b = s' ++ b') : s = s' := by
  rw [← dropEnd_eq_self hs, ← dropEnd_append_of_all hb, h, dropEnd_append_of_all hb',
    dropEnd_eq_self hs']

theorem eq_nil_of_blank_of_endsOutside {s : Text} (hs : EndsOutside isBlank s)
    (hb : ∀ c ∈ s, isBlank c = true) : s = [] := by
  rw [← dropEnd_eq_self hs, ← List.nil_append s, dropEnd_append_of_all hb]
  rfl

end Text

namespace Grammar

/-! ## Stamps -/

theorem digits?_eq_some_iff {n : Nat} {t r : Text} :
    digits? n t = some r ↔
      ∃ ds, ds.length = n ∧ (∀ c ∈ ds, Text.isDigit c = true) ∧ t = ds ++ r := by
  rw [digits?]
  constructor
  · intro h
    split at h
    · next hd =>
      refine ⟨t.take n, hd.1, fun c hc => List.all_eq_true.1 hd.2 c hc, ?_⟩
      rw [← Option.some.inj h, List.take_append_drop]
    · exact absurd h (by simp)
  · rintro ⟨ds, rfl, hd, rfl⟩
    rw [if_pos]
    · simp
    · simpa using hd

theorem digits?_map_digitChar {n : Nat} {ds : List Nat} {r : Text} (hn : ds.length = n)
    (hds : ∀ d ∈ ds, d < 10) : digits? n (ds.map Nat.digitChar ++ r) = some r := by
  refine digits?_eq_some_iff.2 ⟨ds.map Nat.digitChar, by simpa using hn, ?_, rfl⟩
  intro c hc
  obtain ⟨d, hd, rfl⟩ := List.mem_map.1 hc
  rw [Text.isDigit, Text.digit?_digitChar (hds d hd)]
  rfl

theorem digits?_two {a b : Nat} (ha : a < 10) (hb : b < 10) (r : Text) :
    digits? 2 ([a, b].map Nat.digitChar ++ r) = some r := by
  refine digits?_map_digitChar rfl fun d hd => ?_
  simp only [List.mem_cons, List.not_mem_nil, or_false] at hd
  rcases hd with rfl | rfl <;> assumption

theorem blanks?_cons {c : Char} (hc : Text.isBlank c = true) (t : Text) :
    blanks? (c :: t) = some (Text.trimStart t) := by
  rw [blanks?, if_pos hc]

theorem exists_of_blanks? {t r : Text} (h : blanks? t = some r) :
    ∃ blanks, blanks ≠ [] ∧ (∀ c ∈ blanks, Text.isBlank c = true) ∧ t = blanks ++ r := by
  cases t with
  | nil => exact absurd h (by simp [blanks?])
  | cons c t =>
    rw [blanks?] at h
    split at h
    · next hc =>
      refine ⟨c :: t.takeWhile Text.isBlank, List.cons_ne_nil _ _, ?_, ?_⟩
      · exact List.forall_mem_cons.2 ⟨hc, fun d hd => List.mem_takeWhile_imp hd⟩
      · rw [← Option.some.inj h, List.cons_append, Text.trimStart,
          List.takeWhile_append_dropWhile]
    · exact absurd h (by simp)

/-- The parts of a stamp. -/
theorem exists_of_stampEnd? {t r : Text} (h : stampEnd? t = some r) :
    ∃ front back, t = front ++ ':' :: back ∧ ':' ∉ front ∧ 13 ≤ front.length := by
  rw [stampEnd?] at h
  simp only [Option.bind_eq_bind, Option.bind_eq_some_iff, Text.after?_eq_some_iff,
    digits?_eq_some_iff] at h
  obtain ⟨_, ⟨y, hy, hyd, rfl⟩, t₁, rfl, _, ⟨mo, hmo, hmod, rfl⟩, t₂, rfl, _, ⟨d, hd, hdd, rfl⟩,
    t₃, hb, _, ⟨hh, hhh, hhd, rfl⟩, t₄, rfl, -⟩ := h
  obtain ⟨blanks, hne, hblank, rfl⟩ := exists_of_blanks? hb
  have hdigit : Text.isDigit ':' = false := by decide
  have hcolon : ∀ {ds : Text}, (∀ c ∈ ds, Text.isDigit c = true) → ':' ∉ ds :=
    fun hds hc => absurd (hds _ hc) (by rw [hdigit]; decide)
  have hblankColon : ':' ∉ blanks := fun hc => absurd (hblank _ hc) (by decide)
  refine ⟨y ++ '-' :: mo ++ '-' :: d ++ blanks ++ hh, t₄, by simp, ?_, ?_⟩
  · simp only [List.mem_append, List.mem_cons, not_or]
    exact ⟨⟨⟨⟨hcolon hyd, by decide, hcolon hmod⟩, by decide, hcolon hdd⟩, hblankColon⟩,
      hcolon hhd⟩
  · have := List.length_pos_iff.2 hne
    simp only [List.length_append, List.length_cons]
    omega

/-- The first colon of a stamp is the one of its time. In a year of four digits it stands after 13
characters. -/
theorem exists_toMinuteText_colon (m : Moment) :
    ∃ front back, m.toMinuteText = front ++ ':' :: back ∧ ':' ∉ front ∧
      (1000 ≤ m.year → front.length = 13) := by
  refine ⟨Text.ofNat m.year ++ '-' :: Text.ofNatPadded 2 m.month ++ '-' :: Text.ofNatPadded 2 m.day
    ++ ' ' :: Text.ofNatPadded 2 m.hour, Text.ofNatPadded 2 m.minute, ?_, ?_, ?_⟩
  · rw [Moment.toMinuteText]
  · -- what stands before it is digits, dashes and a space
    have hcolon : ∀ {t : Text} {n : Nat}, Text.Spells t n → ':' ∉ t := by
      rintro t n ⟨ds, hds, rfl, -⟩ hc
      obtain ⟨d, hd, he⟩ := List.mem_map.1 hc
      have := Text.digit?_digitChar (hds d hd)
      rw [he] at this
      exact absurd this (by rw [show Text.digit? ':' = none by decide]; simp)
    simp only [List.mem_append, List.mem_cons, not_or]
    exact ⟨⟨⟨hcolon (Text.spells_ofNat _), by decide, hcolon (Text.spells_ofNatPadded _ _)⟩,
      by decide, hcolon (Text.spells_ofNatPadded _ _)⟩, by decide,
      hcolon (Text.spells_ofNatPadded _ _)⟩
  · intro hyear
    obtain ⟨⟨-, hlast⟩, ⟨-, hmonth⟩, ⟨-, hday⟩, hhour, -⟩ := m.valid
    have hdays := Calendar.daysInMonth_le m.year m.month
    obtain ⟨ds, hlength, -, -, hds⟩ := Moment.exists_ofNat_four hyear (by omega)
    have htwo : ∀ n < 100, (Text.ofNatPadded 2 n).length = 2 := fun n hn =>
      Text.length_ofNatPadded (by omega) (by omega)
    simp only [List.length_append, List.length_cons, hds, List.length_map, hlength,
      htwo m.month (by omega), htwo m.day (by omega), htwo m.hour (by omega)]

/-- A stamp ends where it has been written to the end. -/
theorem stampEnd?_toMinuteText {m : Moment} (h : 1000 ≤ m.year) (t : Text) :
    stampEnd? (m.toMinuteText ++ t) = some t := by
  obtain ⟨y, mo₁, mo₂, d₁, d₂, h₁, h₂, mi₁, mi₂, hlen, hlt, -, -, -, -, -, ht⟩ :=
    Moment.exists_toMinuteText_eq h
  simp only [List.mem_append, List.mem_cons, List.not_mem_nil, or_false] at hlt
  -- after the white space the hours begin with a digit
  have hblanks : ∀ r, blanks? (' ' :: ([h₁, h₂].map Nat.digitChar ++ r)) =
      some ([h₁, h₂].map Nat.digitChar ++ r) := by
    intro r
    rw [blanks?_cons (by decide)]
    refine congrArg some (Text.dropWhile_eq_self ?_)
    rintro c hc
    cases hc
    exact Text.isBlank_digitChar (hlt _ (by simp))
  rw [ht, stampEnd?]
  simp only [List.append_assoc, List.cons_append]
  rw [digits?_map_digitChar hlen fun d hd => hlt d (Or.inl hd)]
  simp only [Option.bind_eq_bind, Option.bind_some, Text.after?, if_true]
  rw [digits?_two (hlt mo₁ (by simp)) (hlt mo₂ (by simp))]
  simp only [Option.bind_some, Text.after?, if_true]
  rw [digits?_two (hlt d₁ (by simp)) (hlt d₂ (by simp))]
  simp only [Option.bind_some]
  rw [hblanks]
  simp only [Option.bind_some]
  rw [digits?_two (hlt h₁ (by simp)) (hlt h₂ (by simp))]
  simp only [Option.bind_some, Text.after?, if_true]
  exact digits?_two (hlt mi₁ (by simp)) (hlt mi₂ (by simp)) t

/-! ## Users -/

/-- Where a line can end there is at most a closing mark. -/
theorem of_isSome_closing? {t : Text} (h : (closing? t).isSome) :
    ∃ b b', (t = b ∨ t = b ++ (Comment.markupClose ++ b')) ∧ (∀ c ∈ b, Text.isBlank c = true) ∧
      ∀ c ∈ b', Text.isBlank c = true := by
  rw [closing?] at h
  split at h
  · next rest hrest =>
    split at h
    · next hall =>
      refine ⟨t.takeWhile Text.isBlank, rest, Or.inr ?_, fun c hc => List.mem_takeWhile_imp hc,
        fun c hc => List.all_eq_true.1 hall c hc⟩
      rw [← Text.after?_eq_some_iff.1 hrest, Text.trimStart, List.takeWhile_append_dropWhile]
    · exact absurd h (by simp)
  · split at h
    · next hall =>
      exact ⟨t, [], Or.inl rfl, fun c hc => List.all_eq_true.1 hall c hc, by simp⟩
    · exact absurd h (by simp)

theorem closing?_of_blank {t : Text} (h : ∀ c ∈ t, Text.isBlank c = true) :
    closing? t = some none := by
  have htrim : Text.trimStart t = [] := List.dropWhile_eq_nil_iff.2 h
  rw [closing?, htrim]
  exact if_pos (List.all_eq_true.2 h)

theorem isSome_closing?_append {b : Text} (h : ∀ c ∈ b, Text.isBlank c = true) :
    (closing? (b ++ Comment.markupClose)).isSome := by
  have htrim : Text.trimStart (b ++ Comment.markupClose) = Comment.markupClose :=
    Text.trimStart_append_eq h (by
      intro c hc
      cases hc
      decide)
  rw [closing?, htrim]
  rfl

/-- The user goes on until the line can end. -/
theorem user?_append {core rest : Text} {close : Option Text} (hne : core ≠ [])
    (hlf : '\n' ∉ core)
    (hnot : ∀ s, s ≠ [] → s <:+ core → closing? (s ++ rest) = none)
    (hclose : closing? rest = some close) : user? (core ++ rest) = some (core, close) := by
  induction core with
  | nil => exact absurd rfl hne
  | cons c core ih =>
    have hc : c ≠ '\n' := fun e => hlf (e ▸ List.mem_cons_self)
    rw [List.cons_append, user?, if_neg hc]
    by_cases hcore : core = []
    · subst hcore
      rw [List.nil_append, hclose]
    · rw [hnot core hcore (List.suffix_cons c core),
        ih hcore (fun h => hlf (List.mem_cons_of_mem _ h))
          fun s hs hsuf => hnot s hs (hsuf.trans (List.suffix_cons c core))]
      rfl

/-- What follows the user in a note: nothing, or the closing mark of markup. -/
def Closes (tail : Text) : Prop := tail = [] ∨ tail = ' ' :: Comment.markupClose

/-- The line cannot end inside a user. -/
theorem closing?_eq_none {core s b tail : Text} (hend : Text.EndsOutside Text.isBlank core)
    (hclose : Text.endsWith Comment.markupClose core = false)
    (hb : ∀ c ∈ b, Text.isBlank c = true) (htail : Closes tail) (hne : s ≠ []) (hs : s <:+ core) :
    closing? (s ++ (b ++ tail)) = none := by
  have hsEnd : Text.EndsOutside Text.isBlank s := by
    obtain ⟨front, rfl⟩ := hs
    intro c hc
    refine hend c ?_
    rw [List.getLast?_append, Option.mem_def.1 hc]
    rfl
  -- what ends in the closing mark ends in a character that is not blank
  have hmark : ∀ u : Text, Text.EndsOutside Text.isBlank (u ++ Comment.markupClose) :=
    fun u => Text.endsOutside_append (by decide) (by
      intro c hc
      cases hc
      decide)
  by_contra hsome
  obtain ⟨b₁, b₂, hcases, hb₁, hb₂⟩ := of_isSome_closing? (Option.isSome_iff_ne_none.2 hsome)
  rcases htail with rfl | rfl
  · rw [List.append_nil] at hcases
    rcases hcases with he | he
    · refine hne (Text.eq_nil_of_blank_of_endsOutside hsEnd fun c hc => hb₁ c ?_)
      rw [← he]
      exact List.mem_append_left _ hc
    · -- then the user ends in a closing mark
      rw [← List.append_assoc] at he
      have he' := Text.append_left_cancel_of_blank hsEnd (hmark b₁) hb hb₂ he
      obtain ⟨front, rfl⟩ := hs
      rw [he', ← List.append_assoc, Text.endsWith_append] at hclose
      exact absurd hclose (by simp)
  · rcases hcases with he | he
    · refine hne (Text.eq_nil_of_blank_of_endsOutside hsEnd fun c hc => hb₁ c ?_)
      rw [← he]
      exact List.mem_append_left _ hc
    · -- then the user is white space
      have he' := Text.append_left_cancel_of_blank (s := (s ++ b ++ [' ']) ++ Comment.markupClose)
        (b := []) (hmark _) (hmark b₁) (by simp) hb₂ (by simpa using he)
      have hblank := List.append_cancel_right he'
      refine hne (Text.eq_nil_of_blank_of_endsOutside hsEnd fun c hc => hb₁ c ?_)
      rw [← hblank]
      simp [hc]

theorem isSome_closing?_of_closes {b tail : Text} (hb : ∀ c ∈ b, Text.isBlank c = true)
    (htail : Closes tail) : (closing? (b ++ tail)).isSome := by
  rcases htail with rfl | rfl
  · rw [List.append_nil, closing?_of_blank hb]
    rfl
  · have h := isSome_closing?_append (b := b ++ [' ']) (by
      intro c hc
      rcases List.mem_append.1 hc with hc | hc
      · exact hb c hc
      · rw [List.mem_singleton.1 hc]
        decide)
    simpa using h

/-! ## Transitions -/

/-- The first colon of a transition stands after 14 characters. -/
theorem exists_colon_of_transition? {t : Text} (h : (transition? t).isSome) :
    ∃ front back, t = front ++ ':' :: back ∧ ':' ∉ front ∧ 14 ≤ front.length := by
  rw [transition?, Option.bind_eq_bind, Option.isSome_bind, Option.any_eq_true] at h
  obtain ⟨start, hb, h⟩ := h
  obtain ⟨r, hr⟩ := Option.isSome_iff_exists.1 (Option.isSome_of_isSome_bind h)
  obtain ⟨blanks, hne, hblank, rfl⟩ := exists_of_blanks? hb
  obtain ⟨front, back, rfl, hcolon, hlen⟩ := exists_of_stampEnd? hr
  refine ⟨blanks ++ front, back, by simp, ?_, ?_⟩
  · rw [List.mem_append, not_or]
    exact ⟨fun hc => absurd (hblank _ hc) (by decide), hcolon⟩
  · have := List.length_pos_iff.2 hne
    rw [List.length_append]
    omega

/-- A signed user is read back, without the white space around it. -/
theorem exists_user?_eq {user tail : Text} (hu : Comment.Signer user) (htail : Closes tail) :
    ∃ close, user? (Text.trimStart (user ++ tail)) = some (Text.trim user, close) := by
  obtain ⟨front, back, huser, hfront, hback⟩ := Text.exists_dropEnds_append Text.isBlank user
  have hcore : Text.dropEnds Text.isBlank user = Text.trim user := rfl
  rw [hcore] at huser
  obtain ⟨close, hclose⟩ := Option.isSome_iff_exists.1 (isSome_closing?_of_closes hback htail)
  have hstart : Text.trimStart (user ++ tail) = Text.trim user ++ (back ++ tail) := by
    conv_lhs => rw [huser]
    rw [List.append_assoc, List.append_assoc]
    refine Text.trimStart_append_eq hfront ?_
    intro c hc
    rw [List.head?_append_of_ne_nil _ hu.visible] at hc
    exact Text.beginsOutside_dropEnds Text.isBlank user c hc
  refine ⟨close, ?_⟩
  rw [hstart]
  -- the line can end after the user, and nowhere inside
  refine user?_append hu.visible ?_ ?_ hclose
  · intro h
    refine hu.not_lf ?_
    rw [huser]
    exact List.mem_append_right _ (List.mem_append_left _ h)
  · intro s hs hsuf
    exact closing?_eq_none (Text.endsOutside_dropEnds _ _) hu.not_close hback htail hs hsuf

theorem trimStart_toMinuteText_append {m : Moment} (hm : 1000 ≤ m.year) (t : Text) :
    Text.trimStart (m.toMinuteText ++ t) = m.toMinuteText ++ t := by
  obtain ⟨y, mo₁, mo₂, d₁, d₂, h₁, h₂, mi₁, mi₂, hlen, hlt, -, -, -, -, -, ht⟩ :=
    Moment.exists_toMinuteText_eq hm
  obtain ⟨y₁, y₂, y₃, y₄, rfl⟩ := List.length_eq_four.1 hlen
  refine Text.dropWhile_eq_self ?_
  rw [ht]
  rintro c hc
  cases hc
  exact Text.isBlank_digitChar (hlt _ (by simp))

/-- A transition is read back: its stamp, and its user without the white space around it. -/
theorem transition?_eq {m : Moment} {user tail : Text} (hm : 1000 ≤ m.year)
    (hu : Comment.Signer user) (htail : Closes tail) :
    ∃ close, transition? (' ' :: (m.toMinuteText ++ ([' ', 'b', 'y', ' '] ++ (user ++ tail)))) =
      some (m.toMinuteText, Text.trim user, close) := by
  obtain ⟨close, hfound⟩ := exists_user?_eq hu htail
  obtain ⟨more, hmore⟩ := exists_afterBlanks_eq (user ++ tail)
  refine ⟨close, ?_⟩
  rw [transition?, blanks?_cons (by decide), trimStart_toMinuteText_append hm]
  simp only [Option.bind_eq_bind, Option.bind_some]
  rw [stampEnd?_toMinuteText hm]
  simp only [Option.bind_some, List.cons_append, List.nil_append]
  rw [blanks?_cons (by decide)]
  rw [show Text.trimStart ('b' :: 'y' :: ' ' :: (user ++ tail)) = 'b' :: 'y' :: ' ' :: (user ++ tail)
    from rfl]
  simp only [Option.bind_some, Text.after?, if_true]
  rw [if_pos (by decide), hmore, List.findSome?_cons, hfound]
  simp

end Grammar
end MarkerBoard
