import MarkerBoard.Line
import MarkerBoard.Moment.Minute
import MarkerBoard.Proofs.Text.Decimal
import MarkerBoard.Proofs.Text.Pieces

/-!
# Minute stamps read back

A stamp has the form that its reader expects when the year has four digits. It tells the moment to
the minute; seconds and the offset are not in it.

Main results:

* `Moment.exists_toMinuteText_eq` — the characters of a stamp.
* `Moment.ofMinuteText?_toMinuteText` — a stamp is read as the moment to the minute.
-/
namespace MarkerBoard

theorem Calendar.daysInMonth_le (year month : Nat) : daysInMonth year month ≤ 31 := by
  unfold daysInMonth
  split
  case h_12 => split <;> omega
  all_goals omega

namespace Moment

/-- The moment as a wall clock without a second hand shows it. -/
def toMinute (m : Moment) : Moment :=
  ⟨m.year, m.month, m.day, m.hour, m.minute, 0, 0, none,
    m.valid.1, m.valid.2.1, m.valid.2.2.1, m.valid.2.2.2.1, m.valid.2.2.2.2.1, by decide, by decide,
    by decide, by decide⟩

/-- Two digits of a number are read back. -/
theorem twoDigits?_digitChar (strict : List Nat) {a b : Nat} (ha : a < 10) (hb : b < 10) :
    twoDigits? strict (Nat.digitChar a) (Nat.digitChar b) = some (10 * a + b) := by
  rw [twoDigits?, Text.asciiDigit?_digitChar ha, Text.digit?_digitChar hb,
    Text.asciiDigit?_digitChar hb]
  simp

/-- A number below 100 takes two digits. -/
theorem exists_ofNatPadded_two {n : Nat} (h : n < 100) :
    ∃ a b, a < 10 ∧ b < 10 ∧ 10 * a + b = n ∧
      Text.ofNatPadded 2 n = [Nat.digitChar a, Nat.digitChar b] := by
  obtain ⟨ds, hds, ht, hv⟩ := Text.spells_ofNatPadded 2 n
  have hlen := Text.length_ofNatPadded (show 0 < 2 by omega) (show n < 10 ^ 2 by omega)
  rw [ht, List.length_map] at hlen
  obtain ⟨a, b, rfl⟩ := List.length_eq_two.1 hlen
  refine ⟨a, b, hds a (by simp), hds b (by simp), ?_, ht⟩
  rw [← hv]
  simp [Text.natOfDigits]

/-- A year from 1000 on takes four digits. -/
theorem exists_ofNat_four {n : Nat} (h : 1000 ≤ n) (h' : n < 10000) :
    ∃ ds, ds.length = 4 ∧ (∀ d ∈ ds, d < 10) ∧ Text.natOfDigits ds = n ∧
      Text.ofNat n = ds.map Nat.digitChar := by
  obtain ⟨ds, hds, ht, hv⟩ := Text.spells_ofNat n
  have hle := (Text.length_ofNat_le_iff (k := 4) (by omega)).2 h'
  have hgt := mt (Text.length_ofNat_le_iff (k := 3) (n := n) (by omega)).1 (by omega)
  rw [ht, List.length_map] at hle hgt
  exact ⟨ds, by omega, hds, hv, ht⟩

/-- A stamp stands on one line. -/
theorem isEol_of_mem_toMinuteText (m : Moment) : ∀ c ∈ m.toMinuteText, Line.isEol c = false := by
  have hdigits : ∀ {t : Text} {n : Nat}, Text.Spells t n → ∀ c ∈ t, Line.isEol c = false := by
    rintro t n ⟨ds, hds, rfl, -⟩ c hc
    obtain ⟨d, hd, rfl⟩ := List.mem_map.1 hc
    have : ∀ d < 10, Line.isEol (Nat.digitChar d) = false := by decide
    exact this d (hds d hd)
  rw [toMinuteText]
  simp only [List.forall_mem_append, List.forall_mem_cons]
  exact ⟨⟨⟨⟨hdigits (Text.spells_ofNat _), by decide, hdigits (Text.spells_ofNatPadded _ _)⟩,
    by decide, hdigits (Text.spells_ofNatPadded _ _)⟩, by decide,
    hdigits (Text.spells_ofNatPadded _ _)⟩, by decide, hdigits (Text.spells_ofNatPadded _ _)⟩

/-- The stamp of a moment whose year has four digits. -/
theorem exists_toMinuteText_eq {m : Moment} (h : 1000 ≤ m.year) :
    ∃ y mo₁ mo₂ d₁ d₂ h₁ h₂ mi₁ mi₂, y.length = 4 ∧
      (∀ d ∈ y ++ [mo₁, mo₂, d₁, d₂, h₁, h₂, mi₁, mi₂], d < 10) ∧
      Text.natOfDigits y = m.year ∧ 10 * mo₁ + mo₂ = m.month ∧ 10 * d₁ + d₂ = m.day ∧
      10 * h₁ + h₂ = m.hour ∧ 10 * mi₁ + mi₂ = m.minute ∧
      m.toMinuteText = y.map Nat.digitChar ++ '-' :: [mo₁, mo₂].map Nat.digitChar ++
        '-' :: [d₁, d₂].map Nat.digitChar ++ ' ' :: [h₁, h₂].map Nat.digitChar ++
        ':' :: [mi₁, mi₂].map Nat.digitChar := by
  obtain ⟨hy, hmo, hd, hh, hmi, -⟩ := m.valid
  have hdays := Calendar.daysInMonth_le m.year m.month
  obtain ⟨y, hylen, hylt, hyv, hyt⟩ := exists_ofNat_four h (by omega)
  obtain ⟨mo₁, mo₂, hmo₁, hmo₂, hmov, hmot⟩ := exists_ofNatPadded_two (n := m.month) (by omega)
  obtain ⟨d₁, d₂, hd₁, hd₂, hdv, hdt⟩ := exists_ofNatPadded_two (n := m.day) (by omega)
  obtain ⟨h₁, h₂, hh₁, hh₂, hhv, hht⟩ := exists_ofNatPadded_two (n := m.hour) (by omega)
  obtain ⟨mi₁, mi₂, hmi₁, hmi₂, hmiv, hmit⟩ := exists_ofNatPadded_two (n := m.minute) (by omega)
  refine ⟨y, mo₁, mo₂, d₁, d₂, h₁, h₂, mi₁, mi₂, hylen, ?_, hyv, hmov, hdv, hhv, hmiv, ?_⟩
  · intro d hd
    simp only [List.mem_append, List.mem_cons, List.not_mem_nil, or_false] at hd
    rcases hd with hd | rfl | rfl | rfl | rfl | rfl | rfl | rfl | rfl
    · exact hylt d hd
    all_goals assumption
  · rw [toMinuteText, hyt, hmot, hdt, hht, hmit]
    rfl

/-- A stamp tells the moment to the minute. -/
theorem ofMinuteText?_toMinuteText {m : Moment} (h : 1000 ≤ m.year) :
    ofMinuteText? m.toMinuteText = some m.toMinute := by
  obtain ⟨y, mo₁, mo₂, d₁, d₂, h₁, h₂, mi₁, mi₂, hlen, hlt, hy, hmo, hd, hh, hmi, ht⟩ :=
    exists_toMinuteText_eq h
  obtain ⟨y₁, y₂, y₃, y₄, rfl⟩ := List.length_eq_four.1 hlen
  simp only [List.cons_append, List.nil_append, List.forall_mem_cons] at hlt
  obtain ⟨hy₁, hy₂, hy₃, hy₄, hmo₁, hmo₂, hd₁, hd₂, hh₁, hh₂, hmi₁, hmi₂, -⟩ := hlt
  -- the only white space stands between the day and the hour
  have hwords : Text.words m.toMinuteText =
      [[Nat.digitChar y₁, Nat.digitChar y₂, Nat.digitChar y₃, Nat.digitChar y₄, '-',
        Nat.digitChar mo₁, Nat.digitChar mo₂, '-', Nat.digitChar d₁, Nat.digitChar d₂],
       [Nat.digitChar h₁, Nat.digitChar h₂, ':', Nat.digitChar mi₁, Nat.digitChar mi₂]] := by
    rw [ht, ← Text.words_append_cons (c := ' ') ?_ (by decide) ?_ (List.cons_ne_nil _ _)
      (List.cons_ne_nil _ _)]
    · rfl
    all_goals
      simp only [List.forall_mem_cons, Text.isBlank_digitChar, *]
      decide
  have hyear : [Nat.digitChar y₁, Nat.digitChar y₂, Nat.digitChar y₃, Nat.digitChar y₄].mapM
      Text.digit? = some [y₁, y₂, y₃, y₄] :=
    Text.mapM_map_digitChar [y₁, y₂, y₃, y₄] (by
      simp only [List.forall_mem_cons, Text.digit?_digitChar, *]
      simp)
  rw [ofMinuteText?, hwords]
  simp only [ofMinuteParts?]
  rw [hyear, twoDigits?_digitChar _ hmo₁ hmo₂, twoDigits?_digitChar _ hd₁ hd₂,
    twoDigits?_digitChar _ hh₁ hh₂, twoDigits?_digitChar _ hmi₁ hmi₂]
  simp only [Option.bind_eq_bind, Option.bind_some, hy, hmo, hd, hh, hmi]
  exact dif_pos m.toMinute.valid

end Moment
end MarkerBoard
