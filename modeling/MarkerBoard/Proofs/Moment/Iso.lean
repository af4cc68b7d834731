import Mathlib.Data.List.TakeWhile
import MarkerBoard.Moment.Timestamp
import MarkerBoard.Proofs.Moment.Minute

/-!
# ISO texts read back

A moment is written in numbers of a fixed width, so the reader finds the same numbers. Nothing of a
moment is lost in its text.

Main results:

* `Moment.digits?_ofNatPadded` — a number of a fixed width is read back.
* `Moment.offset?_offsetText` — so is an offset.
* `Moment.ofIso?_toIso` — so is a moment.
-/
namespace MarkerBoard.Moment

/-- A number of a fixed width is read back. -/
theorem digits?_ofNatPadded {width n : Nat} (hw : 0 < width) (hn : n < 10 ^ width) (rest : Text) :
    digits? width (Text.ofNatPadded width n ++ rest) = some (n, rest) := by
  have hlen := Text.length_ofNatPadded hw hn
  obtain ⟨ds, hds, hdslen, hv⟩ := (Text.spells_ofNatPadded width n).mapM_asciiDigit?
  rw [digits?, List.take_left' hlen, List.drop_left' hlen, hds]
  simp [hdslen, hlen, hv]

/-- A date is read back. -/
theorem date?_append {year month day : Nat} (hy : year < 10000) (hm : month < 100)
    (hd : day < 100) (rest : Text) :
    date? (Text.ofNatPadded 4 year ++ '-' :: (Text.ofNatPadded 2 month ++
      '-' :: (Text.ofNatPadded 2 day ++ rest))) = some ((year, month, day), rest) := by
  rw [date?, digits?_ofNatPadded (by omega) hy]
  simp [Text.after?, digits?_ofNatPadded, hm, hd]

/-- The six digits of a fraction tell its microseconds. -/
theorem microOf_ofNatPadded {n : Nat} (hn : n < 1000000) :
    microOf (Text.ofNatPadded 6 n) = n := by
  have hlen : (Text.ofNatPadded 6 n).length = 6 := Text.length_ofNatPadded (by omega) hn
  obtain ⟨ds, hds, ht, hv⟩ := Text.spells_ofNatPadded 6 n
  have hread : (Text.ofNatPadded 6 n).filterMap Text.asciiDigit? = ds := by
    rw [ht, List.filterMap_map, List.filterMap_congr (f := Text.asciiDigit? ∘ Nat.digitChar)
      (g := some) fun d hd => Text.asciiDigit?_digitChar (hds d hd), List.filterMap_some]
  have hdslen : ds.length = 6 := by
    rw [ht, List.length_map] at hlen
    exact hlen
  rw [microOf, hread, List.take_of_length_le (by omega), hdslen]
  exact (congrArg Text.natOfDigits (List.append_nil ds)).trans hv

/-- The seconds of a time are read back, with a fraction if there is one. -/
theorem seconds?_append {second micro : Nat} (hs : second < 100) (hmicro : micro < 1000000)
    {rest : Text}
    (hrest : ∀ c ∈ rest.head?, c ≠ '.' ∧ c ≠ ',' ∧ Text.isAsciiDigit c = false) :
    seconds? (':' :: (Text.ofNatPadded 2 second ++
      ((if micro = 0 then [] else '.' :: Text.ofNatPadded 6 micro) ++ rest))) =
      some ((second, micro), rest) := by
  rw [seconds?, digits?_ofNatPadded (by omega) hs]
  simp only [Option.bind_eq_bind, Option.bind_some]
  by_cases hzero : micro = 0
  -- without a fraction no point or comma follows
  · subst hzero
    rw [if_pos rfl, List.nil_append]
    cases rest with
    | nil => rfl
    | cons c rest =>
      obtain ⟨hdot, hcomma, -⟩ := hrest c rfl
      exact if_neg (not_or.2 ⟨hdot, hcomma⟩)
  · rw [if_neg hzero, List.cons_append]
    have hdigits := (Text.spells_ofNatPadded 6 micro).isAsciiDigit_of_mem
    -- the digits of the fraction end where the rest begins
    have hrun : (Text.ofNatPadded 6 micro ++ rest).takeWhile Text.isAsciiDigit =
        Text.ofNatPadded 6 micro := by
      rw [List.takeWhile_append_of_pos hdigits]
      cases rest with
      | nil => simp
      | cons c rest => rw [List.takeWhile_cons_of_neg (by simp [(hrest c rfl).2.2]),
          List.append_nil]
    have hmore : (Text.ofNatPadded 6 micro ++ rest).dropWhile Text.isAsciiDigit = rest := by
      rw [List.dropWhile_append_of_pos hdigits]
      cases rest with
      | nil => rfl
      | cons c rest => rw [List.dropWhile_cons_of_neg (by simp [(hrest c rfl).2.2])]
    have hne : Text.ofNatPadded 6 micro ≠ [] := by
      intro h
      have hlen : (Text.ofNatPadded 6 micro).length = 6 :=
        Text.length_ofNatPadded (by omega) hmicro
      rw [h] at hlen
      cases hlen
    dsimp only
    rw [if_pos (Or.inl rfl), hrun, if_neg hne, hmore, microOf_ofNatPadded hmicro]
    rfl

/-! ## Offsets -/

theorem offsetMinutes?_append {hours minutes : Nat} (hh : hours < 100) (hm : minutes < 60) :
    offsetMinutes? (Text.ofNatPadded 2 hours ++ ':' :: Text.ofNatPadded 2 minutes) =
      some (60 * (hours : Int) + minutes) := by
  have hminutes : digits? 2 (Text.ofNatPadded 2 minutes) = some (minutes, []) := by
    rw [← List.append_nil (Text.ofNatPadded 2 minutes),
      digits?_ofNatPadded (by omega) (by omega)]
  rw [offsetMinutes?, digits?_ofNatPadded (by omega) hh]
  simp [Text.after?, hminutes, hm]

/-- An offset is read back. -/
theorem offset?_offsetText {offset : Int} (h : -1440 < offset ∧ offset < 1440) :
    offset? (offsetText offset) = some (some offset) := by
  rw [offsetText]
  split
  · next hzero =>
    subst hzero
    rfl
  · have hminutes : offsetMinutes? (Text.ofNatPadded 2 (offset.natAbs / 60) ++
        ':' :: Text.ofNatPadded 2 (offset.natAbs % 60)) = some (offset.natAbs : Int) := by
      rw [offsetMinutes?_append (by omega) (by omega)]
      congr 1
      omega
    split
    · have hread : ∀ t, offset? ('-' :: t) =
          (offsetMinutes? t).map fun minutes => some (-minutes) := fun t => rfl
      rw [List.cons_append, hread, hminutes, Option.map_some]
      congr 2
      omega
    · have hread : ∀ t, offset? ('+' :: t) = (offsetMinutes? t).map some := fun t => rfl
      rw [List.cons_append, hread, hminutes, Option.map_some]
      congr 2
      omega

/-- An offset does not go on with the digits of a second. -/
theorem head?_offsetText (offset : Int) : ∀ c ∈ (offsetText offset).head?,
    c ≠ '.' ∧ c ≠ ',' ∧ Text.isAsciiDigit c = false := by
  rw [offsetText]
  split
  · intro c hc
    cases hc
    decide
  · split
    · intro c hc
      cases hc
      decide
    · intro c hc
      cases hc
      decide

/-! ## Moments -/

/-- The text of a moment ends in that of its offset, if it has one. -/
theorem exists_toIso_eq (m : Moment) : ∃ tail,
    m.toIso = Text.ofNatPadded 4 m.year ++ '-' :: (Text.ofNatPadded 2 m.month ++
      '-' :: (Text.ofNatPadded 2 m.day ++ 'T' :: (Text.ofNatPadded 2 m.hour ++
      ':' :: (Text.ofNatPadded 2 m.minute ++ ':' :: (Text.ofNatPadded 2 m.second ++
      ((if m.micro = 0 then [] else '.' :: Text.ofNatPadded 6 m.micro) ++ tail)))))) ∧
    offset? tail = some m.offset ∧
    ∀ c ∈ tail.head?, c ≠ '.' ∧ c ≠ ',' ∧ Text.isAsciiDigit c = false := by
  have hoffset := m.valid.2.2.2.2.2.2.2
  rw [toIso]
  simp only [List.append_assoc, List.cons_append]
  cases ho : m.offset with
  | none => exact ⟨[], rfl, rfl, by simp⟩
  | some offset =>
    rw [ho] at hoffset
    exact ⟨_, rfl, offset?_offsetText hoffset, head?_offsetText offset⟩

/-- A moment is read back from its text. -/
theorem ofIso?_toIso (m : Moment) : ofIso? m.toIso = some m := by
  obtain ⟨hy, hmo, hd, hh, hmi, hs, hmicro, -⟩ := m.valid
  have hdays := Calendar.daysInMonth_le m.year m.month
  have hmake : make? m.year m.month m.day m.hour m.minute m.second m.micro m.offset = some m :=
    dif_pos m.valid
  obtain ⟨tail, htext, hread, hhead⟩ := m.exists_toIso_eq
  rw [htext, ofIso?, date?_append (by omega) (by omega) (by omega)]
  simp only [Option.bind_eq_bind, Option.bind_some]
  have hcolon : ∀ t, Text.after? [':'] (':' :: t) = some t := fun t => rfl
  rw [if_pos (show isSeparator 'T' = true from rfl), digits?_ofNatPadded (by omega) (by omega),
    Option.bind_some, hcolon, Option.bind_some, digits?_ofNatPadded (by omega) (by omega),
    Option.bind_some, seconds?_append (by omega) hmicro hhead]
  simp only [Option.bind_some, hread, hmake]

/-- The ISO text of a moment is the first form that a reader of moments tries. -/
theorem ofText?_toIso (m : Moment) : ofText? m.toIso = some m := by
  rw [ofText?, ofIso?_toIso]
  rfl

end MarkerBoard.Moment
