import Mathlib.Data.List.TakeWhile
import MarkerBoard.Json.Printer
import MarkerBoard.Json.Token
import MarkerBoard.Proofs.Keyed
import MarkerBoard.Proofs.Text.Decimal

/-!
# Tokens of written values

The writer puts a delimiter after everything that is not a string, so the reader finds the tokens
of a value one after the other: the white space between them goes, and escapes are undone.

Main results:

* `Json.tokensFrom_printString` — a string is read back as it was.
* `Json.atom?_of_unsigned?` — a number is read with its sign.
* `Json.atom?_ofInt` — so a written integer is read back.
-/
namespace MarkerBoard.Json

/-! ## What separates tokens -/

/-- The character ends a run of characters outside strings. -/
def isDelimiter (c : Char) : Bool := isSpace c || c == '"' || (punctuation? c).isSome

/-- The text begins with a delimiter, if it begins at all. -/
def Delimited (t : Text) : Prop := ∀ c ∈ t.head?, isDelimiter c = true

theorem delimited_cons {c : Char} (h : isDelimiter c = true) (t : Text) : Delimited (c :: t) := by
  simpa [Delimited] using h

/-- Tokens in front of others, if there are others. -/
def ahead (ts : List Token) (more : Option (List Token)) : Option (List Token) :=
  more.map (ts ++ ·)

@[simp] theorem ahead_ahead (ts ts' : List Token) (more : Option (List Token)) :
    ahead ts (ahead ts' more) = ahead (ts ++ ts') more := by
  rw [ahead, ahead, ahead, Option.map_map]
  congr 1
  funext more
  exact (List.append_assoc ts ts' more).symm

@[simp] theorem ahead_nil (more : Option (List Token)) : ahead [] more = more := Option.map_id'

theorem isDelimiter_of_spells {t : Text} {n : Nat} (h : Text.Spells t n) :
    ∀ c ∈ t, isDelimiter c = false := by
  have hdigit : ∀ d < 10, isDelimiter (Nat.digitChar d) = false := by decide
  obtain ⟨ds, hds, rfl, -⟩ := h
  intro c hc
  obtain ⟨d, hd, rfl⟩ := List.mem_map.1 hc
  exact hdigit d (hds d hd)

theorem tokensFrom_nil : tokensFrom .between [] = some [] := by
  rw [tokensFrom]

theorem tokensFrom_cons (c : Char) (t : Text) : tokensFrom .between (c :: t) =
    ahead (begin c).2.toList (tokensFrom (begin c).1 t) := by
  rw [tokensFrom]
  rfl

theorem tokensFrom_space {c : Char} (h : isSpace c = true) (t : Text) :
    tokensFrom .between (c :: t) = tokensFrom .between t := by
  rw [tokensFrom_cons, begin, if_pos h]
  exact ahead_nil _

theorem tokensFrom_spaces {s : Text} (h : ∀ c ∈ s, isSpace c = true) (t : Text) :
    tokensFrom .between (s ++ t) = tokensFrom .between t := by
  induction s with
  | nil => rfl
  | cons c s ih =>
    rw [List.cons_append, tokensFrom_space (h c List.mem_cons_self),
      ih fun d hd => h d (List.mem_cons_of_mem _ hd)]

theorem tokensFrom_newline (depth : Nat) (t : Text) :
    tokensFrom .between (newline depth ++ t) = tokensFrom .between t := by
  refine tokensFrom_spaces (fun c hc => ?_) t
  rcases List.mem_cons.1 hc with rfl | hc
  · rfl
  · rw [List.eq_of_mem_replicate hc]
    rfl

theorem delimited_newline (depth : Nat) (t : Text) : Delimited (newline depth ++ t) :=
  delimited_cons rfl _

theorem tokensFrom_punctuation {c : Char} {token : Token} (h : punctuation? c = some token)
    (hc : isSpace c = false ∧ c ≠ '"') (t : Text) :
    tokensFrom .between (c :: t) = ahead [token] (tokensFrom .between t) := by
  rw [tokensFrom_cons, begin, hc.1, if_neg (by simp), if_neg hc.2, h]
  rfl

/-! ## Runs of characters outside strings -/

theorem tokensFrom_bare_nil (g : Text) :
    tokensFrom (.bare g) [] = (atom? g.reverse).map fun v => [.atom v] := by
  rw [tokensFrom]

theorem tokensFrom_bare_delimiter {c : Char} (h : isDelimiter c = true) {g : Text} {v : Json}
    (hv : atom? g.reverse = some v) (t : Text) :
    tokensFrom (.bare g) (c :: t) = ahead [.atom v] (tokensFrom .between (c :: t)) := by
  rw [isDelimiter] at h
  rw [tokensFrom_cons, tokensFrom, if_pos h, hv, ahead_ahead]
  rfl

theorem tokensFrom_bare_cons {c : Char} (h : isDelimiter c = false) (g t : Text) :
    tokensFrom (.bare g) (c :: t) = tokensFrom (.bare (c :: g)) t := by
  rw [isDelimiter] at h
  rw [tokensFrom, h, if_neg (by simp)]

theorem tokensFrom_bare {t : Text} (h : ∀ c ∈ t, isDelimiter c = false) {rest : Text}
    (hrest : Delimited rest) {g : Text} {v : Json} (hv : atom? (g.reverse ++ t) = some v) :
    tokensFrom (.bare g) (t ++ rest) = ahead [.atom v] (tokensFrom .between rest) := by
  induction t generalizing g with
  | nil =>
    rw [List.append_nil] at hv
    cases rest with
    | nil =>
      rw [List.append_nil, tokensFrom_bare_nil, hv, tokensFrom_nil]
      rfl
    | cons c rest => exact tokensFrom_bare_delimiter (hrest c rfl) hv rest
  | cons c t ih =>
    rw [List.cons_append, tokensFrom_bare_cons (h c List.mem_cons_self)]
    refine ih (fun d hd => h d (List.mem_cons_of_mem _ hd)) ?_
    rw [List.reverse_cons, List.append_assoc]
    exact hv

/-- A run of characters that make up a value is one token. -/
theorem tokensFrom_atom {t : Text} (hne : t ≠ []) (h : ∀ c ∈ t, isDelimiter c = false)
    {rest : Text} (hrest : Delimited rest) {v : Json} (hv : atom? t = some v) :
    tokensFrom .between (t ++ rest) = ahead [.atom v] (tokensFrom .between rest) := by
  obtain ⟨c, t, rfl⟩ := List.exists_cons_of_ne_nil hne
  have hc := h c List.mem_cons_self
  simp only [isDelimiter, Bool.or_eq_false_iff, beq_eq_false_iff_ne, Option.isSome_eq_false_iff,
    Option.isNone_iff_eq_none] at hc
  have hbegin : begin c = (.bare [c], none) := by
    rw [begin, hc.1.1, if_neg (by simp), if_neg hc.1.2, hc.2]
  have hbare := tokensFrom_bare (g := [c]) (fun d hd => h d (List.mem_cons_of_mem _ hd)) hrest hv
  rw [List.cons_append, tokensFrom_cons, hbegin, ← hbare]
  exact ahead_nil _

/-! ## Integers -/

theorem head?_ofNat {n : Nat} (hn : 0 < n) : (Text.ofNat n).head? ≠ some '0' := by
  induction n using Nat.strongRecOn with
  | _ n ih =>
    by_cases h : n < 10
    · have : ∀ n < 10, 0 < n → (Text.ofNat n).head? ≠ some '0' := by decide
      exact this n h hn
    · rw [Text.ofNat, Nat.toDigits_of_base_le (by omega) (by omega),
        List.head?_append_of_ne_nil _ Nat.toDigits_ne_nil]
      exact ih (n / 10) (by omega) (by omega)

theorem unsigned?_ofNat (negative : Bool) (n : Nat) :
    unsigned? negative (Text.ofNat n) = some (.int (if negative then -(n : Int) else n)) := by
  have hspells := Text.spells_ofNat n
  have hdigits := hspells.isAsciiDigit_of_mem
  have htake : (Text.ofNat n).takeWhile Text.isAsciiDigit = Text.ofNat n :=
    List.takeWhile_eq_self_iff.2 hdigits
  have hdrop : (Text.ofNat n).dropWhile Text.isAsciiDigit = [] :=
    List.dropWhile_eq_nil_iff.2 hdigits
  have hzero : ¬ ((Text.ofNat n).head? = some '0' ∧ 1 < (Text.ofNat n).length) := by
    rcases Nat.eq_zero_or_pos n with rfl | hn
    · decide
    · exact fun h => head?_ofNat hn h.1
  rw [unsigned?, htake, hdrop, if_neg (not_or.2 ⟨Text.ofNat_ne_nil n, hzero⟩),
    hspells.filterMap_asciiDigit?]

/-- A number begins with a digit. -/
theorem exists_digit_of_unsigned? {negative : Bool} {t : Text} {v : Json}
    (h : unsigned? negative t = some v) :
    ∃ c rest, t = c :: rest ∧ Text.isAsciiDigit c = true := by
  cases t with
  | nil => cases h
  | cons c rest =>
    refine ⟨c, rest, rfl, ?_⟩
    by_contra hc
    rw [unsigned?, List.takeWhile_cons_of_neg hc] at h
    cases h

/-- No word has a digit in it. -/
theorem get?_words_of_digit {c : Char} (hc : Text.isAsciiDigit c = true) {t : Text} (h : c ∈ t) :
    Keyed.get? t words = none := by
  have hwords : (words.all fun e => e.1.all fun d => !Text.isAsciiDigit d) = true := by rfl
  refine Option.eq_none_iff_forall_ne_some.2 fun v hv => ?_
  have hword := List.all_eq_true.1 (List.all_eq_true.1 hwords _ (Keyed.mem_of_get? hv)) c h
  rw [hc] at hword
  cases hword

/-- A number with its sign. -/
theorem atom?_of_unsigned? {negative : Bool} {t : Text} {v : Json}
    (h : unsigned? negative t = some v) :
    atom? ((if negative then ['-'] else []) ++ t) = some v := by
  obtain ⟨c, rest, rfl, hc⟩ := exists_digit_of_unsigned? h
  cases negative with
  | false =>
    have hnumber : number? (c :: rest) = unsigned? false (c :: rest) := by
      rw [number?.eq_def]
      split
      · next heq =>
        cases heq
        cases hc
      · rfl
    have hatom : atom? (c :: rest) = number? (c :: rest) := by
      rw [atom?, get?_words_of_digit hc List.mem_cons_self]
    exact (hatom.trans hnumber).trans h
  | true =>
    have hatom : atom? ('-' :: c :: rest) = unsigned? true (c :: rest) := by
      rw [atom?, get?_words_of_digit hc (List.mem_cons_of_mem _ List.mem_cons_self)]
      rfl
    exact hatom.trans h

/-- A written integer is read back. -/
theorem atom?_ofInt (n : Int) : atom? (Text.ofInt n) = some (.int n) := by
  have hread := atom?_of_unsigned? (unsigned?_ofNat (decide (n < 0)) n.natAbs)
  rw [Text.ofInt]
  by_cases hn : n < 0
  · rw [if_pos hn]
    simp only [hn, decide_true, if_true, List.singleton_append] at hread
    rw [hread]
    congr 2
    omega
  · rw [if_neg hn]
    simp only [hn, decide_false, if_false, Bool.false_eq_true, List.nil_append] at hread
    rw [hread]
    congr 2
    omega

/-! ## Strings -/

theorem hexDigit?_digitChar {d : Nat} (h : d < 16) : hexDigit? (Nat.digitChar d) = some d := by
  have : ∀ d < 16, hexDigit? (Nat.digitChar d) = some d := by decide
  exact this d h

/-- A character of one letter behind a backslash. -/
theorem tokensFrom_letter {c e : Char} (hc : c ≠ 'u') (he : escaped? c = some e) (g rest : Text) :
    tokensFrom (.string g none) ('\\' :: c :: rest) = tokensFrom (.string (e :: g) none) rest := by
  rw [tokensFrom, if_neg (by decide), if_pos rfl, tokensFrom, if_neg hc, he]
  rfl

/-- A control character in hexadecimal digits. -/
theorem tokensFrom_code {c : Char} (hc : c.toNat < 32) (g rest : Text) :
    tokensFrom (.string g none) (['\\', 'u', '0', '0', Nat.digitChar (c.toNat / 16),
        Nat.digitChar (c.toNat % 16)] ++ rest) = tokensFrom (.string (c :: g) none) rest := by
  have hhigh := hexDigit?_digitChar (d := c.toNat / 16) (by omega)
  have hlow := hexDigit?_digitChar (d := c.toNat % 16) (by omega)
  have hzero : hexDigit? '0' = some 0 := rfl
  have hunit : takeUnit g none c.toNat = .string (c :: g) none := by
    rw [takeUnit, if_neg (by omega), if_neg (by omega), Char.ofNat_toNat]
    rfl
  have hvalue : 16 * (16 * (16 * (16 * 0 + 0) + 0) + c.toNat / 16) + c.toNat % 16 = c.toNat := by
    omega
  simp only [List.cons_append, List.nil_append]
  rw [tokensFrom, if_neg (by decide), if_pos rfl, tokensFrom, if_pos rfl, tokensFrom, hzero]
  dsimp only
  rw [if_neg (by decide), tokensFrom, hzero]
  dsimp only
  rw [if_neg (by decide), tokensFrom, hhigh]
  dsimp only
  rw [if_neg (by decide), tokensFrom, hlow]
  dsimp only
  rw [if_pos (by decide), hvalue, hunit]

/-- A written character is read back. -/
theorem tokensFrom_escape (c : Char) (g rest : Text) :
    tokensFrom (.string g none) (escape c ++ rest) = tokensFrom (.string (c :: g) none) rest := by
  rw [escape]
  -- seven characters have a letter for themselves
  iterate 7
    split
    · next h =>
      rw [h]
      exact tokensFrom_letter (by decide) rfl g rest
  split
  · next h => exact tokensFrom_code h g rest
  · next hquote hback _ _ _ _ _ hcontrol =>
    rw [List.cons_append, List.nil_append, tokensFrom, if_neg hquote, if_neg hback,
      if_neg hcontrol]
    rfl

theorem tokensFrom_escaped (t g rest : Text) :
    tokensFrom (.string g none) (t.flatMap escape ++ '"' :: rest) =
      ahead [.str (g.reverse ++ t)] (tokensFrom .between rest) := by
  induction t generalizing g with
  | nil =>
    rw [List.flatMap_nil, List.nil_append, tokensFrom, if_pos rfl, List.append_nil]
    rfl
  | cons c t ih =>
    rw [List.flatMap_cons, List.append_assoc, tokensFrom_escape, ih, List.reverse_cons,
      List.append_assoc]
    rfl

/-- A written string is read back. -/
theorem tokensFrom_printString (t rest : Text) :
    tokensFrom .between (printString t ++ rest) =
      ahead [.str t] (tokensFrom .between rest) := by
  have hbegin : begin '"' = (.string [] none, none) := rfl
  rw [printString, List.append_assoc, List.cons_append, tokensFrom_cons, hbegin]
  dsimp only
  rw [List.singleton_append, tokensFrom_escaped]
  exact ahead_nil _

end MarkerBoard.Json
