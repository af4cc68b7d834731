import MarkerBoard.Json.Reader
import MarkerBoard.Proofs.Json.Floats
import MarkerBoard.Proofs.Keyed

/-!
# Values written and read

A value is written with its tokens in their order, and the reader puts a value together from its
tokens. So a written value is read back, if its floating-point numbers are finite, each in the form
that reading gives it, and if the keys of each object differ, since of two equal keys only the last
one counts.

Main results:

* `Json.tokensFrom_printAt` — a value is written in its tokens.
* `Json.assemble_tokens` — the value of those tokens.
* `Json.read?_print` — a written value is read back.
-/
namespace MarkerBoard.Json

mutual
/-- The floating-point numbers in the value are finite and canonical, and the keys of each object
differ. -/
def Exact : Json → Prop
  | .float (.finite _ m e) => Binary64.Canonical m e
  | .float _ => False
  | .arr vs => ExactList vs
  | .obj fields => (fields.map Prod.fst).Nodup ∧ ExactFields fields
  | _ => True

/-- All values of a list are exact. -/
def ExactList : List Json → Prop
  | [] => True
  | v :: vs => v.Exact ∧ ExactList vs

/-- The values of all fields are exact. -/
def ExactFields : List (Text × Json) → Prop
  | [] => True
  | (_, v) :: fields => v.Exact ∧ ExactFields fields
end

theorem exactList_iff {vs : List Json} : ExactList vs ↔ ∀ v ∈ vs, v.Exact := by
  induction vs with
  | nil => exact ⟨fun _ v hv => absurd hv List.not_mem_nil, fun _ => trivial⟩
  | cons v vs ih => rw [ExactList, ih, List.forall_mem_cons]

theorem exactFields_iff {fields : List (Text × Json)} :
    ExactFields fields ↔ ∀ e ∈ fields, e.2.Exact := by
  induction fields with
  | nil => exact ⟨fun _ e he => absurd he List.not_mem_nil, fun _ => trivial⟩
  | cons e fields ih =>
    obtain ⟨k, v⟩ := e
    rw [ExactFields, ih, List.forall_mem_cons]

mutual
/-- The tokens of a value. -/
def tokens : Json → List Token
  | .str t => [.str t]
  | .arr [] => [.openArray, .closeArray]
  | .arr (v :: vs) => .openArray :: v.tokens ++ restTokens vs ++ [.closeArray]
  | .obj [] => [.openObject, .closeObject]
  | .obj ((k, v) :: fields) =>
    .openObject :: .str k :: .colon :: v.tokens ++ fieldTokens fields ++ [.closeObject]
  | v => [.atom v]

/-- The tokens of the elements after the first one. -/
def restTokens : List Json → List Token
  | [] => []
  | v :: vs => .comma :: v.tokens ++ restTokens vs

/-- The tokens of the fields after the first one. -/
def fieldTokens : List (Text × Json) → List Token
  | [] => []
  | (k, v) :: fields => .comma :: .str k :: .colon :: v.tokens ++ fieldTokens fields
end

/-! ## Tokens of a text -/

theorem isDelimiter_ofInt (n : Int) : ∀ c ∈ Text.ofInt n, isDelimiter c = false := by
  have hdigits := isDelimiter_of_spells (Text.spells_ofNat n.natAbs)
  rw [Text.ofInt]
  split
  · exact List.forall_mem_cons.2 ⟨rfl, hdigits⟩
  · exact hdigits

theorem ofInt_ne_nil (n : Int) : Text.ofInt n ≠ [] := by
  rw [Text.ofInt]
  split
  · simp
  · exact Text.ofNat_ne_nil _

theorem delimited_printRest (depth : Nat) (vs : List Json) {rest : Text} (h : Delimited rest) :
    Delimited (printRest depth vs ++ rest) := by
  cases vs with
  | nil => exact h
  | cons v vs => exact delimited_cons rfl _

theorem delimited_printFields (depth : Nat) (fields : List (Text × Json)) {rest : Text}
    (h : Delimited rest) : Delimited (printFields depth fields ++ rest) := by
  cases fields with
  | nil => exact h
  | cons f fields => exact delimited_cons rfl _

/-- The key of a field, with what separates it from the value. -/
theorem tokensFrom_key (k rest : Text) :
    tokensFrom .between (printString k ++ ':' :: ' ' :: rest) =
      ahead [.str k, .colon] (tokensFrom .between rest) := by
  rw [tokensFrom_printString, tokensFrom_punctuation rfl (by decide), tokensFrom_space rfl,
    ahead_ahead]
  rfl

/-- The end of a container on a line of its own. -/
theorem tokensFrom_close (depth : Nat) {c : Char} {token : Token} (h : punctuation? c = some token)
    (hc : isSpace c = false ∧ c ≠ '"') (rest : Text) :
    tokensFrom .between (newline depth ++ c :: rest) =
      ahead [token] (tokensFrom .between rest) := by
  rw [tokensFrom_newline, tokensFrom_punctuation h hc]

mutual
/-- A value is written in its tokens. -/
theorem tokensFrom_printAt : ∀ (v : Json) (depth : Nat) {rest : Text}, v.Exact → Delimited rest →
    tokensFrom .between (printAt depth v ++ rest) = ahead v.tokens (tokensFrom .between rest)
  | .null, depth, rest, _, hrest =>
    tokensFrom_atom (t := "null".toList) (by decide) (by decide) hrest rfl
  | .bool true, depth, rest, _, hrest =>
    tokensFrom_atom (t := "true".toList) (by decide) (by decide) hrest rfl
  | .bool false, depth, rest, _, hrest =>
    tokensFrom_atom (t := "false".toList) (by decide) (by decide) hrest rfl
  | .int n, depth, rest, _, hrest =>
    tokensFrom_atom (ofInt_ne_nil n) (isDelimiter_ofInt n) hrest (atom?_ofInt n)
  | .float (.finite negative m e), depth, rest, hv, hrest =>
    tokensFrom_atom (toText_ne_nil negative hv) (isDelimiter_toText negative m e) hrest
      (atom?_toText negative hv)
  | .str t, depth, rest, _, _ => tokensFrom_printString t rest
  | .arr [], depth, rest, _, _ => by
    simp only [printAt, List.cons_append, List.nil_append]
    rw [tokensFrom_punctuation rfl (by decide), tokensFrom_punctuation rfl (by decide),
      ahead_ahead]
    rfl
  -- what follows an element is a comma or the end of a line, and each delimits it
  | .arr (v :: vs), depth, rest, hv, _ => by
    obtain ⟨hv, hvs⟩ := hv
    simp only [printAt, List.append_assoc, List.cons_append, List.nil_append]
    rw [tokensFrom_punctuation rfl (by decide), tokensFrom_newline,
      tokensFrom_printAt v _ hv (delimited_printRest _ vs (delimited_newline _ _)),
      tokensFrom_printRest vs _ hvs (delimited_newline _ _), tokensFrom_close _ rfl (by decide),
      ahead_ahead, ahead_ahead, ahead_ahead, tokens]
    simp only [List.append_assoc, List.cons_append, List.nil_append]
  | .obj [], depth, rest, _, _ => by
    simp only [printAt, List.cons_append, List.nil_append]
    rw [tokensFrom_punctuation rfl (by decide), tokensFrom_punctuation rfl (by decide),
      ahead_ahead]
    rfl
  | .obj ((k, v) :: fields), depth, rest, hv, _ => by
    obtain ⟨-, hv, hfields⟩ := hv
    simp only [printAt, List.append_assoc, List.cons_append, List.nil_append]
    rw [tokensFrom_punctuation rfl (by decide), tokensFrom_newline, tokensFrom_key,
      tokensFrom_printAt v _ hv (delimited_printFields _ fields (delimited_newline _ _)),
      tokensFrom_printFields fields _ hfields (delimited_newline _ _),
      tokensFrom_close _ rfl (by decide), ahead_ahead, ahead_ahead, ahead_ahead, ahead_ahead,
      tokens]
    simp only [List.append_assoc, List.cons_append, List.nil_append]

theorem tokensFrom_printRest : ∀ (vs : List Json) (depth : Nat) {rest : Text}, ExactList vs →
    Delimited rest → tokensFrom .between (printRest depth vs ++ rest) =
      ahead (restTokens vs) (tokensFrom .between rest)
  | [], depth, rest, _, _ => (ahead_nil _).symm
  | v :: vs, depth, rest, hv, hrest => by
    obtain ⟨hv, hvs⟩ := hv
    simp only [printRest, List.append_assoc, List.cons_append]
    rw [tokensFrom_punctuation rfl (by decide), tokensFrom_newline,
      tokensFrom_printAt v _ hv (delimited_printRest _ vs hrest),
      tokensFrom_printRest vs _ hvs hrest, ahead_ahead, ahead_ahead, restTokens]
    rfl

theorem tokensFrom_printFields : ∀ (fields : List (Text × Json)) (depth : Nat) {rest : Text},
    ExactFields fields → Delimited rest → tokensFrom .between (printFields depth fields ++ rest) =
      ahead (fieldTokens fields) (tokensFrom .between rest)
  | [], depth, rest, _, _ => (ahead_nil _).symm
  | (k, v) :: fields, depth, rest, hv, hrest => by
    obtain ⟨hv, hfields⟩ := hv
    simp only [printFields, List.append_assoc, List.cons_append, List.nil_append]
    rw [tokensFrom_punctuation rfl (by decide), tokensFrom_newline, tokensFrom_key,
      tokensFrom_printAt v _ hv (delimited_printFields _ fields hrest),
      tokensFrom_printFields fields _ hfields hrest, ahead_ahead, ahead_ahead, ahead_ahead,
      fieldTokens]
    rfl
end

/-! ## The value of tokens -/

/-- The value that tokens make after a value has been handed to the open containers. -/
def assembleAfter (v : Json) (stack : List Frame) (ts : List Token) : Option Json :=
  assemble (deliver v stack).1 (deliver v stack).2 ts

theorem assemble_cons (e : Expect) (stack : List Frame) (token : Token) (ts : List Token) :
    assemble e stack (token :: ts) = match step e stack token with
      | some (e, stack) => assemble e stack ts
      | none => none := by
  cases e <;> rfl

/-- A value may come next, perhaps as the first element of an array. -/
def Expect.AllowsValue (e : Expect) : Prop := e = .value ∨ e = .element

theorem assemble_open {e : Expect} (he : e.AllowsValue) (stack : List Frame) (ts : List Token) :
    assemble e stack (.openArray :: ts) = assemble .element (.array [] :: stack) ts ∧
      assemble e stack (.openObject :: ts) = assemble .firstKey stack ts := by
  rcases he with rfl | rfl
  · exact ⟨assemble_cons .., assemble_cons ..⟩
  · exact ⟨assemble_cons .., assemble_cons ..⟩

theorem assemble_single {e : Expect} (he : e.AllowsValue) (stack : List Frame) (ts : List Token) :
    (∀ t, assemble e stack (.str t :: ts) = assembleAfter (.str t) stack ts) ∧
      ∀ v, assemble e stack (.atom v :: ts) = assembleAfter v stack ts := by
  rcases he with rfl | rfl
  · exact ⟨fun t => assemble_cons .., fun v => assemble_cons ..⟩
  · exact ⟨fun t => assemble_cons .., fun v => assemble_cons ..⟩

mutual
/-- The tokens of a value make up the value. -/
theorem assemble_tokens : ∀ (v : Json) {e : Expect} (stack : List Frame) (ts : List Token),
    v.Exact → e.AllowsValue → assemble e stack (v.tokens ++ ts) = assembleAfter v stack ts
  | .null, e, stack, ts, _, he => (assemble_single he stack ts).2 .null
  | .bool b, e, stack, ts, _, he => (assemble_single he stack ts).2 (.bool b)
  | .int n, e, stack, ts, _, he => (assemble_single he stack ts).2 (.int n)
  | .float x, e, stack, ts, _, he => (assemble_single he stack ts).2 (.float x)
  | .str t, e, stack, ts, _, he => (assemble_single he stack ts).1 t
  | .arr [], e, stack, ts, _, he => by
    rw [tokens, List.cons_append, (assemble_open he stack _).1]
    exact assemble_cons ..
  -- the elements are handed to the container that is open, one after the other
  | .arr (v :: vs), e, stack, ts, hv, he => by
    obtain ⟨hv, hvs⟩ := hv
    simp only [tokens, List.append_assoc, List.cons_append, List.nil_append]
    rw [(assemble_open he stack _).1, assemble_tokens v _ _ hv (.inr rfl)]
    exact assemble_restTokens vs [v] stack ts hvs
  | .obj [], e, stack, ts, _, he => by
    rw [tokens, List.cons_append, (assemble_open he stack _).2]
    exact assemble_cons ..
  | .obj ((k, v) :: fields), e, stack, ts, hv, he => by
    obtain ⟨hkeys, hv, hfields⟩ := hv
    simp only [tokens, List.append_assoc, List.cons_append, List.nil_append]
    rw [(assemble_open he stack _).2, assemble_cons]
    dsimp only [step]
    rw [assemble_cons]
    dsimp only [step]
    rw [assemble_tokens v _ _ hv (.inl rfl)]
    exact assemble_fieldTokens fields [(k, v)] k stack ts hfields hkeys

theorem assemble_restTokens : ∀ (vs front : List Json) (stack : List Frame) (ts : List Token),
    ExactList vs →
    assemble .more (.array front.reverse :: stack) (restTokens vs ++ .closeArray :: ts) =
      assembleAfter (.arr (front ++ vs)) stack ts
  | [], front, stack, ts, _ => by
    rw [restTokens, List.nil_append, assemble_cons]
    dsimp only [step]
    rw [List.reverse_reverse, List.append_nil]
    rfl
  | v :: vs, front, stack, ts, hv => by
    obtain ⟨hv, hvs⟩ := hv
    simp only [restTokens, List.append_assoc, List.cons_append]
    rw [assemble_cons]
    dsimp only [step]
    have hrest := assemble_restTokens vs (front ++ [v]) stack ts hvs
    rw [List.reverse_concat, List.append_assoc] at hrest
    rw [assemble_tokens v _ _ hv (.inl rfl)]
    exact hrest

theorem assemble_fieldTokens : ∀ (fields front : List (Text × Json)) (key : Text)
    (stack : List Frame) (ts : List Token), ExactFields fields →
    ((front ++ fields).map Prod.fst).Nodup →
    assemble .more (.object front key :: stack) (fieldTokens fields ++ .closeObject :: ts) =
      assembleAfter (.obj (front ++ fields)) stack ts
  | [], front, key, stack, ts, _, _ => by
    rw [fieldTokens, List.nil_append, assemble_cons]
    dsimp only [step]
    rw [List.append_nil]
    rfl
  | (k, v) :: fields, front, key, stack, ts, hv, hkeys => by
    obtain ⟨hv, hfields⟩ := hv
    -- the key is new, so its field comes after the ones before
    have hnew : k ∉ front.map Prod.fst := by
      rw [List.map_append, List.nodup_append] at hkeys
      exact fun hk => hkeys.2.2 _ hk _ List.mem_cons_self rfl
    simp only [fieldTokens, List.append_assoc, List.cons_append]
    rw [assemble_cons]
    dsimp only [step]
    rw [assemble_cons]
    dsimp only [step]
    rw [assemble_cons]
    dsimp only [step]
    have hrest := assemble_fieldTokens fields (front ++ [(k, v)]) k stack ts hfields
      (by rwa [List.append_assoc])
    rw [List.append_assoc, ← Keyed.put_of_not_mem hnew] at hrest
    rw [assemble_tokens v _ _ hv (.inl rfl)]
    exact hrest
end

/-- A written value is read back, with or without an end of the line after it. -/
theorem read?_print {v : Json} (h : v.Exact) : read? (v.print ++ ['\n']) = some v := by
  have htokens : tokens? (v.print ++ ['\n']) = some v.tokens := by
    rw [tokens?, print, tokensFrom_printAt v 0 h (delimited_cons rfl _), tokensFrom_space rfl,
      tokensFrom_nil]
    exact congrArg some (List.append_nil _)
  have hvalue := assemble_tokens v [] [] h (.inl rfl)
  rw [List.append_nil] at hvalue
  rw [read?, htokens, Option.bind_some, hvalue]
  rfl

end MarkerBoard.Json
