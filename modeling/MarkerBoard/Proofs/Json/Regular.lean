import MarkerBoard.Json.Reader
import MarkerBoard.Proofs.Keyed
import MarkerBoard.Proofs.Number.Nearest

/-!
# Values that are read

Of two equal keys in an object only the last one counts, and decimals are rounded. So whatever text
a value is read from, the keys of each of its objects differ, and its finite numbers are canonical.

The invariant of the reader is that the values it has put together so far are such values, those of
the containers that are still open included.

Main results:

* `Json.regular_of_step` — one token preserves the invariant.
* `Json.regular_of_read?` — a value that is read is regular.
-/
namespace MarkerBoard

/-! ## Keyed lists -/

theorem Keyed.mem_put {α : Type} {key : Text} {v : α} {m : Keyed α} {e : Text × α}
    (h : e ∈ Keyed.put key v m) : e = (key, v) ∨ e ∈ m := by
  induction m with
  | nil => exact .inl (List.mem_singleton.1 h)
  | cons e' m ih =>
    rw [Keyed.put] at h
    split at h
    · next hk =>
      rcases List.mem_cons.1 h with rfl | h
      · exact .inl (by rw [← hk])
      · exact .inr (List.mem_cons_of_mem _ h)
    · rcases List.mem_cons.1 h with rfl | h
      · exact .inr List.mem_cons_self
      · exact (ih h).imp_right (List.mem_cons_of_mem _)

namespace Json

/-- The keys of each object in the value differ, and its finite numbers are canonical. -/
inductive Regular : Json → Prop
  | null : Regular .null
  | bool (b : Bool) : Regular (.bool b)
  | int (n : Int) : Regular (.int n)
  | float {x : Binary64} (h : x.Regular) : Regular (.float x)
  | str (t : Text) : Regular (.str t)
  | arr {vs : List Json} : (∀ v ∈ vs, Regular v) → Regular (.arr vs)
  | obj {fields : List (Text × Json)} : (fields.map Prod.fst).Nodup →
      (∀ e ∈ fields, Regular e.2) → Regular (.obj fields)

/-- The fields make up such an object. -/
def RegularFields (fields : List (Text × Json)) : Prop :=
  (fields.map Prod.fst).Nodup ∧ ∀ e ∈ fields, e.2.Regular

theorem Regular.fields {fields : List (Text × Json)} (h : (Json.obj fields).Regular) :
    RegularFields fields := by
  cases h with
  | obj hkeys hvalues => exact ⟨hkeys, hvalues⟩

theorem Regular.elements {vs : List Json} (h : (Json.arr vs).Regular) : ∀ v ∈ vs, v.Regular := by
  cases h with
  | arr h => exact h

theorem regularFields_nil : RegularFields [] :=
  ⟨List.nodup_nil, fun _ he => absurd he List.not_mem_nil⟩

theorem RegularFields.put {fields : List (Text × Json)} (h : RegularFields fields) (key : Text)
    {v : Json} (hv : v.Regular) : RegularFields (Keyed.put key v fields) := by
  refine ⟨Keyed.nodup_put h.1, fun e he => ?_⟩
  rcases Keyed.mem_put he with rfl | he
  · exact hv
  · exact h.2 e he

/-! ## Tokens -/

/-- The value that a token holds, if it holds one, has different keys. -/
def Token.Regular : Token → Prop
  | .atom v => v.Regular
  | _ => True

theorem regular_of_unsigned? {negative : Bool} {t : Text} {v : Json}
    (h : unsigned? negative t = some v) : v.Regular := by
  rw [unsigned?] at h
  dsimp only at h
  split at h
  · cases h
  split at h
  · cases h
    exact .int _
  · split at h
    · cases h
    · obtain ⟨e, -, rfl⟩ := Option.map_eq_some_iff.1 h
      exact .float (Binary64.regular_ofDecimal ..)
  · obtain ⟨e, -, rfl⟩ := Option.map_eq_some_iff.1 h
    exact .float (Binary64.regular_ofDecimal ..)

theorem regular_of_atom? {t : Text} {v : Json} (h : atom? t = some v) : v.Regular := by
  rw [atom?] at h
  split at h
  · next w hw =>
    cases h
    have hword := Keyed.mem_of_get? hw
    simp only [words, List.mem_cons, Prod.mk.injEq, List.not_mem_nil, or_false] at hword
    rcases hword with ⟨-, rfl⟩ | ⟨-, rfl⟩ | ⟨-, rfl⟩ | ⟨-, rfl⟩ | ⟨-, rfl⟩ | ⟨-, rfl⟩
    · exact .null
    · exact .bool _
    · exact .bool _
    · exact .float trivial
    · exact .float trivial
    · exact .float trivial
  · rw [number?.eq_def] at h
    split at h
    · exact regular_of_unsigned? h
    · exact regular_of_unsigned? h

/-- A character between tokens makes no token with a value. -/
theorem regular_of_mem_begin {c : Char} {token : Token} (h : token ∈ (begin c).2) :
    token.Regular := by
  have hpunctuation : ∀ token, punctuation? c = some token → token.Regular := by
    intro token ht
    rw [punctuation?.eq_def] at ht
    split at ht <;> cases ht <;> trivial
  rw [begin] at h
  split at h
  · cases h
  split at h
  · cases h
  split at h
  · next token' ht =>
    cases h
    exact hpunctuation _ ht
  · cases h

/-- So do the tokens of a text. -/
theorem regular_of_tokensFrom {mode : Mode} {t : Text} {tokens : List Token}
    (h : tokensFrom mode t = some tokens) : ∀ token ∈ tokens, token.Regular := by
  -- a value comes from a run of characters, everything else is passed on
  fun_induction tokensFrom mode t generalizing tokens with
  | case1 =>
    cases h
    exact fun _ ht => absurd ht List.not_mem_nil
  | case2 g =>
    obtain ⟨v, hv, rfl⟩ := Option.map_eq_some_iff.1 h
    exact List.forall_mem_singleton.2 (regular_of_atom? hv)
  | case6 c t mode token hbegin ih =>
    obtain ⟨more, hmore, rfl⟩ := Option.map_eq_some_iff.1 h
    refine List.forall_mem_append.2 ⟨fun token' ht => ?_, ih hmore⟩
    exact regular_of_mem_begin (by rw [hbegin]; exact Option.mem_toList.1 ht)
  | case8 g c t _ v hv mode token hbegin ih =>
    obtain ⟨more, hmore, rfl⟩ := Option.map_eq_some_iff.1 h
    refine List.forall_mem_cons.2 ⟨regular_of_atom? hv, ?_⟩
    refine List.forall_mem_append.2 ⟨fun token' ht => ?_, ih hmore⟩
    exact regular_of_mem_begin (by rw [hbegin]; exact Option.mem_toList.1 ht)
  | case10 g high t ih =>
    obtain ⟨more, hmore, rfl⟩ := Option.map_eq_some_iff.1 h
    exact List.forall_mem_cons.2 ⟨trivial, ih hmore⟩
  | case9 | case11 | case13 | case14 | case15 | case18 | case19 =>
    rename_i ih
    exact ih h
  | case3 | case4 | case5 | case7 | case12 | case16 | case17 => cases h

/-! ## Open containers -/

/-- What has been put together of a container has different keys. -/
def Frame.Regular : Frame → Prop
  | .array elements => ∀ v ∈ elements, v.Regular
  | .object fields _ => RegularFields fields

/-- What has been put together of the fields or the value at hand has different keys. -/
def Expect.Regular : Expect → Prop
  | .key fields => RegularFields fields
  | .colon fields _ => RegularFields fields
  | .done v => v.Regular
  | _ => True

/-- A state of the reader in which all that has been put together has different keys. -/
def RegularState (state : Expect × List Frame) : Prop :=
  state.1.Regular ∧ ∀ frame ∈ state.2, frame.Regular

variable {v : Json} {expect : Expect} {stack : List Frame}

theorem regular_of_deliver (hv : v.Regular) (hstack : ∀ frame ∈ stack, frame.Regular) :
    RegularState (deliver v stack) := by
  cases stack with
  | nil => exact ⟨hv, hstack⟩
  | cons frame stack =>
    obtain ⟨hframe, hrest⟩ := List.forall_mem_cons.1 hstack
    cases frame with
    | array elements =>
      exact ⟨trivial, List.forall_mem_cons.2 ⟨List.forall_mem_cons.2 ⟨hv, hframe⟩, hrest⟩⟩
    | object fields key =>
      exact ⟨trivial, List.forall_mem_cons.2 ⟨RegularFields.put hframe key hv, hrest⟩⟩

/-- An array that is closed. -/
theorem regular_of_closeArray {elements : List Json}
    (hstack : ∀ frame ∈ Frame.array elements :: stack, frame.Regular) :
    RegularState (deliver (.arr elements.reverse) stack) := by
  obtain ⟨helements, hstack⟩ := List.forall_mem_cons.1 hstack
  exact regular_of_deliver (.arr fun v hv => helements v (List.mem_reverse.1 hv)) hstack

/-- One token preserves the invariant. -/
theorem regular_of_step {token : Token} {state : Expect × List Frame}
    (hstate : RegularState (expect, stack)) (htoken : token.Regular)
    (h : step expect stack token = some state) : RegularState state := by
  obtain ⟨hexpect, hstack⟩ := hstate
  rw [step.eq_def] at h
  -- one case for each token that fits what is expected, in the order of the definition
  split at h <;> cases h
  · exact regular_of_deliver (.str _) hstack
  · exact regular_of_deliver (.str _) hstack
  · exact regular_of_deliver htoken hstack
  · exact regular_of_deliver htoken hstack
  · exact ⟨trivial, List.forall_mem_cons.2 ⟨fun _ hv => absurd hv List.not_mem_nil, hstack⟩⟩
  · exact ⟨trivial, List.forall_mem_cons.2 ⟨fun _ hv => absurd hv List.not_mem_nil, hstack⟩⟩
  · exact ⟨trivial, hstack⟩
  · exact ⟨trivial, hstack⟩
  · exact regular_of_closeArray hstack
  · exact regular_of_deliver (.obj regularFields_nil.1 regularFields_nil.2) hstack
  · exact ⟨regularFields_nil, hstack⟩
  · exact ⟨hexpect, hstack⟩
  · exact ⟨trivial, List.forall_mem_cons.2 ⟨hexpect, hstack⟩⟩
  · exact ⟨trivial, hstack⟩
  · exact regular_of_closeArray hstack
  · obtain ⟨hfields, hstack⟩ := List.forall_mem_cons.1 hstack
    exact ⟨hfields, hstack⟩
  · obtain ⟨hfields, hstack⟩ := List.forall_mem_cons.1 hstack
    exact regular_of_deliver (.obj hfields.1 hfields.2) hstack

theorem regular_of_assemble {tokens : List Token} (hstate : RegularState (expect, stack))
    (htokens : ∀ token ∈ tokens, token.Regular) (h : assemble expect stack tokens = some v) :
    v.Regular := by
  induction tokens generalizing expect stack with
  | nil =>
    rw [assemble.eq_def] at h
    split at h
    · cases h
      exact hstate.1
    · cases h
    · next heq => cases heq
  | cons token tokens ih =>
    obtain ⟨htoken, htokens⟩ := List.forall_mem_cons.1 htokens
    rw [assemble] at h
    split at h
    · next expect' stack' hstep => exact ih (regular_of_step hstate htoken hstep) htokens h
    · cases h

/-- A value that is read is regular. -/
theorem regular_of_read? {t : Text} (h : read? t = some v) : v.Regular := by
  rw [read?, Option.bind_eq_some_iff] at h
  obtain ⟨tokens, htokens, h⟩ := h
  have hstart : RegularState (.value, []) := ⟨trivial, fun _ hf => absurd hf List.not_mem_nil⟩
  exact regular_of_assemble hstart (regular_of_tokensFrom htokens) h

end Json
end MarkerBoard
