import MarkerBoard.Path
import MarkerBoard.Proofs.Text.Pieces

/-!
# Paths written and read

The names of a file below a directory are written with slashes between them and read back.

Main results:

* `Path.ofText_join` — names joined by slashes are the parts of a relative path.
-/
namespace MarkerBoard.Path

/-- A name that an entry of a directory can have. -/
def IsName (name : Text) : Prop :=
  name ≠ [] ∧ name ≠ ['.'] ∧ name ≠ ['.', '.'] ∧ '/' ∉ name

instance (name : Text) : Decidable (IsName name) := inferInstanceAs (Decidable (_ ∧ _))

/-- Names joined by slashes are the parts of a relative path. -/
theorem ofText_join {names : List Text} (hne : names ≠ []) (h : ∀ n ∈ names, IsName n) :
    ofText (Text.join ['/'] names) = ⟨[], names⟩ := by
  obtain ⟨n, ns, rfl⟩ := List.exists_cons_of_ne_nil hne
  have hn := h n List.mem_cons_self
  have hparts : partsOf (Text.join ['/'] (n :: ns)) = n :: ns := by
    rw [partsOf, Text.splitAtEach_join hne fun m hm => (h m hm).2.2.2, List.filter_eq_self]
    intro m hm
    simpa using ⟨(h m hm).1, (h m hm).2.1⟩
  -- the first name does not begin with a slash
  have hslashes : (Text.join ['/'] (n :: ns)).takeWhile (· == '/') = [] := by
    obtain ⟨c, t, rfl⟩ := List.exists_cons_of_ne_nil hn.1
    have hc : c ≠ '/' := fun e => hn.2.2.2 (e ▸ List.mem_cons_self)
    cases ns with
    | nil => simp [Text.join, hc]
    | cons m ms => simp [Text.join, List.intersperse, hc]
  rw [ofText, hslashes, hparts]
  rfl

/-- Different names are joined to different texts. -/
theorem eq_of_join_eq {names names' : List Text} (hne : names ≠ []) (hne' : names' ≠ [])
    (h : ∀ n ∈ names, IsName n) (h' : ∀ n ∈ names', IsName n)
    (he : Text.join ['/'] names = Text.join ['/'] names') : names = names' := by
  have hparts := ofText_join hne h
  rw [he, ofText_join hne' h'] at hparts
  exact (congrArg parts hparts).symm

theorem join_ofText_join (p : Path) {names : List Text} (hne : names ≠ [])
    (h : ∀ n ∈ names, IsName n) :
    p.join (ofText (Text.join ['/'] names)) = ⟨p.anchor, p.parts ++ names⟩ := by
  rw [ofText_join hne h]
  rfl

end MarkerBoard.Path
