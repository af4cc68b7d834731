import MarkerBoard.World

/-!
# Steps of actions

An action that succeeds has succeeded in each of its steps, and one that fails has failed in one of
them. Everything about a run is read off the runs of its steps.

Main results:

* `Steps.bind_ok_iff` — how a sequence of two actions succeeds.
* `Steps.except_bind_ok_iff` — the same for steps that change nothing.
* `Steps.Keeps.bind` — steps that leave a part of the state, one after the other.
* `Action.LogsOnly.bind` — actions that change nothing but the log, one after the other.
* `Action.FailsOnly.bind` — actions that fail in certain ways only, one after the other.
* `Action.IgnoresLog.bind` — actions that do the same whatever is in the log, one after the other.
-/
namespace MarkerBoard.Steps

variable {ε σ α β : Type}

/-- What may fail and may change a state. -/
abbrev Run (ε σ α : Type) := ExceptT ε (StateM σ) α

theorem except_bind_ok_iff {x : Except ε α} {f : α → Except ε β} {b : β} :
    (x >>= f) = .ok b ↔ ∃ a, x = .ok a ∧ f a = .ok b := by
  cases x with
  | error e =>
    constructor
    · intro h
      cases h
    · rintro ⟨a, h, -⟩
      cases h
  | ok a =>
    constructor
    · exact fun h => ⟨a, rfl, h⟩
    · rintro ⟨a', h, hf⟩
      cases h
      exact hf

variable {x : Run ε σ α} {f : α → Run ε σ β} {s s' : σ} {a : α} {b : β} {e : ε}

theorem bind_of_ok (h : x s = (.ok a, s')) : (x >>= f) s = f a s' := by
  show (match x s with | (r, s') => (ExceptT.bindCont f r) s') = _
  rw [h]
  rfl

theorem bind_of_error (h : x s = (.error e, s')) : (x >>= f) s = (.error e, s') := by
  show (match x s with | (r, s') => (ExceptT.bindCont f r) s') = _
  rw [h]
  rfl

theorem tryCatch_of_ok {handle : ε → Run ε σ α} (h : x s = (.ok a, s')) :
    (tryCatch x handle) s = (.ok a, s') := by
  show (match x s with | (r, s') => (match r with
    | .ok a => (pure (.ok a) : StateM σ (Except ε α))
    | .error e => handle e) s') = _
  rw [h]
  rfl

theorem tryCatch_of_error {handle : ε → Run ε σ α} (h : x s = (.error e, s')) :
    (tryCatch x handle) s = handle e s' := by
  show (match x s with | (r, s') => (match r with
    | .ok a => (pure (.ok a) : StateM σ (Except ε α))
    | .error e => handle e) s') = _
  rw [h]

theorem bind_congr {x' : Run ε σ α} (h : x s = x' s) : (x >>= f) s = (x' >>= f) s := by
  rcases hx : x' s with ⟨r, s₁⟩
  cases r with
  | error e => rw [bind_of_error (h.trans hx), bind_of_error hx]
  | ok a => rw [bind_of_ok (h.trans hx), bind_of_ok hx]

/-- A sequence of two actions succeeds if both do. -/
theorem bind_ok_iff : (x >>= f) s = (.ok b, s') ↔
    ∃ a s₁, x s = (.ok a, s₁) ∧ f a s₁ = (.ok b, s') := by
  constructor
  · intro h
    rcases hx : x s with ⟨r, s₁⟩
    cases r with
    | error e =>
      rw [bind_of_error hx] at h
      cases h
    | ok a =>
      rw [bind_of_ok hx] at h
      exact ⟨a, s₁, rfl, h⟩
  · rintro ⟨a, s₁, hx, h⟩
    rw [bind_of_ok hx, h]

/-- A sequence of two actions fails if one of them does. -/
theorem bind_error_iff : (x >>= f) s = (.error e, s') ↔
    x s = (.error e, s') ∨ ∃ a s₁, x s = (.ok a, s₁) ∧ f a s₁ = (.error e, s') := by
  constructor
  · intro h
    rcases hx : x s with ⟨r, s₁⟩
    cases r with
    | error e' =>
      rw [bind_of_error hx] at h
      cases h
      exact Or.inl rfl
    | ok a =>
      rw [bind_of_ok hx] at h
      exact Or.inr ⟨a, s₁, rfl, h⟩
  · rintro (hx | ⟨a, s₁, hx, h⟩)
    · exact bind_of_error hx
    · rw [bind_of_ok hx, h]

/-- A run that is seen to succeed has a result. -/
theorem exists_of_toBool {r : Except ε α × σ} (h : r.1.toBool = true) : ∃ a, r = (.ok a, r.2) := by
  obtain ⟨r, s⟩ := r
  cases r with
  | error e => cases h
  | ok a => exact ⟨a, rfl⟩

theorem eq_of_toOption {r : Except ε α × σ} {a : α} (h : r.1.toOption = some a) :
    r = (.ok a, r.2) := by
  obtain ⟨r, s⟩ := r
  cases r with
  | error e => cases h
  | ok b =>
    cases h
    rfl

@[simp] theorem get_apply : (get : Run ε σ σ) s = (.ok s, s) := rfl

@[simp] theorem modify_apply (g : σ → σ) : (modify g : Run ε σ PUnit) s = (.ok ⟨⟩, g s) := rfl

/-! ## What steps leave alone -/

section Keeps

variable {γ : Type} {part : σ → γ}

/-- Whatever the steps do, a part of the state stays as it is. -/
def Keeps (part : σ → γ) (x : Run ε σ α) : Prop := ∀ s, part (x s).2 = part s

theorem keeps_pure (part : σ → γ) (a : α) : Keeps part (pure a : Run ε σ α) := fun _ => rfl

theorem keeps_throw (part : σ → γ) (e : ε) : Keeps part (throw e : Run ε σ α) := fun _ => rfl

theorem keeps_get (part : σ → γ) : Keeps part (get : Run ε σ σ) := fun _ => rfl

/-- What follows on an action leaves a part of the state as the action has left it. -/
theorem part_bind (hf : ∀ a, Keeps part (f a)) (s : σ) : part ((x >>= f) s).2 = part (x s).2 := by
  rcases h : x s with ⟨r, s₁⟩
  cases r with
  | error e => rw [bind_of_error h]
  | ok a =>
    rw [bind_of_ok h]
    exact hf a s₁

theorem Keeps.bind (hx : Keeps part x) (hf : ∀ a, Keeps part (f a)) : Keeps part (x >>= f) :=
  fun s => (part_bind hf s).trans (hx s)

end Keeps

end MarkerBoard.Steps

namespace MarkerBoard.Action

variable {α β : Type} {a : Action α} {f : α → Action β}

/-- Whatever the action does, of the world only the log is changed. -/
def LogsOnly (a : Action α) : Prop := ∀ w, ∃ log, (a w).2 = { w with log }

/-- What the log is no part of is kept by an action that changes nothing else. -/
theorem LogsOnly.keeps {γ : Type} {part : World → γ} (h : LogsOnly a)
    (hpart : ∀ w log, part { w with log } = part w) : Steps.Keeps part a := by
  intro w
  obtain ⟨log, hlog⟩ := h w
  rw [hlog, hpart]

theorem logsOnly_pure (x : α) : LogsOnly (pure x : Action α) := fun w => ⟨w.log, rfl⟩

theorem logsOnly_throw (e : Failure) : LogsOnly (throw e : Action α) := fun w => ⟨w.log, rfl⟩

theorem logsOnly_get : LogsOnly (get : Action World) := fun w => ⟨w.log, rfl⟩

theorem logsOnly_note (level : Level) : LogsOnly (note level) := fun w => ⟨w.log ++ [level], rfl⟩

theorem LogsOnly.bind (ha : LogsOnly a) (hf : ∀ x, LogsOnly (f x)) : LogsOnly (a >>= f) := by
  intro w
  obtain ⟨log, hw⟩ := ha w
  rcases h : a w with ⟨r, w₁⟩
  rw [h] at hw
  cases r with
  | error e =>
    rw [Steps.bind_of_error h]
    exact ⟨log, hw⟩
  | ok x =>
    rw [Steps.bind_of_ok h]
    obtain ⟨log', hx⟩ := hf x w₁
    replace hw : w₁ = { w with log } := hw
    exact ⟨log', by rw [hx, hw]⟩

theorem logsOnly_readText (p : Path) : LogsOnly (readText p) := by
  refine logsOnly_get.bind fun w => ?_
  split
  · exact logsOnly_pure _
  · split
    · exact logsOnly_pure _
    · exact logsOnly_pure _

/-! ## How actions fail -/

/-- In whatever world, the action fails with failures of a kind only. -/
def FailsOnly (kind : Failure → Prop) (a : Action α) : Prop := ∀ w e, (a w).1 = .error e → kind e

section FailsOnly

variable {kind : Failure → Prop}

theorem FailsOnly.bind (ha : FailsOnly kind a) (hf : ∀ x, FailsOnly kind (f x)) :
    FailsOnly kind (a >>= f) := by
  intro w e h
  rcases Steps.bind_error_iff.1 (Prod.ext h rfl) with ha' | ⟨x, w₁, -, hx⟩
  · exact ha w e (congrArg Prod.fst ha')
  · exact hf x w₁ e (congrArg Prod.fst hx)

end FailsOnly

/-! ## What does not depend on the log -/

/-- Whatever is in the log, the action has the same result and does the same to the rest of the
world. -/
def IgnoresLog (a : Action α) : Prop :=
  ∀ w log, ∃ log', a { w with log } = ((a w).1, { (a w).2 with log := log' })

theorem IgnoresLog.result_eq (h : IgnoresLog a) (w : World) (log : List Level) :
    (a { w with log }).1 = (a w).1 := by
  obtain ⟨log', hlog⟩ := h w log
  rw [hlog]

theorem ignoresLog_pure (x : α) : IgnoresLog (pure x : Action α) := fun _ log => ⟨log, rfl⟩

theorem ignoresLog_throw (e : Failure) : IgnoresLog (throw e : Action α) := fun _ log => ⟨log, rfl⟩

theorem ignoresLog_note (level : Level) : IgnoresLog (note level) :=
  fun _ log => ⟨log ++ [level], rfl⟩

theorem ignoresLog_setDisk (disk : Disk) :
    IgnoresLog (modify fun w => { w with disk } : Action Unit) := fun _ log => ⟨log, rfl⟩

theorem IgnoresLog.bind (ha : IgnoresLog a) (hf : ∀ x, IgnoresLog (f x)) :
    IgnoresLog (a >>= f) := by
  intro w log
  obtain ⟨log', hlog⟩ := ha w log
  rcases h : a w with ⟨r, w₁⟩
  rw [h] at hlog
  cases r with
  | error e =>
    rw [Steps.bind_of_error h, Steps.bind_of_error hlog]
    exact ⟨log', rfl⟩
  | ok x =>
    rw [Steps.bind_of_ok h, Steps.bind_of_ok hlog]
    exact hf x w₁ log'

/-- What is done with the world must not look at the log. -/
theorem ignoresLog_get_bind {f : World → Action β} (hsame : ∀ w log, f { w with log } = f w)
    (hf : ∀ w, IgnoresLog (f w)) : IgnoresLog (get >>= f) := by
  intro w log
  rw [Steps.bind_of_ok Steps.get_apply, Steps.bind_of_ok Steps.get_apply, hsame]
  exact hf w w log

theorem ignoresLog_readText (p : Path) : IgnoresLog (readText p) := by
  refine ignoresLog_get_bind (fun w log => rfl) fun w => ?_
  split
  · exact ignoresLog_pure _
  · split
    · exact ignoresLog_pure _
    · exact ignoresLog_pure _

end MarkerBoard.Action
