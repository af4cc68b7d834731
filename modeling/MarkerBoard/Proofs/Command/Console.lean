import MarkerBoard.Command.Run
import MarkerBoard.Proofs.Steps

/-!
# Commands and the session

Writing to the terminal leaves the session as it is. So all that a command does to the disk is done
by the activities that it attempts, also if one of them fails and the user is told.

Main results:

* `Command.attempt_of_ok`, `Command.exists_attempt_of_error` — an attempt ends in the session that
  the activity has left.
* `Command.say_cases` — the user is told, unless the markup is malformed.
* `Command.runIn_of_run` — the exit code.
-/
namespace MarkerBoard

/-- A command that has stopped in this way tells by its exit code that something went wrong. -/
def Stop.IsFault : Stop → Prop
  | .refused | .failed _ => True
  | .usage | .finished => False

namespace Command

variable {α : Type} {isExpected : Failure → Bool} {a : Activity α} {c c' : Console} {x : α}
  {f : Failure} {σ : Session} {stop : Stop} {markup : Text}

/-! ## Writing -/

theorem linesOf_cases (markup : Text) (c : Console) :
    (∃ lines, linesOf markup c = (.ok lines, c)) ∨
    ∃ inside, Markup.shown markup = .error inside ∧
      linesOf markup c = (.error (.failed (.unmatchedTag inside)), c) := by
  unfold linesOf
  cases Markup.shown markup with
  | ok t => exact .inl ⟨_, rfl⟩
  | error inside => exact .inr ⟨inside, rfl, rfl⟩

/-- The user is told, unless the markup is malformed. -/
theorem say_cases (markup : Text) (c : Console) :
    (∃ c', say markup c = (.ok (), c')) ∨
    ∃ inside, Markup.shown markup = .error inside ∧
      say markup c = (.error (.failed (.unmatchedTag inside)), c) := by
  rcases linesOf_cases markup c with ⟨lines, hlines⟩ | ⟨inside, hin, hlines⟩
  · exact .inl ⟨_, Steps.bind_of_ok hlines⟩
  · exact .inr ⟨inside, hin, Steps.bind_of_error hlines⟩

/-- Writing about an error leaves the session, and may itself be a fault. -/
theorem complain_cases (markup : Text) (c : Console) :
    ∃ r c', complain markup c = (r, c') ∧ c'.session = c.session ∧
      ∀ stop, r = .error stop → stop.IsFault := by
  rcases linesOf_cases markup c with ⟨lines, hlines⟩ | ⟨inside, -, hlines⟩
  · exact ⟨.ok (), _, Steps.bind_of_ok hlines, rfl, by simp⟩
  · refine ⟨_, _, Steps.bind_of_error hlines, rfl, fun stop hstop => ?_⟩
    cases hstop
    trivial

theorem tell_cases (f : Failure) (c : Console) :
    ∃ r c', tell f c = (r, c') ∧ c'.session = c.session ∧
      ∀ stop, r = .error stop → stop.IsFault := by
  unfold tell
  obtain ⟨r, c₁, h₁, hsession₁, hfault⟩ :=
    complain_cases ("[red]Error:[/red] ".toList ++ Markup.escape f.message) c
  cases r with
  | error stop =>
    refine ⟨_, c₁, Steps.bind_of_error h₁, hsession₁, fun stop hstop => ?_⟩
    cases hstop
    exact hfault _ rfl
  | ok _ =>
    rw [Steps.bind_of_ok h₁]
    cases hint? f with
    | none => exact ⟨.ok (), c₁, rfl, hsession₁, by simp⟩
    | some hint =>
      obtain ⟨r, c₂, h₂, hsession₂, hfault⟩ :=
        complain_cases ("[cyan]→ Try:[/cyan] ".toList ++ hint) c₁
      exact ⟨r, c₂, h₂, hsession₂.trans hsession₁, hfault⟩

/-! ## Attempts -/

theorem attempt_of_ok (h : a c.session = (.ok x, σ)) :
    attempt isExpected a c = (.ok x, { c with session := σ }) := by
  unfold attempt
  rw [Steps.bind_of_ok Steps.get_apply, h]
  rfl

/-- A failure stops the command in the session that it has left. -/
theorem exists_attempt_of_error (h : a c.session = (.error f, σ)) :
    ∃ stop c', attempt isExpected a c = (.error stop, c') ∧ c'.session = σ ∧ stop.IsFault := by
  have hset : (set { c with session := σ } : Command Unit) c = (.ok (), { c with session := σ }) :=
    rfl
  unfold attempt
  rw [Steps.bind_of_ok Steps.get_apply, h]
  dsimp only
  rw [Steps.bind_of_ok hset]
  split
  · obtain ⟨r, c', hf, hsession, hfault⟩ := tell_cases f { c with session := σ }
    cases r with
    | error stop => exact ⟨stop, c', Steps.bind_of_error hf, hsession, hfault stop rfl⟩
    | ok _ => exact ⟨.refused, c', by rw [Steps.bind_of_ok hf]; rfl, hsession, trivial⟩
  · exact ⟨.failed f, _, rfl, rfl, trivial⟩

/-! ## Exit codes -/

/-- A command line exits with no failure if it succeeds or finishes early, and with 1 if there was a
fault. -/
theorem runIn_of_run {args : List Text} {w : World} {r : Except Stop Unit}
    (h : run args ⟨.start w, [], []⟩ = (r, c)) :
    (runIn args w).2 = c.session.world ∧
      (r = .ok () → (runIn args w).1.exitCode = 0) ∧
      ∀ stop, r = .error stop → (stop.IsFault → (runIn args w).1.exitCode = 1) ∧
        (stop = .finished → (runIn args w).1.exitCode = 0) := by
  unfold runIn
  rw [h]
  refine ⟨rfl, ?_, fun stop hstop => ⟨fun hfault => ?_, ?_⟩⟩
  · rintro rfl
    rfl
  · cases hstop
    cases stop with
    | usage => exact hfault.elim
    | finished => exact hfault.elim
    | refused => rfl
    | failed => rfl
  · rintro rfl
    cases hstop
    rfl

end Command
end MarkerBoard
