import Mathlib
import SteadyAdjoint.Integrator.Continuation

/-!
# The passes of the stepping loop

`Continuation.loop` is one recursive function with ten branches. This module says once what
a run of it can do, so that the facts proved about runs never unfold it again:

* a **pass** is one trip round the loop that goes on: a rejected step retried with a
  reduced step size, or an accepted step that is neither steady nor asked to stop;
* an **exit** is one of the eight trips that end the loop: the final time or the step budget
  reached, a problem error, a breach, too many failures in a row, a reduced step below the
  minimum, a steady state, or a stop asked by the caller.

`loop_passes` states that every run is a chain of passes followed by one exit.

## Main statements

* `Continuation.loop_passes`: the inversion of the loop.
* `Continuation.loop_status`: what the outcome of a run says about the continuation's
  status.
* `Continuation.passes_invariant`, `Continuation.advance_cases`: the run lemma of the loop and
  the inversion of a call of `advance`, through which later modules reach the loop.
-/

namespace SteadyAdjoint.Integrator

variable {R : Type} [Scalar R] {ε : Type}

/-- A point of the stepping loop: the continuation, the state stepped from, the rejected
steps in a row so far, and the events so far, newest first. -/
structure LoopPoint (R : Type) [Scalar R] where
  cont : Continuation R
  current : SolutionState R
  failures : Nat
  events : List (Event R)

/-- The state reached by an accepted step of size `dt` from `current`. -/
def SolutionState.next (current : SolutionState R) (dt : R) (step : Step R) :
    SolutionState R :=
  { time := current.time + dt, index := current.index + 1, dt, x := step.x, xDot := step.xDot,
    xDotDot := none }

namespace Continuation

/-! ## §1 The parts of one trip -/

/-- The step size tried from `current` towards `tFinal`: the proposed one, cut at the final
time. -/
def stepSize (c : Continuation R) (tFinal : R) (current : SolutionState R) : R :=
  fmin c.dt (tFinal - current.time)

/-- The continuation after a step attempt that left the stepper `s`. -/
def attempted (c : Continuation R) (s : Stepper R) : Continuation R :=
  { c with stepper := s, attempts := c.attempts + 1 }

/-- The continuation with an accepted state pushed on its history. -/
def record (c : Continuation R) (state : SolutionState R) : Continuation R :=
  { c with history := c.history.push state }

/-- The continuation that retries with the step size `dt` and a stepper without its kept
factorisation. -/
def retried (c : Continuation R) (dt : R) : Continuation R :=
  { c with dt, stepper := c.stepper.reset }

/-! ## §2 Passes and exits -/

variable (ode : ImplicitOde R ε) (tFinal : R) (stop : SolutionState R → R → Bool)

/-- One trip round the loop that goes on. -/
inductive Pass : LoopPoint R → LoopPoint R → Prop where
  /-- A rejected step, retried with the step size reduced. -/
  | retry {c : Continuation R} {current : SolutionState R} {failures : Nat}
      {events : List (Event R)} {s : Stepper R} {attempt : Except (StepError ε) (Step R)}
      {failure : StepFailure}
      (hTime : ¬ tFinal ≤ current.time) (hBudget : ¬ c.config.maxSteps ≤ current.index)
      (hStep : c.stepper.takeStep ode current (c.stepSize tFinal current) = (s, attempt))
      (hFail : attempt.bind (c.attempted s).screen = .error (.failure failure))
      (hCount : ¬ c.config.timeStepControl.maxConsecutiveFailures < failures + 1)
      (hMin : ¬ c.stepSize tFinal current * c.config.timeStepControl.failureReductionFactor <
        c.config.timeStepControl.minTimeStep) :
      Pass ⟨c, current, failures, events⟩
        ⟨(c.attempted s).retried
            (c.stepSize tFinal current * c.config.timeStepControl.failureReductionFactor),
          current, failures + 1, events⟩
  /-- An accepted step that is not steady and that the caller lets go on. -/
  | accept {c : Continuation R} {current : SolutionState R} {failures : Nat}
      {events : List (Event R)} {s : Stepper R} {attempt : Except (StepError ε) (Step R)}
      {step : Step R}
      (hTime : ¬ tFinal ≤ current.time) (hBudget : ¬ c.config.maxSteps ≤ current.index)
      (hStep : c.stepper.takeStep ode current (c.stepSize tFinal current) = (s, attempt))
      (hOk : attempt.bind (c.attempted s).screen = .ok step)
      (hSteady : ¬ c.isSteady step.x step.xDot.norm = true)
      (hGo : ¬ stop (current.next (c.stepSize tFinal current) step) step.xDot.norm = true) :
      Pass ⟨c, current, failures, events⟩
        ⟨(((c.attempted s).record (current.next (c.stepSize tFinal current) step)).nextTimeStep
            step.xDot.norm),
          current.next (c.stepSize tFinal current) step, 0,
          ⟨current.next (c.stepSize tFinal current) step, step.xDot.norm⟩ :: events⟩

/-- One trip round the loop that ends it, with the outcome of the run. -/
inductive Exit : LoopPoint R → Outcome R ε → Prop where
  /-- The current time has reached the final time. -/
  | finalTime {c : Continuation R} {current : SolutionState R} {failures : Nat}
      {events : List (Event R)} (hTime : tFinal ≤ current.time) :
      Exit ⟨c, current, failures, events⟩ (c.stopWith events .finalTime)
  /-- The step budget is used. -/
  | maxSteps {c : Continuation R} {current : SolutionState R} {failures : Nat}
      {events : List (Event R)} (hTime : ¬ tFinal ≤ current.time)
      (hBudget : c.config.maxSteps ≤ current.index) :
      Exit ⟨c, current, failures, events⟩ (c.stopWith events .maxSteps)
  /-- An evaluation of the problem failed. -/
  | problem {c : Continuation R} {current : SolutionState R} {failures : Nat}
      {events : List (Event R)} {s : Stepper R} {attempt : Except (StepError ε) (Step R)}
      {e : ε}
      (hTime : ¬ tFinal ≤ current.time) (hBudget : ¬ c.config.maxSteps ≤ current.index)
      (hStep : c.stepper.takeStep ode current (c.stepSize tFinal current) = (s, attempt))
      (hErr : attempt.bind (c.attempted s).screen = .error (.problem e)) :
      Exit ⟨c, current, failures, events⟩
        ({ c.attempted s with status := .failed, termination := some .problemError },
          events.reverse, .error (.problem e))
  /-- A linear system of the step could not be posed. -/
  | breach {c : Continuation R} {current : SolutionState R} {failures : Nat}
      {events : List (Event R)} {s : Stepper R} {attempt : Except (StepError ε) (Step R)}
      (hTime : ¬ tFinal ≤ current.time) (hBudget : ¬ c.config.maxSteps ≤ current.index)
      (hStep : c.stepper.takeStep ode current (c.stepSize tFinal current) = (s, attempt))
      (hErr : attempt.bind (c.attempted s).screen = .error .breach) :
      Exit ⟨c, current, failures, events⟩ (c.attempted s, events.reverse, .error .breach)
  /-- A rejected step, one too many in a row. -/
  | stepFailures {c : Continuation R} {current : SolutionState R} {failures : Nat}
      {events : List (Event R)} {s : Stepper R} {attempt : Except (StepError ε) (Step R)}
      {failure : StepFailure}
      (hTime : ¬ tFinal ≤ current.time) (hBudget : ¬ c.config.maxSteps ≤ current.index)
      (hStep : c.stepper.takeStep ode current (c.stepSize tFinal current) = (s, attempt))
      (hFail : attempt.bind (c.attempted s).screen = .error (.failure failure))
      (hCount : c.config.timeStepControl.maxConsecutiveFailures < failures + 1) :
      Exit ⟨c, current, failures, events⟩ ((c.attempted s).stopWith events .stepFailures)
  /-- A rejected step whose reduced step size is below the minimum. -/
  | minTimeStep {c : Continuation R} {current : SolutionState R} {failures : Nat}
      {events : List (Event R)} {s : Stepper R} {attempt : Except (StepError ε) (Step R)}
      {failure : StepFailure}
      (hTime : ¬ tFinal ≤ current.time) (hBudget : ¬ c.config.maxSteps ≤ current.index)
      (hStep : c.stepper.takeStep ode current (c.stepSize tFinal current) = (s, attempt))
      (hFail : attempt.bind (c.attempted s).screen = .error (.failure failure))
      (hCount : ¬ c.config.timeStepControl.maxConsecutiveFailures < failures + 1)
      (hMin : c.stepSize tFinal current * c.config.timeStepControl.failureReductionFactor <
        c.config.timeStepControl.minTimeStep) :
      Exit ⟨c, current, failures, events⟩ ((c.attempted s).stopWith events .minTimeStep)
  /-- An accepted step that is steady. -/
  | steady {c : Continuation R} {current : SolutionState R} {failures : Nat}
      {events : List (Event R)} {s : Stepper R} {attempt : Except (StepError ε) (Step R)}
      {step : Step R}
      (hTime : ¬ tFinal ≤ current.time) (hBudget : ¬ c.config.maxSteps ≤ current.index)
      (hStep : c.stepper.takeStep ode current (c.stepSize tFinal current) = (s, attempt))
      (hOk : attempt.bind (c.attempted s).screen = .ok step)
      (hSteady : c.isSteady step.x step.xDot.norm = true) :
      Exit ⟨c, current, failures, events⟩
        (((c.attempted s).record (current.next (c.stepSize tFinal current) step)).stopWith
          (⟨current.next (c.stepSize tFinal current) step, step.xDot.norm⟩ :: events)
          .steadyState)
  /-- An accepted step, not steady, at which the caller asks to stop. -/
  | stopped {c : Continuation R} {current : SolutionState R} {failures : Nat}
      {events : List (Event R)} {s : Stepper R} {attempt : Except (StepError ε) (Step R)}
      {step : Step R}
      (hTime : ¬ tFinal ≤ current.time) (hBudget : ¬ c.config.maxSteps ≤ current.index)
      (hStep : c.stepper.takeStep ode current (c.stepSize tFinal current) = (s, attempt))
      (hOk : attempt.bind (c.attempted s).screen = .ok step)
      (hSteady : ¬ c.isSteady step.x step.xDot.norm = true)
      (hStop : stop (current.next (c.stepSize tFinal current) step) step.xDot.norm = true) :
      Exit ⟨c, current, failures, events⟩
        (((c.attempted s).record (current.next (c.stepSize tFinal current) step)).stopWith
          (⟨current.next (c.stepSize tFinal current) step, step.xDot.norm⟩ :: events)
          .stoppedByObserver)

/-! ## §3 The inversion of the loop -/

/-- **Every run of the loop is a chain of passes followed by one exit.** -/
theorem loop_passes (c : Continuation R) (current : SolutionState R) (failures : Nat)
    (events : List (Event R)) :
    ∃ q, Relation.ReflTransGen (Pass ode tFinal stop) ⟨c, current, failures, events⟩ q ∧
      Exit ode tFinal stop q (loop ode tFinal stop c current failures events) := by
  fun_induction loop ode tFinal stop c current failures events with
  | case1 c current failures events hTime =>
    exact ⟨_, .refl, .finalTime hTime⟩
  | case2 c current failures events hTime hBudget =>
    exact ⟨_, .refl, .maxSteps hTime hBudget⟩
  | case3 c current failures events hTime hBudget dt s attempt hStep tried e hErr =>
    exact ⟨_, .refl, .problem hTime hBudget hStep hErr⟩
  | case4 c current failures events hTime hBudget dt s attempt hStep tried hErr =>
    exact ⟨_, .refl, .breach hTime hBudget hStep hErr⟩
  | case5 c current failures events hTime hBudget dt s attempt hStep tried failure hFail hCount =>
    exact ⟨_, .refl, .stepFailures hTime hBudget hStep hFail hCount⟩
  | case6 c current failures events hTime hBudget control dt s attempt hStep tried failure hFail
      hCount reduced hMin =>
    exact ⟨_, .refl, .minTimeStep hTime hBudget hStep hFail hCount hMin⟩
  | case7 c current failures events hTime hBudget control dt s attempt hStep tried failure hFail
      hCount reduced hMin ih =>
    -- a retried step: one pass, then the rest of the run
    obtain ⟨q, hq, hExit⟩ := ih
    exact ⟨q, .head (.retry hTime hBudget hStep hFail hCount hMin) hq, hExit⟩
  | case8 c current failures events hTime hBudget dt s attempt hStep tried step hOk state pushed
      rate events' hSteady =>
    exact ⟨_, .refl, .steady hTime hBudget hStep hOk hSteady⟩
  | case9 c current failures events hTime hBudget dt s attempt hStep tried step hOk state pushed
      rate events' stopAsked hSteady hStop =>
    exact ⟨_, .refl, .stopped hTime hBudget hStep hOk hSteady hStop⟩
  | case10 c current failures events hTime hBudget dt s attempt hStep tried step hOk state pushed
      rate events' stopAsked hSteady hGo ih =>
    -- an accepted step that goes on: one pass, then the rest of the run
    obtain ⟨q, hq, hExit⟩ := ih
    exact ⟨q, .head (.accept hTime hBudget hStep hOk hSteady hGo) hq, hExit⟩

variable {ode tFinal stop} in
/-- **What every pass keeps, a chain of passes keeps.** Each fact proved of one pass holds
along the passes of a run. -/
theorem passes_invariant (P : LoopPoint R → Prop)
    (hPass : ∀ {q q' : LoopPoint R}, Pass ode tFinal stop q q' → P q → P q')
    {q q' : LoopPoint R} (h : Relation.ReflTransGen (Pass ode tFinal stop) q q') (hq : P q) :
    P q' := by
  induction h with
  | refl => exact hq
  | tail _ hStep ih => exact hPass hStep ih

/-! ## §4 What an outcome says about the run -/

@[simp] theorem stopWith_status (c : Continuation R) (events : List (Event R)) (t : Termination) :
    (c.stopWith (ε := ε) events t).1.status = if t = .steadyState then .passed else .failed := by
  by_cases h : t = .steadyState <;> simp [stopWith, finish, h]

@[simp] theorem stopWith_result (c : Continuation R) (events : List (Event R)) (t : Termination) :
    (c.stopWith (ε := ε) events t).2.2 = .ok (decide (t = .steadyState)) := rfl

variable {ode tFinal stop}

/-- An exit that passes is a steady one. -/
theorem Exit.eq_steady_of_passed {q : LoopPoint R} {o : Outcome R ε}
    (h : Exit ode tFinal stop q o) (hPassed : o.2.2 = .ok true) :
    ∃ s attempt step,
      q.cont.stepper.takeStep ode q.current (q.cont.stepSize tFinal q.current) = (s, attempt) ∧
      attempt.bind (q.cont.attempted s).screen = .ok step ∧
      q.cont.isSteady step.x step.xDot.norm = true ∧
      o = (((q.cont.attempted s).record
          (q.current.next (q.cont.stepSize tFinal q.current) step)).stopWith
        (⟨q.current.next (q.cont.stepSize tFinal q.current) step, step.xDot.norm⟩ :: q.events)
        .steadyState) := by
  cases h with
  | steady _ _ hStep hOk hSteady => exact ⟨_, _, _, hStep, hOk, hSteady, rfl⟩
  | problem | breach => cases hPassed
  | finalTime | maxSteps | stepFailures | minTimeStep | stopped => simp at hPassed

/-- The status at an exit agrees with its outcome: passed exactly at a steady state, failed
at every other termination and at a problem error; only a breach leaves it as it was. -/
theorem Exit.status {q : LoopPoint R} {o : Outcome R ε} (h : Exit ode tFinal stop q o) :
    (∀ b, o.2.2 = .ok b → o.1.status = if b then .passed else .failed) ∧
    (∀ e, o.2.2 = .error e → (∃ e', e = .problem e' ∧ o.1.status = .failed) ∨ e = .breach) := by
  cases h with
  | @problem _ _ _ _ _ _ e' =>
    refine ⟨fun b hb => by simp at hb, fun e he => .inl ⟨e', ?_, rfl⟩⟩
    simpa [eq_comm] using he
  | breach =>
    refine ⟨fun b hb => by simp at hb, fun e he => .inr ?_⟩
    simpa [eq_comm] using he
  | finalTime | maxSteps | stepFailures | minTimeStep | steady | stopped =>
    refine ⟨fun b hb => ?_, fun e he => by simp at he⟩
    simp only [stopWith_result, Except.ok.injEq] at hb
    subst hb
    simp

variable (ode tFinal stop) in
/-- **The status agrees with the outcome of a run**: a run that passes ends `passed`, one
that fails or stops on a problem error ends `failed`, and the only other error is a breach. -/
theorem loop_status (c : Continuation R) (current : SolutionState R) (failures : Nat)
    (events : List (Event R)) :
    let o := loop ode tFinal stop c current failures events
    (∀ b, o.2.2 = .ok b → o.1.status = if b then .passed else .failed) ∧
    (∀ e, o.2.2 = .error e → (∃ e', e = .problem e' ∧ o.1.status = .failed) ∨ e = .breach) := by
  obtain ⟨q, -, hExit⟩ := loop_passes ode tFinal stop c current failures events
  exact hExit.status

/-- **A run that passes ends at a steady accepted state.** The current state at its end is
the one reached by the last step, taken from a point of the run, and that state is
steady. -/
theorem loop_steady {c : Continuation R} {current : SolutionState R} {failures : Nat}
    {events : List (Event R)}
    (hPassed : (loop ode tFinal stop c current failures events).2.2 = .ok true) :
    ∃ q s attempt step,
      Relation.ReflTransGen (Pass ode tFinal stop) ⟨c, current, failures, events⟩ q ∧
      q.cont.stepper.takeStep ode q.current (q.cont.stepSize tFinal q.current) = (s, attempt) ∧
      attempt.bind (q.cont.attempted s).screen = .ok step ∧
      q.cont.isSteady step.x step.xDot.norm = true ∧
      (loop ode tFinal stop c current failures events).1.history.current =
        some (q.current.next (q.cont.stepSize tFinal q.current) step) := by
  obtain ⟨q, hq, hExit⟩ := loop_passes ode tFinal stop c current failures events
  obtain ⟨s, attempt, step, hStep, hOk, hSteady, hEq⟩ := hExit.eq_steady_of_passed hPassed
  refine ⟨q, s, attempt, step, hq, hStep, hOk, hSteady, ?_⟩
  rw [hEq]
  exact History.current_push _ _

/-! ## §5 Calls of `advance` -/

/-- A call of `advance` on a continuation that has a current state and is working runs the
loop from that state. -/
theorem advance_of_working {c : Continuation R} {current : SolutionState R}
    (hCurrent : c.history.current = some current) (hWorking : c.status = .working) :
    c.advance ode tFinal stop =
      loop ode tFinal stop { c with calls := c.calls + 1 } current 0 [] := by
  simp [advance, hCurrent, hWorking]

/-- A call of `advance` on a run that has ended returns its outcome again. -/
theorem advance_of_ended {c : Continuation R} {current : SolutionState R}
    (hCurrent : c.history.current = some current) (hEnded : c.status ≠ .working) :
    c.advance ode tFinal stop =
      ({ c with calls := c.calls + 1 }, [], .ok (decide (c.status = .passed))) := by
  simp [advance, hCurrent, hEnded]

/-- A call of `advance` before any state is known fails. -/
theorem advance_of_empty {c : Continuation R} (hEmpty : c.history.current = none) :
    c.advance ode tFinal stop = ({ c with calls := c.calls + 1 }, [], .error .notInitialized) := by
  simp [advance, hEmpty]

variable (ode tFinal stop) in
/-- **The three ways a call of `advance` goes.** Without a current state it fails; on a run
that has ended it returns the outcome again; on a working run it runs the loop from the
current state, a chain of passes and one exit. The call is counted in every case. -/
theorem advance_cases (c : Continuation R) :
    (c.history.current = none ∧
      c.advance ode tFinal stop = ({ c with calls := c.calls + 1 }, [], .error .notInitialized)) ∨
    (∃ current, c.history.current = some current ∧ c.status ≠ .working ∧
      c.advance ode tFinal stop =
        ({ c with calls := c.calls + 1 }, [], .ok (decide (c.status = .passed)))) ∨
    (∃ current q, c.history.current = some current ∧ c.status = .working ∧
      Relation.ReflTransGen (Pass ode tFinal stop)
        ⟨{ c with calls := c.calls + 1 }, current, 0, []⟩ q ∧
      Exit ode tFinal stop q (c.advance ode tFinal stop)) := by
  cases hCurrent : c.history.current with
  | none => exact .inl ⟨rfl, advance_of_empty hCurrent⟩
  | some current =>
    by_cases hWorking : c.status = .working
    · obtain ⟨q, hq, hExit⟩ :=
        loop_passes ode tFinal stop { c with calls := c.calls + 1 } current 0 []
      rw [← advance_of_working hCurrent hWorking] at hExit
      exact .inr (.inr ⟨current, q, rfl, hWorking, hq, hExit⟩)
    · exact .inr (.inl ⟨current, rfl, hWorking, advance_of_ended hCurrent hWorking⟩)

/-- A pass keeps the settings. -/
theorem Pass.config {q q' : LoopPoint R} (h : Pass ode tFinal stop q q') :
    q'.cont.config = q.cont.config := by
  cases h <;> rfl

/-- An exit keeps the settings. -/
theorem Exit.config {q : LoopPoint R} {o : Outcome R ε} (h : Exit ode tFinal stop q o) :
    o.1.config = q.cont.config := by
  cases h <;> rfl

/-- A chain of passes keeps the settings. -/
theorem passes_config {q q' : LoopPoint R} (h : Relation.ReflTransGen (Pass ode tFinal stop) q q') :
    q'.cont.config = q.cont.config :=
  passes_invariant (fun q' => q'.cont.config = q.cont.config)
    (fun hPass hq => hPass.config.trans hq) h rfl

variable (ode tFinal stop) in
/-- **A call of `advance` keeps the settings.** -/
theorem advance_config (c : Continuation R) : (c.advance ode tFinal stop).1.config = c.config := by
  rcases advance_cases ode tFinal stop c with ⟨-, hEq⟩ | ⟨-, -, -, hEq⟩ | ⟨_, q, -, -, hq, hExit⟩
  · rw [hEq]
  · rw [hEq]
  · rw [hExit.config, passes_config hq]

variable (ode tFinal stop) in
/-- **The status after `advance` agrees with its result**: passed after a steady state,
failed after any other end and after a problem error. Its other errors are a breach, and
the call on a continuation without any state, which changes nothing but the call count. -/
theorem advance_status (c : Continuation R) :
    let o := c.advance ode tFinal stop
    (∀ b, o.2.2 = .ok b → o.1.status = if b then .passed else .failed) ∧
    (∀ e, o.2.2 = .error e →
      (∃ e', e = .problem e' ∧ o.1.status = .failed) ∨ e = .breach ∨
        (e = .notInitialized ∧ c.history.current = none)) := by
  rcases advance_cases ode tFinal stop c with ⟨hEmpty, hEq⟩ | ⟨-, -, hEnded, hEq⟩ |
    ⟨_, q, -, -, -, hExit⟩
  · rw [hEq]
    refine ⟨fun b hb => by simp at hb, fun e he => .inr (.inr ⟨?_, hEmpty⟩)⟩
    simpa [eq_comm] using he
  · -- an ended run reports its status again
    rw [hEq]
    refine ⟨fun b hb => ?_, fun e he => by simp at he⟩
    simp only [Except.ok.injEq] at hb
    subst hb
    cases hs : c.status <;> simp_all
  · obtain ⟨hOk, hErr⟩ := hExit.status
    exact ⟨hOk, fun e he => (hErr e he).imp_right .inl⟩

/-- A call of `advance` that returns whether it reached a steady state leaves its
continuation passed or failed accordingly. -/
theorem status_of_advance_ok {c c' : Continuation R} {events : List (Event R)} {b : Bool}
    (h : c.advance ode tFinal stop = (c', events, .ok b)) :
    c'.status = if b then .passed else .failed := by
  have hStatus := (advance_status ode tFinal stop c).1 b
  rw [h] at hStatus
  exact hStatus rfl

/-- A call of `advance` on a continuation with a current state that fails without a breach
leaves it failed. -/
theorem status_of_advance_error {c c' : Continuation R} {events : List (Event R)}
    {e : SolveError ε} (h : c.advance ode tFinal stop = (c', events, .error e))
    (hStarted : c.history.current.isSome) (hNoBreach : e ≠ .breach) : c'.status = .failed := by
  have hStatus := (advance_status ode tFinal stop c).2 e
  rw [h] at hStatus
  rcases hStatus rfl with ⟨_, _, hFailed⟩ | hBreach | ⟨_, hEmpty⟩
  · exact hFailed
  · exact absurd hBreach hNoBreach
  · simp [hEmpty] at hStarted

/-! ## §6 Creating and starting a run -/

/-- A continuation just created: validated settings, an empty history, a stepper without a
kept factorisation, working, trying the initial step size. -/
theorem create_eq_ok {config : Config R} {c : Continuation R} (h : create config = .ok c) :
    config.validate = .ok () ∧
    c = { config, stepper := { kind := config.stepper, newton := config.newton },
          history := { limit := config.storageLimit },
          dt := config.timeStepControl.initialTimeStep } := by
  simp only [create, bind, Except.bind] at h
  split at h
  · cases h
  · rename_i u hValid
    cases h
    exact ⟨hValid, rfl⟩

/-- A started run: the initial state of the expected shape alone in the history, the stepper
reset, working, trying the initial step size again. -/
theorem start_eq_ok {ε : Type} {c c' : Continuation R} {dims : Nat × Nat} {t0 : R}
    {x0 : Matrix R} {xDot0 xDotDot0 : Option (Matrix R)}
    (h : c.start (ε := ε) dims t0 x0 xDot0 xDotDot0 = .ok c') :
    x0.shape = dims ∧ (xDot0.getD (Matrix.zeros dims.1 dims.2)).shape = dims ∧
    c' = { c with
      history := c.history.clear.push
        { time := t0, index := 0, dt := 0, x := x0,
          xDot := xDot0.getD (Matrix.zeros dims.1 dims.2), xDotDot := xDotDot0 }
      stepper := c.stepper.reset, status := .working, termination := none,
      dt := c.config.timeStepControl.initialTimeStep, prevRate := none, calls := 0,
      attempts := 0 } := by
  simp only [start, checkShape, bind, Except.bind, pure, Except.pure] at h
  by_cases hx : x0.shape = dims
  · by_cases hd : (xDot0.getD (Matrix.zeros dims.1 dims.2)).shape = dims
    · refine ⟨hx, hd, ?_⟩
      -- the third check only reads the second derivative when one is given
      cases xDotDot0 with
      | none => simpa [hx, hd, eq_comm] using h
      | some m =>
        by_cases hm : m.shape = dims
        · simpa [hx, hd, hm, eq_comm] using h
        · simp [hx, hd, hm] at h
    · simp [hx, hd] at h
  · simp [hx] at h

end Continuation

end SteadyAdjoint.Integrator
