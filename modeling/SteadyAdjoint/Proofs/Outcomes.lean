import SteadyAdjoint.Proofs.Cache
import SteadyAdjoint.Proofs.Trips
import SteadyAdjoint.Binary64.Double
import SteadyAdjoint.Model.Logistic

/-!
# What the status of a run says

A continuation records how its run ended twice: in its status and in its termination. This
module shows that the two always agree, and what each termination says about the state the
run ended at:

* the run is working exactly when no termination is recorded, passed exactly at a steady
  state, and failed at every other termination;
* a run that reached a steady state ends at a state that passes the steady-state test, and one
  that used its step budget ends at the state with exactly that many steps;
* a run that reached the final time ends at or past the final time of the call that ended it.

A call of `advance` reports success exactly when it leaves the run passed, and a problem error
only together with the termination `problemError`. A run that has ended is not resumed: a
further call only counts itself. A start makes the run work again.

## Main statements

* `LoopPoint.Running`: the invariant of a run in progress, kept by every pass.
* `Continuation.Exit.agrees`: what every exit of the loop leaves.
* `Continuation.StatusAgrees.advance`: one call of `advance` keeps the invariant.
* `Continuation.Reachable.statusAgrees`: the invariant across calls, with what each call of
  `advance` and of `start` does.
-/

namespace SteadyAdjoint.Integrator

variable {R : Type} [Scalar R] {ε : Type}

namespace Continuation

/-! ## §1 The fields each part of a trip changes -/

section Fields

variable (c : Continuation R)

@[simp] theorem stopWith_termination (events : List (Event R)) (t : Termination) :
    (c.stopWith (ε := ε) events t).1.termination = some t := rfl

@[simp] theorem stopWith_history (events : List (Event R)) (t : Termination) :
    (c.stopWith (ε := ε) events t).1.history = c.history := rfl

@[simp] theorem stopWith_config (events : List (Event R)) (t : Termination) :
    (c.stopWith (ε := ε) events t).1.config = c.config := rfl

@[simp] theorem attempted_status (s : Stepper R) : (c.attempted s).status = c.status := rfl

@[simp] theorem attempted_termination (s : Stepper R) :
    (c.attempted s).termination = c.termination := rfl

@[simp] theorem attempted_history (s : Stepper R) : (c.attempted s).history = c.history := rfl

@[simp] theorem attempted_config (s : Stepper R) : (c.attempted s).config = c.config := rfl

@[simp] theorem record_status (state : SolutionState R) : (c.record state).status = c.status :=
  rfl

@[simp] theorem record_termination (state : SolutionState R) :
    (c.record state).termination = c.termination := rfl

@[simp] theorem record_history (state : SolutionState R) :
    (c.record state).history = c.history.push state := rfl

@[simp] theorem record_config (state : SolutionState R) : (c.record state).config = c.config :=
  rfl

@[simp] theorem retried_status (dt : R) : (c.retried dt).status = c.status := rfl

@[simp] theorem retried_termination (dt : R) : (c.retried dt).termination = c.termination := rfl

@[simp] theorem retried_history (dt : R) : (c.retried dt).history = c.history := rfl

@[simp] theorem retried_config (dt : R) : (c.retried dt).config = c.config := rfl

@[simp] theorem nextTimeStep_status (rate : R) : (c.nextTimeStep rate).status = c.status := rfl

@[simp] theorem nextTimeStep_termination (rate : R) :
    (c.nextTimeStep rate).termination = c.termination := rfl

@[simp] theorem nextTimeStep_history (rate : R) :
    (c.nextTimeStep rate).history = c.history := rfl

@[simp] theorem index_next (current : SolutionState R) (dt : R) (step : Step R) :
    (current.next dt step).index = current.index + 1 := rfl

/-- The steady-state test reads the settings only. -/
theorem isSteady_iff (x : Matrix R) (rate : R) :
    c.isSteady x rate = true ↔
      rate ≤ c.config.steadyState.absTol + c.config.steadyState.relTol * x.norm := by
  simp [isSteady]

end Fields

end Continuation

/-! ## §2 A run in progress -/

/-- A point of a run in progress: the continuation is working with no termination, the state
stepped from is its current state, and that state is within the step budget. -/
structure LoopPoint.Running (q : LoopPoint R) : Prop where
  working : q.cont.status = .working
  termination : q.cont.termination = none
  current : q.cont.history.current = some q.current
  index_le : q.current.index ≤ q.cont.config.maxSteps

namespace Continuation

variable {ode : ImplicitOde R ε} {tFinal : R} {stop : SolutionState R → R → Bool}

/-- **A pass keeps a run in progress**: a retry changes neither the state nor the status, and
an accepted step that goes on pushes a state one step further, still within the budget since
the budget was not used before it. -/
theorem Pass.running {q q' : LoopPoint R} (h : Pass ode tFinal stop q q') (hq : q.Running) :
    q'.Running := by
  cases h with
  | retry => exact ⟨hq.working, hq.termination, hq.current, hq.index_le⟩
  | accept _ hBudget =>
    refine ⟨hq.working, hq.termination, History.current_push _ _, ?_⟩
    simp only [index_next]
    exact Nat.succ_le_of_lt (Nat.lt_of_not_le hBudget)

/-! ## §3 What a run leaves -/

/-- What the status of a continuation says, observed between calls. -/
structure StatusAgrees (c : Continuation R) : Prop where
  /-- Working exactly while no termination is recorded. -/
  working_iff : c.status = .working ↔ c.termination = none
  /-- Passed exactly at a steady state. -/
  passed_iff : c.status = .passed ↔ c.termination = some .steadyState
  /-- A steady state is the current state, and it passes the steady-state test. -/
  steady : c.termination = some .steadyState → ∃ s, c.history.current = some s ∧
    s.xDot.norm ≤ c.config.steadyState.absTol + c.config.steadyState.relTol * s.x.norm
  /-- A run that used its step budget ends at the state with that many steps. -/
  maxSteps : c.termination = some .maxSteps →
    ∃ s, c.history.current = some s ∧ s.index = c.config.maxSteps
  /-- The current state is within the step budget. -/
  index_le : ∀ s, c.history.current = some s → s.index ≤ c.config.maxSteps
  /-- Before any state is known the run is working. -/
  started : c.history.current = none → c.status = .working

/-- What an exit of the loop towards `tFinal` leaves: the status agrees, success is reported
exactly when the run passed, a problem error only with its termination, and a run ended at
the final time is at or past it. -/
structure ExitAgrees (tFinal : R) (o : Outcome R ε) : Prop where
  status : o.1.StatusAgrees
  passed_iff : o.2.2 = .ok true ↔ o.1.status = .passed
  problem : ∀ e, o.2.2 = .error (.problem e) → o.1.termination = some .problemError
  finalTime : o.1.termination = some .finalTime →
    ∃ s, o.1.history.current = some s ∧ tFinal ≤ s.time

/-- The invariant does not read the call count. -/
theorem StatusAgrees.withCalls {c : Continuation R} (h : c.StatusAgrees) (n : Nat) :
    StatusAgrees { c with calls := n } :=
  ⟨h.working_iff, h.passed_iff, h.steady, h.maxSteps, h.index_le, h.started⟩

/-- Failed at every termination but a steady state. -/
theorem StatusAgrees.failed_iff {c : Continuation R} (h : c.StatusAgrees) :
    c.status = .failed ↔ c.termination ≠ none ∧ c.termination ≠ some .steadyState := by
  rw [ne_eq, ne_eq, ← h.working_iff.not, ← h.passed_iff.not]
  cases c.status <;> simp

/-- Ending the run at the current state `s` with the termination `t` leaves the status in
agreement, given what `t` says about `s`. -/
theorem stopWith_agrees {c : Continuation R} {s : SolutionState R} (events : List (Event R))
    {t : Termination} (hCurrent : c.history.current = some s)
    (hIndex : s.index ≤ c.config.maxSteps)
    (hSteady : t = .steadyState → c.isSteady s.x s.xDot.norm = true)
    (hMax : t = .maxSteps → s.index = c.config.maxSteps)
    (hFinal : t = .finalTime → tFinal ≤ s.time) :
    ExitAgrees tFinal (c.stopWith (ε := ε) events t) := by
  have hStatus := stopWith_status (ε := ε) c events t
  refine ⟨⟨?_, ?_, fun h => ?_, fun h => ?_, fun s' h' => ?_, fun h => ?_⟩, ?_, ?_, fun h => ?_⟩
  · rw [hStatus]
    split <;> simp
  · rw [hStatus]
    split <;> simp_all
  · obtain rfl : t = .steadyState := by simpa using h
    exact ⟨s, hCurrent, (c.isSteady_iff _ _).1 (hSteady rfl)⟩
  · obtain rfl : t = .maxSteps := by simpa using h
    exact ⟨s, hCurrent, hMax rfl⟩
  · rw [stopWith_history, hCurrent] at h'
    cases h'
    exact hIndex
  · rw [stopWith_history, hCurrent] at h
    cases h
  · rw [stopWith_result, hStatus]
    by_cases ht : t = .steadyState <;> simp [ht]
  · simp
  · obtain rfl : t = .finalTime := by simpa using h
    exact ⟨s, hCurrent, hFinal rfl⟩

end Continuation

/-- An attempt of a run in progress changes neither the status nor the history. -/
theorem LoopPoint.Running.attempted {q : LoopPoint R} (hq : q.Running) (s : Stepper R) :
    (q.cont.attempted s).StatusAgrees := by
  refine ⟨by simp [hq.working, hq.termination], by simp [hq.working, hq.termination],
    fun h => ?_, fun h => ?_, fun s' h' => ?_, fun h => ?_⟩
  · simp [hq.termination] at h
  · simp [hq.termination] at h
  · rw [Continuation.attempted_history, hq.current] at h'
    cases h'
    exact hq.index_le
  · rw [Continuation.attempted_history, hq.current] at h
    cases h

namespace Continuation

variable {ode : ImplicitOde R ε} {tFinal : R} {stop : SolutionState R → R → Bool}

/-- **Every exit of a run in progress leaves the status in agreement** with the termination
it records and the result it returns. -/
theorem Exit.agrees {q : LoopPoint R} {o : Outcome R ε} (h : Exit ode tFinal stop q o)
    (hq : q.Running) : ExitAgrees tFinal o := by
  cases h with
  | finalTime hTime =>
    exact stopWith_agrees _ hq.current hq.index_le (by simp) (by simp) fun _ => hTime
  | maxSteps _ hBudget =>
    exact stopWith_agrees _ hq.current hq.index_le (by simp)
      (fun _ => Nat.le_antisymm hq.index_le hBudget) (by simp)
  | @problem c current failures events s attempt e _ _ _ =>
    -- the only error that records a termination
    have hAttempted := hq.attempted s
    refine ⟨⟨by simp, by simp, by simp, by simp, hAttempted.index_le, by simp [hq.current]⟩,
      by simp, fun _ _ => rfl, by simp⟩
  | @breach c current failures events s =>
    -- the only exit that leaves the run working
    have hWorking : c.status = .working := hq.working
    have hNone : c.termination = none := hq.termination
    exact ⟨hq.attempted s, by simp [hWorking], by simp, by simp [hNone]⟩
  | stepFailures =>
    exact stopWith_agrees _ hq.current hq.index_le (by simp) (by simp) (by simp)
  | minTimeStep =>
    exact stopWith_agrees _ hq.current hq.index_le (by simp) (by simp) (by simp)
  | steady _ hBudget _ _ hSteady =>
    -- the steady state is the one just pushed, one step further and within the budget
    exact stopWith_agrees _ (History.current_push _ _)
      (Nat.succ_le_of_lt (Nat.lt_of_not_le hBudget)) (fun _ => hSteady) (by simp) (by simp)
  | stopped _ hBudget =>
    exact stopWith_agrees _ (History.current_push _ _)
      (Nat.succ_le_of_lt (Nat.lt_of_not_le hBudget)) (by simp) (by simp) (by simp)

/-! ## §4 A call of `advance` -/

/-- What a call of `advance` towards `tFinal` on `c` returns, against what it leaves. -/
structure CallAgrees (c : Continuation R) (tFinal : R) (o : Outcome R ε) : Prop where
  /-- Success is reported exactly when the run is left passed. -/
  passed_iff : o.2.2 = .ok true ↔ o.1.status = .passed
  /-- A problem error comes only with the termination `problemError`. -/
  problem : ∀ e, o.2.2 = .error (.problem e) → o.1.termination = some .problemError
  /-- A call that ends a run at the final time leaves it at or past that time. -/
  finalTime : c.termination = none → o.1.termination = some .finalTime →
    ∃ s, o.1.history.current = some s ∧ tFinal ≤ s.time
  /-- A run that has ended is not resumed: the call only counts itself. -/
  ended : c.status ≠ .working →
    o = ({ c with calls := c.calls + 1 }, [], .ok (decide (c.status = .passed)))

variable (ode tFinal stop) in
/-- **One call of `advance` keeps the status in agreement**, and its result agrees with what
it leaves. -/
theorem StatusAgrees.advance {c : Continuation R} (h : c.StatusAgrees) :
    (c.advance ode tFinal stop).1.StatusAgrees ∧
      c.CallAgrees tFinal (c.advance ode tFinal stop) := by
  rcases advance_cases ode tFinal stop c with ⟨hCurrent, hEq⟩ | ⟨_, -, hEnded, hEq⟩ |
    ⟨current, q, hCurrent, hWorking, hq, hExit⟩
  · -- no state yet: the call fails and changes only the call count
    have hWorking := h.started hCurrent
    rw [hEq]
    exact ⟨h.withCalls _, ⟨by simp [hWorking], by simp, by simp [h.working_iff.1 hWorking],
      fun hEnded => absurd hWorking hEnded⟩⟩
  · rw [hEq]
    refine ⟨h.withCalls _, ⟨by simp, by simp, fun hNone => absurd (h.working_iff.2 hNone) hEnded,
      fun _ => rfl⟩⟩
  · -- the loop runs from the current state, within the step budget
    have hStart : LoopPoint.Running ⟨{ c with calls := c.calls + 1 }, current, 0, []⟩ :=
      ⟨hWorking, h.working_iff.1 hWorking, hCurrent, h.index_le current hCurrent⟩
    have hAgrees := hExit.agrees (passes_invariant _ Pass.running hq hStart)
    exact ⟨hAgrees.status, ⟨hAgrees.passed_iff, hAgrees.problem, fun _ => hAgrees.finalTime,
      fun hEnded => absurd hWorking hEnded⟩⟩

/-! ## §5 Across calls -/

/-- A continuation just created has no state and is working. -/
theorem statusAgrees_of_create {config : Config R} {c : Continuation R}
    (h : create config = .ok c) : c.StatusAgrees := by
  obtain ⟨-, rfl⟩ := create_eq_ok h
  exact ⟨by simp, by simp, by simp, by simp, fun s hs => by simp [History.current] at hs,
    fun _ => rfl⟩

/-- A started run is working, with no termination, at its initial state of step zero. -/
theorem statusAgrees_of_start {c c' : Continuation R} {dims : Nat × Nat} {t0 : R}
    {x0 : Matrix R} {xDot0 xDotDot0 : Option (Matrix R)}
    (h : c.start (ε := ε) dims t0 x0 xDot0 xDotDot0 = .ok c') : c'.StatusAgrees := by
  obtain ⟨-, -, rfl⟩ := start_eq_ok h
  refine ⟨by simp, by simp, by simp, by simp, fun s hs => ?_, fun hs => ?_⟩
  · rw [History.current_push] at hs
    cases hs
    exact Nat.zero_le _
  · simp [History.current_push] at hs

/-- **The status of every reachable continuation agrees with its run.**

For any problem and validated settings, after any sequence of starts and calls of `advance`
(to any final times, with any requests to stop): the continuation is working exactly when no
termination is recorded, passed exactly at a steady state, and failed at every other
termination; a steady state is the current state and passes the steady-state test, and a
run that used its step budget ends at the state with exactly `maxSteps` steps. Every further
call of `advance` reports success exactly when it leaves the run passed, returns a problem
error only with the termination `problemError`, leaves a run it ends at the final time at or
past that time, and does not resume a run that has ended: it returns whether it passed and
only counts itself. A start makes the run work again with no termination. -/
theorem Reachable.statusAgrees {ode : ImplicitOde R ε} {c : Continuation R}
    (hc : Continuation.Reachable ode c) :
    c.StatusAgrees ∧
    (c.status = .failed ↔ c.termination ≠ none ∧ c.termination ≠ some .steadyState) ∧
    (∀ tFinal stop, c.CallAgrees tFinal (c.advance ode tFinal stop)) ∧
    ∀ dims t0 x0 xDot0 xDotDot0 c', c.start (ε := ε) dims t0 x0 xDot0 xDotDot0 = .ok c' →
      c'.status = .working ∧ c'.termination = none := by
  -- the invariant, by induction over the calls that led to `c`
  have hAgrees : c.StatusAgrees := by
    induction hc with
    | create h => exact statusAgrees_of_create h
    | start _ h => exact statusAgrees_of_start h
    | advance _ tFinal stop ih => exact (ih.advance _ tFinal stop).1
  refine ⟨hAgrees, hAgrees.failed_iff, fun tFinal stop => (hAgrees.advance ode tFinal stop).2,
    fun dims t0 x0 xDot0 xDotDot0 c' h => ?_⟩
  obtain ⟨-, -, rfl⟩ := start_eq_ok h
  exact ⟨rfl, rfl⟩

open SteadyAdjoint.Binary64 in
/-- The logistic continuation at the default settings, started at its steady state `x = 2`,
passes at its first step; its status agrees with how it ended. -/
theorem logistic_continuation_statusAgrees :
    ∃ created c, Continuation.create (R := Double) {} = .ok created ∧
      created.start (ε := ModelError) (1, 1) 0 (Matrix.column #[2]) none none = .ok c ∧
      let ode := (Logistic.toModel ⟨1, 2, 0⟩).forwardProblem false
      let ran := (c.advance ode 100 fun _ _ => false).1
      Continuation.Reachable ode ran ∧ ran.status = .passed ∧ ran.StatusAgrees ∧
        (ran.status = .failed ↔ ran.termination ≠ none ∧ ran.termination ≠ some .steadyState) := by
  obtain ⟨created, c, hCreate, hStart, hPassed⟩ :=
    Continuation.exists_started_run (R := Double) {} (1, 1) 0 (Matrix.column #[2]) none none
      ((Logistic.toModel ⟨1, 2, 0⟩).forwardProblem false) 100 (fun _ _ => false) 3
      (fun _ o => decide (o.1.status = .passed)) (by decide +kernel)
  have hCreated : Continuation.Reachable ((Logistic.toModel ⟨1, 2, 0⟩).forwardProblem false)
      created := .create hCreate
  have hReach : Continuation.Reachable ((Logistic.toModel ⟨1, 2, 0⟩).forwardProblem false)
      (c.advance ((Logistic.toModel ⟨1, 2, 0⟩).forwardProblem false) 100 fun _ _ => false).1 :=
    .advance (.start hCreated hStart) 100 _
  obtain ⟨hAgrees, hFailed, -⟩ := Reachable.statusAgrees hReach
  exact ⟨created, c, hCreate, hStart, hReach, of_decide_eq_true hPassed, hAgrees, hFailed⟩

end Continuation

end SteadyAdjoint.Integrator
