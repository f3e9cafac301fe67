import SteadyAdjoint.Proofs.AffineStep

/-!
# The step budget of a call

A call of `advance` makes finitely many step attempts, and the continuation counts them: `calls`
counts the calls of `advance` since the last start, `attempts` the step attempts, accepted,
rejected or failing with an error. This module bounds both counts, and what each attempt reads
of the problem.

* Each trip round the loop that tries a step counts one attempt, and no other trip counts any
  (`Continuation.Pass.attempts`, `Continuation.Exit.attempts`).
* With `K` rejected steps in a row allowed, a call from step `i₀` under a budget of `N` steps
  makes at most `(N - i₀) · (K + 1)` attempts. The potential is `LoopPoint.budget`: the `K + 1`
  tries of each step still allowed, less the rejections in a row so far. Each pass spends at
  least one unit of it (`Continuation.Pass.budget`), and the exit at most one.
* A backward Euler attempt evaluates the residual and the iteration matrix at most `maxIters`
  times each: a problem that agrees with the stepped one at that many points gives the same
  attempt (`ImplicitOde.ReadsAtMost`).
* A call of `advance` on a sensitivity solver leaves its forward continuation as it was or
  advances it by one call within its bound, and leaves its adjoint continuation as it was or
  starts it afresh and advances it by one call within its bound from step `0`
  (`SensitivitySolver.Spends`).

## Main statements

* `Continuation.advance_counts`: the counts of one call of `advance`.
* `Stepper.takeStep_readsAtMost`: what a backward Euler attempt reads.
* `SensitivitySolver.advance_spends`: what one call of the sensitivity solver spends.
* `step_attempts_bounded`: all of these, for every continuation the calls can leave.
-/

namespace SteadyAdjoint

/-! ## §1 What an attempt reads of the problem -/

section Reads

variable {R ε : Type}

/-- A point at which a problem is evaluated: a time, a state and a rate. -/
structure EvalPoint (R : Type) where
  time : R
  x : Matrix R
  xDot : Matrix R

namespace ImplicitOde

/-- `ode'` declares the problem linear exactly when `ode` does, and gives what `ode` gives for
the residual at the points of `rs` and for the iteration matrix at the points and coefficients
`(α, β)` of `js`. -/
structure AgreesOn (ode ode' : ImplicitOde R ε) (rs : List (EvalPoint R))
    (js : List (EvalPoint R × R × R)) : Prop where
  isLinear : ode'.isLinear = ode.isLinear
  residual : ∀ p ∈ rs, ode'.residual p.time p.x p.xDot = ode.residual p.time p.x p.xDot
  jacobian : ∀ q ∈ js, ode'.jacobian q.1.time q.1.x q.1.xDot q.2.1 q.2.2 =
    ode.jacobian q.1.time q.1.x q.1.xDot q.2.1 q.2.2

theorem AgreesOn.tail {ode ode' : ImplicitOde R ε} {p : EvalPoint R} {rs : List (EvalPoint R)}
    {q : EvalPoint R × R × R} {js : List (EvalPoint R × R × R)}
    (h : ode.AgreesOn ode' (p :: rs) (q :: js)) : ode.AgreesOn ode' rs js :=
  ⟨h.isLinear, fun p' hp' => h.residual p' (.tail _ hp'), fun q' hq' => h.jacobian q' (.tail _ hq')⟩

/-- `f` evaluates `ode` at most `n` times for the residual and at most `n` times for the
iteration matrix: every problem that agrees with `ode` at some `n` points of each kind gives
what `ode` gives. -/
def ReadsAtMost {α : Type} (f : ImplicitOde R ε → α) (ode : ImplicitOde R ε) (n : ℕ) : Prop :=
  ∃ rs js, rs.length ≤ n ∧ js.length ≤ n ∧ ∀ ode', ode.AgreesOn ode' rs js → f ode' = f ode

theorem ReadsAtMost.mono {α : Type} {f : ImplicitOde R ε → α} {ode : ImplicitOde R ε} {n m : ℕ}
    (h : ReadsAtMost f ode n) (hnm : n ≤ m) : ReadsAtMost f ode m := by
  obtain ⟨rs, js, hrs, hjs, hSame⟩ := h
  exact ⟨rs, js, hrs.trans hnm, hjs.trans hnm, hSame⟩

end ImplicitOde

end Reads

variable {R : Type} [Scalar R] {ε : Type}

namespace Integrator.Stepper

/-- **Newton's iteration reads the problem once per update**: `left` more updates evaluate the
residual and the iteration matrix at most `left` times each, at the iterates. -/
theorem newtonIterate_readsAtMost (newton : NewtonSettings R) (ode : ImplicitOde R ε) (t α : R)
    (xStart : Matrix R) (left iter : ℕ) (x xDot : Matrix R) :
    ode.ReadsAtMost (fun ode => newtonIterate newton ode t α xStart left iter x xDot) left := by
  induction left generalizing iter x xDot with
  | zero => exact ⟨[], [], le_rfl, le_rfl, fun _ _ => rfl⟩
  | succ left ih =>
    -- the first update evaluates the residual and the iteration matrix at the iterate itself
    let p : EvalPoint R := ⟨t, x, xDot⟩
    have hFirst : ∀ (ode' : ImplicitOde R ε) rs js,
        ode.AgreesOn ode' (p :: rs) ((p, α, 1) :: js) →
        ode'.residual t x xDot = ode.residual t x xDot ∧
          ode'.jacobian t x xDot α 1 = ode.jacobian t x xDot α 1 :=
      fun ode' rs js h => ⟨h.residual p (.head _), h.jacobian (p, α, 1) (.head _)⟩
    rcases hr : ode.residual t x xDot with e | r
    · refine ⟨[p], [(p, α, 1)], by simp, by simp, fun ode' h => ?_⟩
      obtain ⟨hr', -⟩ := hFirst ode' [] [] h
      simp only [newtonIterate, evaluate, hr', hr, Except.mapError, bind, Except.bind]
    rcases hj : ode.jacobian t x xDot α 1 with e | j
    · refine ⟨[p], [(p, α, 1)], by simp, by simp, fun ode' h => ?_⟩
      obtain ⟨hr', hj'⟩ := hFirst ode' [] [] h
      simp only [newtonIterate, evaluate, hr', hr, hj', hj, Except.mapError, bind, Except.bind]
    rcases hu : j.factor.solve (-r) with e | u
    · refine ⟨[p], [(p, α, 1)], by simp, by simp, fun ode' h => ?_⟩
      obtain ⟨hr', hj'⟩ := hFirst ode' [] [] h
      dsimp only
      rw [newtonIterate_succ_of_solve_error hr hj hu,
        newtonIterate_succ_of_solve_error (hr'.trans hr) (hj'.trans hj) hu]
    -- a solved update goes on, if at all, from the next iterate
    obtain ⟨rs, js, hrs, hjs, hRest⟩ := ih (iter + 1) (x + u) ((x + u - xStart).scale α)
    refine ⟨p :: rs, (p, α, 1) :: js, by simpa using hrs, by simpa using hjs, fun ode' h => ?_⟩
    obtain ⟨hr', hj'⟩ := hFirst ode' rs js h
    simp only [newtonIterate, evaluate, solveWith, hr', hr, hj', hj, hu, Except.mapError, bind,
      Except.bind, hRest ode' h.tail]

/-- The one-update step of a linear problem evaluates the residual once and the iteration matrix
at most once, at the end of the step with a zero rate. -/
theorem linearStep_readsAtMost (cache : Option (R × Factors R)) (ode : ImplicitOde R ε)
    (current : SolutionState R) (dt : R) :
    ode.ReadsAtMost (fun ode => linearStep cache ode current dt) 1 := by
  let zero : Matrix R := Matrix.zeros current.x.rows current.x.cols
  let p : EvalPoint R := ⟨current.time + dt, current.x, zero⟩
  refine ⟨[p], [(p, 1 / dt, 1)], le_rfl, le_rfl, fun ode' h => ?_⟩
  have hr : ode'.residual (current.time + dt) current.x zero =
      ode.residual (current.time + dt) current.x zero := h.residual p (.head _)
  have hj : ode'.jacobian (current.time + dt) current.x zero (1 / dt) 1 =
      ode.jacobian (current.time + dt) current.x zero (1 / dt) 1 :=
    h.jacobian (p, 1 / dt, 1) (.head _)
  simp only [linearStep, zero] at hr hj ⊢
  simp only [hr, hj]

/-- **A backward Euler attempt evaluates the problem at most `maxIters` times**, the residual
and the iteration matrix each: once each for a linear problem, once per Newton update
otherwise. The check of the new state reads nothing more. -/
theorem takeStep_readsAtMost {s : Stepper R} (hKind : s.kind = .backwardEuler)
    (hIters : 0 < s.newton.maxIters) (ode : ImplicitOde R ε) (current : SolutionState R)
    (dt : R) : ode.ReadsAtMost (fun ode => s.takeStep ode current dt) s.newton.maxIters := by
  cases hLinear : ode.isLinear
  · obtain ⟨rs, js, hrs, hjs, hSame⟩ := newtonIterate_readsAtMost s.newton ode
      (current.time + dt) (1 / dt) current.x s.newton.maxIters 0 current.x
      (Matrix.zeros current.x.rows current.x.cols)
    refine ⟨rs, js, hrs, hjs, fun ode' h => ?_⟩
    have hLinear' : ode'.isLinear = false := h.isLinear.trans hLinear
    simp only [takeStep, hKind, hLinear, hLinear', newtonStep, hSame ode' h, Bool.false_eq_true,
      ↓reduceIte]
  · obtain ⟨rs, js, hrs, hjs, hSame⟩ :=
      (linearStep_readsAtMost s.cache ode current dt).mono hIters
    refine ⟨rs, js, hrs, hjs, fun ode' h => ?_⟩
    have hLinear' : ode'.isLinear = true := h.isLinear.trans hLinear
    simp only [takeStep, hKind, hLinear, hLinear', hSame ode' h, ↓reduceIte]

end Integrator.Stepper

namespace Integrator

/-! ## §2 What each trip counts -/

/-- The most step attempts that a run under `config` makes from step `start`: `K + 1` tries for
each step still allowed, `K` rejected steps in a row being allowed. -/
def Config.attemptBound (config : Config R) (start : ℕ) : ℕ :=
  (config.maxSteps - start) * (config.timeStepControl.maxConsecutiveFailures + 1)

/-- Below the step budget, the bound is that of the next step and the tries of this one. -/
theorem Config.attemptBound_of_lt (config : Config R) {i : ℕ} (h : i < config.maxSteps) :
    config.attemptBound i =
      config.attemptBound (i + 1) + (config.timeStepControl.maxConsecutiveFailures + 1) := by
  unfold Config.attemptBound
  rw [show config.maxSteps - i = config.maxSteps - (i + 1) + 1 by omega, Nat.succ_mul]

/-- Whether the trip from `q` tries a step: neither the final time nor the step budget is
reached. -/
def LoopPoint.tries (q : LoopPoint R) (tFinal : R) : Bool :=
  !decide (tFinal ≤ q.current.time) && decide (q.current.index < q.cont.config.maxSteps)

/-- The attempts left to the run at `q`: the bound from its current step, less the rejections
in a row so far. -/
def LoopPoint.budget (q : LoopPoint R) : ℕ :=
  q.cont.config.attemptBound q.current.index - q.failures

/-- The rejections in a row at `q` are within the number its settings allow. -/
def LoopPoint.WithinFailures (q : LoopPoint R) : Prop :=
  q.failures ≤ q.cont.config.timeStepControl.maxConsecutiveFailures

/-- What one call of `advance` takes `c` to `c'` counts: itself once, and between none and the
bound of its settings from its current step of step attempts. -/
structure Continuation.CountsCall (c c' : Continuation R) : Prop where
  calls : c'.calls = c.calls + 1
  attempts_ge : c.attempts ≤ c'.attempts
  attempts_le : c'.attempts ≤ c.attempts + c.config.attemptBound c.index

namespace Continuation

variable {ode : ImplicitOde R ε} {tFinal : R} {stop : SolutionState R → R → Bool}

/-- **A trip that goes on tried a step and counts one attempt**, and no call. -/
theorem Pass.attempts {q q' : LoopPoint R} (h : Pass ode tFinal stop q q') :
    q.tries tFinal = true ∧ q'.cont.attempts = q.cont.attempts + 1 ∧
      q'.cont.calls = q.cont.calls := by
  cases h with
  | retry hTime hBudget => exact ⟨by simpa [LoopPoint.tries, hTime] using hBudget, rfl, rfl⟩
  | accept hTime hBudget => exact ⟨by simpa [LoopPoint.tries, hTime] using hBudget, rfl, rfl⟩

/-- **The trip that ends the loop counts one attempt exactly when it tried a step**: none when
the final time or the step budget is reached first, one when the attempt failed with an error,
was rejected once too often or accepted a last state. It counts no call. -/
theorem Exit.attempts {q : LoopPoint R} {o : Outcome R ε} (h : Exit ode tFinal stop q o) :
    o.1.attempts = q.cont.attempts + (q.tries tFinal).toNat ∧ o.1.calls = q.cont.calls := by
  cases h with
  | finalTime hTime => simp [LoopPoint.tries, hTime, stopWith, finish]
  | maxSteps hTime hBudget =>
    simp [LoopPoint.tries, hTime, not_lt.mpr hBudget, stopWith, finish]
  | problem hTime hBudget | breach hTime hBudget | stepFailures hTime hBudget
  | minTimeStep hTime hBudget | steady hTime hBudget | stopped hTime hBudget =>
    simp [LoopPoint.tries, hTime, not_le.mp hBudget, stopWith, finish, attempted, record]

/-! ## §3 The budget of a run -/

/-- **Each pass spends at least one attempt of the budget**, and keeps the rejections in a row
within the allowed number: a retry tries the same step once more, an accepted step moves to
the next one with none. -/
theorem Pass.budget {q q' : LoopPoint R} (h : Pass ode tFinal stop q q')
    (hq : q.WithinFailures) : q'.WithinFailures ∧ q'.budget + 1 ≤ q.budget := by
  have hConfig := h.config
  cases h with
  | retry _ hBudget _ _ hCount =>
    have hSplit := Config.attemptBound_of_lt _ (not_le.mp hBudget)
    simp only [LoopPoint.WithinFailures, LoopPoint.budget] at hq hConfig ⊢
    rw [hConfig]
    omega
  | accept _ hBudget =>
    have hSplit := Config.attemptBound_of_lt _ (not_le.mp hBudget)
    simp only [LoopPoint.WithinFailures, LoopPoint.budget, SolutionState.next] at hq hConfig ⊢
    rw [hConfig]
    omega

/-- The trip that ends the loop makes at most one attempt, and only with budget left for it. -/
theorem Exit.attempts_le {q : LoopPoint R} {o : Outcome R ε} (h : Exit ode tFinal stop q o)
    (hq : q.WithinFailures) : o.1.attempts ≤ q.cont.attempts + q.budget := by
  rw [h.attempts.1]
  cases hTries : q.tries tFinal
  · simp
  · -- a trip that tries a step is below the step budget, which leaves it `K + 1` tries
    have hBelow : q.current.index < q.cont.config.maxSteps := by
      simp only [LoopPoint.tries, Bool.and_eq_true, decide_eq_true_eq] at hTries
      exact hTries.2
    have hSplit := Config.attemptBound_of_lt _ hBelow
    simp only [LoopPoint.WithinFailures] at hq
    simp only [LoopPoint.budget, Bool.toNat_true]
    omega

/-- Along a chain of passes the attempts made and the budget left sum to no more than at its
start; the count of attempts only grows, the count of calls stays. -/
theorem passes_budget {q q' : LoopPoint R} (h : Relation.ReflTransGen (Pass ode tFinal stop) q q')
    (hq : q.WithinFailures) :
    q'.WithinFailures ∧ q'.cont.attempts + q'.budget ≤ q.cont.attempts + q.budget ∧
      q.cont.attempts ≤ q'.cont.attempts ∧ q'.cont.calls = q.cont.calls := by
  induction h with
  | refl => exact ⟨hq, le_rfl, le_rfl, rfl⟩
  | tail _ hPass ih =>
    obtain ⟨hWithin, hSum, hGrows, hCalls⟩ := ih
    obtain ⟨hWithin', hSpent⟩ := hPass.budget hWithin
    obtain ⟨-, hAttempt, hCalls'⟩ := hPass.attempts
    exact ⟨hWithin', by omega, by omega, hCalls'.trans hCalls⟩

variable (ode tFinal stop) in
/-- **A run of the loop makes at most the budget of its first point in attempts.** -/
theorem loop_attempts (c : Continuation R) (current : SolutionState R) (failures : ℕ)
    (events : List (Event R))
    (hFailures : failures ≤ c.config.timeStepControl.maxConsecutiveFailures) :
    (loop ode tFinal stop c current failures events).1.calls = c.calls ∧
      c.attempts ≤ (loop ode tFinal stop c current failures events).1.attempts ∧
      (loop ode tFinal stop c current failures events).1.attempts ≤
        c.attempts + LoopPoint.budget ⟨c, current, failures, events⟩ := by
  obtain ⟨q, hq, hExit⟩ := loop_passes ode tFinal stop c current failures events
  obtain ⟨hWithin, hSum, hGrows, hCalls⟩ := passes_budget hq hFailures
  dsimp only at hSum hGrows hCalls
  obtain ⟨hAttempts, hExitCalls⟩ := hExit.attempts
  have hLast := hExit.attempts_le hWithin
  exact ⟨hExitCalls.trans hCalls, by omega, by omega⟩

variable (ode tFinal stop) in
/-- **A call of `advance` counts itself once and makes at most `(N - i₀) · (K + 1)` step
attempts**, `N` the step budget, `K` the rejections in a row allowed and `i₀` the step it starts
from. A call on a continuation without a state, or on a run that has ended, makes none. -/
theorem advance_counts (c : Continuation R) : c.CountsCall (c.advance ode tFinal stop).1 := by
  cases hCurrent : c.history.current with
  | none =>
    rw [advance_of_empty hCurrent]
    exact ⟨rfl, le_rfl, Nat.le_add_right _ _⟩
  | some current =>
    by_cases hWorking : c.status = .working
    · rw [advance_of_working hCurrent hWorking]
      have hIndex : c.index = current.index := by simp [index, hCurrent]
      obtain ⟨hCalls, hGrows, hBound⟩ :=
        loop_attempts ode tFinal stop { c with calls := c.calls + 1 } current 0 [] (Nat.zero_le _)
      refine ⟨hCalls, hGrows, ?_⟩
      simpa [LoopPoint.budget, hIndex] using hBound
    · rw [advance_of_ended hCurrent hWorking]
      exact ⟨rfl, le_rfl, Nat.le_add_right _ _⟩

/-! ## §4 What the attempts of a reachable continuation read -/

/-- Validated settings allow at least one Newton update. -/
theorem Config.newtonIters_pos {config : Config R} (h : config.validate = .ok ()) :
    0 < config.newton.maxIters := by
  unfold Config.validate at h
  simp only [bind, Except.bind, pure, Except.pure, throw, throwThe, MonadExceptOf.throw] at h
  split at h
  · cases h
  split at h
  · cases h
  split at h
  · cases h
  split at h
  · cases h
  split at h
  · cases h
  · rename_i hIters
    exact Nat.pos_of_ne_zero hIters

/-- A reachable continuation steps with the scheme and the Newton settings of its settings. -/
theorem Reachable.stepper_reset {c : Continuation R} (hc : Continuation.Reachable ode c) :
    c.stepper.reset = { kind := c.config.stepper, newton := c.config.newton } := by
  induction hc with
  | create h =>
    obtain ⟨-, rfl⟩ := create_eq_ok h
    rfl
  | start _ h ih =>
    have hSetup := setup_of_start h
    simp only [setup, Prod.mk.injEq] at hSetup
    rw [hSetup.1, hSetup.2.1, ih]
  | @advance ode c _ tFinal stop ih =>
    have hSetup := setup_advance ode tFinal stop c
    simp only [setup, Prod.mk.injEq] at hSetup
    rw [hSetup.1, hSetup.2.1, ih]

/-- A reachable continuation steps with the scheme of its settings. -/
theorem Reachable.stepper_kind {c : Continuation R} (hc : Continuation.Reachable ode c) :
    c.stepper.kind = c.config.stepper :=
  congrArg Stepper.kind hc.stepper_reset

/-- **Every backward Euler attempt of a call of `advance` on a reachable continuation evaluates
the problem at most `maxIters` times**, the residual and the iteration matrix each, `maxIters`
being the Newton setting of the continuation. -/
theorem Reachable.takeStep_readsAtMost {c : Continuation R} (hc : Continuation.Reachable ode c)
    (hKind : c.config.stepper = .backwardEuler) {q : LoopPoint R}
    (hq : c.Visits ode tFinal stop q) (current : SolutionState R) (dt : R) :
    ode.ReadsAtMost (fun ode => q.cont.stepper.takeStep ode current dt)
      c.config.newton.maxIters := by
  obtain ⟨_, -, -, hRun⟩ := hq
  -- the passes keep the stepper up to its kept factorisation
  have hReset : q.cont.stepper.reset = { kind := c.config.stepper, newton := c.config.newton } := by
    have hSetup := passes_setup hRun
    simp only [setup, Prod.mk.injEq] at hSetup
    rw [hSetup.2.1]
    exact hc.stepper_reset
  have hKind' : q.cont.stepper.kind = .backwardEuler := by
    rw [← hKind]
    exact congrArg Stepper.kind hReset
  have hNewton : q.cont.stepper.newton = c.config.newton := congrArg Stepper.newton hReset
  rw [← hNewton]
  exact Stepper.takeStep_readsAtMost hKind' (hNewton ▸ Config.newtonIters_pos hc.valid) ode
    current dt

end Continuation

end Integrator

/-! ## §5 What a call of the sensitivity solver spends -/

namespace Sensitivity

open SteadyAdjoint.Integrator

namespace SensitivitySolver

/-- What one call of `advance` takes `s` to `s'` spends: the forward continuation is left as it
was or advanced by one call within its bound; the adjoint continuation is left as it was, or
started afresh and advanced by one call, within its bound from step `0`. -/
structure Spends (s s' : SensitivitySolver R) : Prop where
  forward : s'.forward = s.forward ∨ s.forward.CountsCall s'.forward
  adjoint : s'.adjoint = s.adjoint ∨
    (s'.adjoint.calls = 1 ∧ s'.adjoint.attempts ≤ s.adjoint.config.attemptBound 0)

/-- The adjoint continuation `a'` is `a`, or `a` started afresh and advanced once. -/
def Restarted (a a' : Continuation R) : Prop :=
  a' = a ∨ ∃ (dims : ℕ × ℕ) (y0 : Matrix R) (started : Continuation R)
    (ode : ImplicitOde R AdjointError) (T : R) (stop : SolutionState R → R → Bool),
    a.start (ε := AdjointError) dims 0 y0 none none = .ok started ∧
      a' = (started.advance ode T stop).1

theorem runForward_adjoint (s : SensitivitySolver R) (tFinal : R)
    (stop : Phase → SolutionState R → R → Bool) :
    (s.runForward tFinal stop).1.adjoint = s.adjoint := by
  unfold runForward
  split
  · rcases s.forward.advance s.forwardOde tFinal (stop .forward) with ⟨forward, events, e | _ | _⟩
    all_goals rfl
  · rfl

theorem runAdjoint_adjoint (s : SensitivitySolver R) (stop : Phase → SolutionState R → R → Bool) :
    Restarted s.adjoint (s.runAdjoint stop).1.adjoint := by
  unfold runAdjoint
  split
  · rcases hFreeze : s.freezeAdjoint with ⟨frozen, e | ⟨⟩⟩
    · obtain ⟨equation, rfl, -⟩ := freezeAdjoint_error hFreeze
      exact .inl rfl
    · obtain ⟨-, frozen, started, -, -, hStart, rfl⟩ := freezeAdjoint_ok hFreeze
      refine .inr ⟨_, _, started, AdjointEquation.toOde { s.equation with frozen := some frozen },
        s.settings.adjoint.finalTime, stop .adjoint, hStart, ?_⟩
      dsimp only
      rcases started.advance _ _ _ with ⟨adjoint, events, e | _ | _⟩
      all_goals rfl
  · exact .inl rfl

theorem runAssembly_adjoint (s : SensitivitySolver R) : s.runAssembly.1.adjoint = s.adjoint := by
  unfold runAssembly
  split
  · rcases h : s.assemble with e | assembled
    · rfl
    · obtain ⟨_, _, _, _, rfl⟩ := assemble_eq_ok h
      rfl
  · rfl

/-- A call of `advance` leaves the adjoint continuation as it was, or starts it afresh and
advances it once. -/
theorem advance_adjoint (s : SensitivitySolver R) (tFinal : R)
    (stop : Phase → SolutionState R → R → Bool) :
    Restarted s.adjoint (s.advance tFinal stop).1.adjoint := by
  -- the forward phase and the assembly leave the adjoint continuation as it is
  have hPhases : Restarted s.adjoint (s.runPhases tFinal stop).1.adjoint := by
    have hForward := runForward_adjoint s tFinal stop
    unfold runPhases
    rcases hRun : s.runForward tFinal stop with ⟨s1, events, e | _ | _⟩
    all_goals rw [hRun] at hForward
    · exact .inl hForward
    · exact .inl hForward
    · -- the adjoint phase runs from the forward phase's solver
      have hAdjoint := runAdjoint_adjoint s1 stop
      dsimp only at hForward ⊢
      rw [hForward] at hAdjoint
      rcases hRun' : s1.runAdjoint stop with ⟨s2, more, e | _ | _⟩
      all_goals rw [hRun'] at hAdjoint
      · exact hAdjoint
      · exact hAdjoint
      · dsimp only
        rw [runAssembly_adjoint]
        exact hAdjoint
  unfold advance
  split
  · exact .inl rfl
  split
  · exact .inl rfl
  rcases hRun : s.runPhases tFinal stop with ⟨s', events, e | _ | _⟩
  all_goals rw [hRun] at hPhases
  all_goals exact hPhases

/-- **A call of `advance` on a sensitivity solver spends at most the bounds of its two
continuations**: the forward continuation's from its current step, and the adjoint
continuation's from step `0`, which the adjoint phase starts again from. -/
theorem advance_spends (s : SensitivitySolver R) (tFinal : R)
    (stop : Phase → SolutionState R → R → Bool) : s.Spends (s.advance tFinal stop).1 := by
  refine ⟨?_, ?_⟩
  · rw [advance_forward]
    split
    · exact .inr (Continuation.advance_counts _ _ _ s.forward)
    · exact .inl rfl
  · rcases advance_adjoint s tFinal stop with
      hSame | ⟨dims, y0, started, ode, T, stop', hStart, hRun⟩
    · exact .inl hSame
    · -- the started continuation counts nothing yet, at step `0`, under the same settings
      obtain ⟨-, -, hStarted⟩ := Continuation.start_eq_ok hStart
      have hIndex := (Continuation.fresh_of_start hStart).1
      have hCounts := Continuation.advance_counts ode T stop' started
      rw [← hRun] at hCounts
      have hConfig : started.config = s.adjoint.config := by rw [hStarted]
      have hZero : started.calls = 0 ∧ started.attempts = 0 := by rw [hStarted]; exact ⟨rfl, rfl⟩
      have hBound := hCounts.attempts_le
      rw [hZero.2, hConfig, hIndex, Nat.zero_add] at hBound
      exact .inr ⟨by rw [hCounts.calls, hZero.1], hBound⟩

end SensitivitySolver

/-! ## §6 The budget of every call -/

/-- **Every call of `advance` ends within its step budget.**

Take a continuation that the calls can leave on a problem, a final time and a request to stop.
Each trip round the loop that goes on tried a step and counts one attempt; the trip that ends
the loop counts one exactly when it tried a step. A call of `advance` counts itself once and
makes at most `(N - i₀) · (K + 1)` attempts, `N` the step budget of its settings, `K` the
rejections in a row they allow and `i₀` the step it starts from. When the settings choose
backward Euler, each attempt of the call evaluates the residual and the iteration matrix at most
`maxIters` times each. A call of `advance` on any sensitivity solver leaves each of its two
continuations as it was, or spends on it one call and at most its bound: the forward one's from
its current step, the adjoint one's from step `0`. -/
theorem step_attempts_bounded {ode : ImplicitOde R ε} {c : Continuation R}
    (hc : Continuation.Reachable ode c) (tFinal : R) (stop : SolutionState R → R → Bool) :
    (∀ q q' : LoopPoint R, Continuation.Pass ode tFinal stop q q' →
      q.tries tFinal = true ∧ q'.cont.attempts = q.cont.attempts + 1) ∧
    (∀ (q : LoopPoint R) (o : Continuation.Outcome R ε), Continuation.Exit ode tFinal stop q o →
      o.1.attempts = q.cont.attempts + (q.tries tFinal).toNat) ∧
    c.CountsCall (c.advance ode tFinal stop).1 ∧
    (c.config.stepper = .backwardEuler → ∀ q, c.Visits ode tFinal stop q →
      ∀ current dt, ode.ReadsAtMost (fun ode => q.cont.stepper.takeStep ode current dt)
        c.config.newton.maxIters) ∧
    ∀ (s : SensitivitySolver R) (tFinal' : R) (stops : Phase → SolutionState R → R → Bool),
      s.Spends (s.advance tFinal' stops).1 :=
  ⟨fun _ _ h => ⟨h.attempts.1, h.attempts.2.1⟩, fun _ _ h => h.attempts.1,
    Continuation.advance_counts ode tFinal stop c,
    fun hKind _ hq => hc.takeStep_readsAtMost hKind hq,
    SensitivitySolver.advance_spends⟩

open SteadyAdjoint.Binary64 in
/-- The logistic continuation started from `x = 1` with a budget of three backward Euler steps
uses it in three attempts, within the bound of `3 · 11` that its settings give; each attempt
evaluates the problem at most `20` times of each kind. -/
theorem logistic_step_attempts_bounded :
    ∃ created c, Continuation.create (R := Double) { maxSteps := 3 } = .ok created ∧
      created.start (ε := ModelError) (1, 1) 0 (Matrix.column #[1]) none none = .ok c ∧
      let ode := (Logistic.toModel ⟨1, 2, 0⟩).forwardProblem false
      let ran := (c.advance ode 100 fun _ _ => false).1
      Continuation.Reachable ode c ∧ c.CountsCall ran ∧ ran.attempts = 3 ∧
        c.config.attemptBound c.index = 33 ∧
        ∀ q, c.Visits ode 100 (fun _ _ => false) q →
          ∀ current dt, ode.ReadsAtMost (fun ode => q.cont.stepper.takeStep ode current dt) 20 := by
  obtain ⟨created, c, hCreate, hStart, hCheck⟩ :=
    Continuation.exists_started_run (R := Double) { maxSteps := 3 } (1, 1) 0
      (Matrix.column #[1]) none none ((Logistic.toModel ⟨1, 2, 0⟩).forwardProblem false) 100
      (fun _ _ => false) 40
      (fun c o => decide (c.config.stepper = .backwardEuler ∧ c.config.newton.maxIters = 20 ∧
        c.config.attemptBound c.index = 33 ∧ o.1.attempts = 3))
      (by decide +kernel)
  simp only [decide_eq_true_eq] at hCheck
  obtain ⟨hStepper, hIters, hBound, hAttempts⟩ := hCheck
  have hCreated : Continuation.Reachable ((Logistic.toModel ⟨1, 2, 0⟩).forwardProblem false)
      created := .create hCreate
  have hReach : Continuation.Reachable ((Logistic.toModel ⟨1, 2, 0⟩).forwardProblem false) c :=
    .start hCreated hStart
  obtain ⟨-, -, hCounts, hNewton, -⟩ := step_attempts_bounded hReach 100 fun _ _ => false
  refine ⟨created, c, hCreate, hStart, hReach, hCounts, hAttempts, hBound,
    fun q hq current dt => ?_⟩
  rw [← hIters]
  exact hNewton hStepper q hq current dt

end Sensitivity

end SteadyAdjoint
