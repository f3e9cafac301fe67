import SteadyAdjoint.Proofs.AdjointBalance
import SteadyAdjoint.Proofs.AdjointCache
import SteadyAdjoint.Proofs.ExactMatrix
import SteadyAdjoint.Proofs.Trips
import SteadyAdjoint.Model.Poly

/-!
# What a complete run computes

A run of the sensitivity solver that completes has solved the adjoint equation and assembled
the sensitivity from its solution. In exact arithmetic, let `x` be the forward phase's current
state and `p` the model's nominal parameters; at their point, let `J*` and `E*` be the adjoint
operators of the solver's models, `(G, D)` the gradients of the response and `B = ∂f/∂p`. The
adjoint phase's current state `(y, y_dot)` then satisfies

  `E* · y_dot + J* · y = Gᵀ`   and   `|y_dot| ≤ AbsTol + RelTol · |y|`,

and the sensitivity is `D - yᵀ · B`. The adjoint phase stops at the first state that passes
its steady-state test, so `y_dot` is small but in general not zero. Where `J = (J*)ᵀ` has an
inverse, the sensitivity is therefore `D - G · J⁻¹ · B` only up to the term
`(E* · y_dot)ᵀ · J⁻¹ · B` that the test leaves over.

The facts are carried from call to call as an invariant of complete solvers, set up by the one
branch of `advance` that completes a run: the freeze at the forward state, the adjoint run that
passes at an accepted step (which balances the frozen equation, whatever its scheme), and the
assembly from that step's state. The last section follows one run through in exact arithmetic:
a relaxation whose adjoint phase is steady only within a loose tolerance, so that its
sensitivity misses `D - G · J⁻¹ · B`.

## Main statements

* `Reachable.equationAgrees`: the adjoint equation of every observable solver is the one of
  its models and options.
* `Continuation.advance_passed`: a call of `advance` that passes ends at an accepted step that
  is steady.
* `Reachable.completeAssembled`: every complete observable solver holds a frozen equation, an
  adjoint state that balances it and the sensitivity assembled from that state.
* `Operators.sensitivity_eq_inverse`: the sensitivity against `D - G · J⁻¹ · B`.
* `complete_run_solves_adjoint_equation`: what a call of `advance` that completes leaves.
* `Continuation.advance_forwardEuler_first`: a forward Euler call that is steady after its first
  step passes there.
* `sensitivity_misses_inverse_formula`: a complete run whose sensitivity is not
  `D - G · J⁻¹ · B`.
-/

namespace SteadyAdjoint

open Integrator

/-! ## §1 Accepted steps and assemblies -/

namespace Integrator.Continuation

variable {R : Type} [Scalar R] {ε : Type} {ode : ImplicitOde R ε} {tFinal : R}
  {stop : SolutionState R → R → Bool}

/-- The screen passes a step on unchanged, or rejects it. -/
theorem screen_eq_ok {c : Continuation R} {step step' : Step R}
    (h : c.screen (ε := ε) step = .ok step') : step' = step := by
  revert h
  unfold screen
  dsimp only
  split_ifs <;> intro h <;> cases h <;> rfl

/-- A step the screen lets through is the step attempted. -/
theorem bind_screen_eq_ok {c : Continuation R} {attempt : Except (StepError ε) (Step R)}
    {step : Step R} (h : attempt.bind c.screen = .ok step) : attempt = .ok step := by
  cases attempt with
  | error e => cases h
  | ok step' => rw [screen_eq_ok h]

/-- **A call of `advance` that passes ends at an accepted step**, taken from a point the call
visits and steady by the continuation's settings. -/
theorem advance_passed {c c' : Continuation R} {events : List (Event R)}
    (hWorking : c.status = .working) (h : c.advance ode tFinal stop = (c', events, .ok true)) :
    ∃ q step, c.Visits ode tFinal stop q ∧
      (q.cont.stepper.takeStep ode q.current (q.cont.stepSize tFinal q.current)).2 = .ok step ∧
      c.isSteady step.x step.xDot.norm = true ∧
      c'.history.current = some (q.current.next (q.cont.stepSize tFinal q.current) step) := by
  cases hCurrent : c.history.current with
  | none =>
    rw [advance_of_empty hCurrent] at h
    cases h
  | some current =>
    rw [advance_of_working hCurrent hWorking] at h
    have hPassed : (loop ode tFinal stop { c with calls := c.calls + 1 } current 0 []).2.2 =
        .ok true := by rw [h]
    obtain ⟨q, s, attempt, step, hq, hStep, hOk, hSteady, hHistory⟩ := loop_steady hPassed
    have hConfig : q.cont.config = c.config := passes_config hq
    refine ⟨q, step, ⟨current, hCurrent, hWorking, hq⟩, ?_, ?_, ?_⟩
    · rw [hStep]
      exact bind_screen_eq_ok hOk
    · simpa [isSteady, hConfig] using hSteady
    · rw [← hHistory, h]

/-- **A forward Euler call that is steady after its first step passes there.** With an identity
mass, the step of size `dt` from the first state `x` moves to `x - dt · F(t, x, 0)` and takes
the rate `-F` there. -/
theorem advance_forwardEuler_first {c : Continuation R} {current : SolutionState R} {dt : R}
    (hCurrent : c.history.current = some current) (hWorking : c.status = .working)
    (hKind : c.stepper.kind = .forwardEuler) (hPrevious : c.prevRate = none)
    (hIdentity : ode.massIsIdentity = true) (hIndex : current.index = 0)
    (hTime : ¬ tFinal ≤ current.time) (hBudget : c.config.maxSteps ≠ 0)
    (hDt : c.stepSize tFinal current = dt) {r₀ r₁ : Matrix R}
    (h₀ : ode.residual current.time current.x
      (Matrix.zeros current.x.rows current.x.cols) = .ok r₀)
    (h₁ : ode.residual (current.time + dt) (current.x + (-r₀).scale dt)
      (Matrix.zeros current.x.rows current.x.cols) = .ok r₁)
    (hFinite : (current.x + (-r₀).scale dt).allFinite = true ∧ (-r₁).allFinite = true)
    (hSteady : c.isSteady (current.x + (-r₀).scale dt) (-r₁).norm = true) :
    ∃ c' events, c.advance ode tFinal stop = (c', events, .ok true) ∧
      c'.history.current = some
        (current.next dt { x := current.x + (-r₀).scale dt, xDot := -r₁, newtonIters := 0 }) := by
  have hTake : c.stepper.takeStep ode current (c.stepSize tFinal current) =
      (c.stepper, .ok { x := current.x + (-r₀).scale dt, xDot := -r₁, newtonIters := 0 }) := by
    rw [hDt]
    exact Stepper.takeStep_forwardEuler hKind (Stepper.explicitStep_first hIdentity hIndex h₀ h₁)
      hFinite
  refine ⟨_, _, advance_of_steady_step hCurrent hWorking hTime (by rw [hIndex]; omega) hTake
    hPrevious hSteady, ?_⟩
  simp only [record, History.current_push, hDt]

end Integrator.Continuation

namespace Sensitivity

variable {R : Type} [Scalar R]

namespace AdjointEquation

variable {eq : AdjointEquation R} {fr : Frozen R}

/-- **An assembly from `y` that succeeds** is `∂g/∂p - yᵀ · ∂f/∂p`, with `∂f/∂p` evaluated at
the frozen point, for a `y` of the shape of `(∂g/∂x)ᵀ` and a `∂f/∂p` with one column per
parameter. -/
theorem sensitivity_eq_ok (hFrozen : eq.frozen = some fr) {y d : Matrix R}
    (h : eq.sensitivity y = .ok d) :
    ∃ B, eq.model.parameterJacobian eq.parameterIndex (pointAt fr.state fr.params) = .ok B ∧
      fr.operators.responseGradient.shape = y.shape ∧ B.cols = fr.operators.dgDp.cols ∧
      d = fr.operators.dgDp - y.transpose * B := by
  simp only [sensitivity, hFrozen, pure_bind] at h
  obtain ⟨_, hy, h⟩ := bind_eq_ok h
  obtain ⟨B, hB, h⟩ := bind_eq_ok h
  obtain ⟨_, hBs, h⟩ := bind_eq_ok h
  cases h
  exact ⟨B, mapError_eq_ok hB, checkShape_eq_ok hy,
    (Prod.mk.inj (checkShape_eq_ok hBs)).2.symm, rfl⟩

end AdjointEquation

/-! ## §2 The adjoint equation of a solver -/

namespace SensitivitySolver

/-- The adjoint equation of a solver's models and options, unfrozen. -/
def adjointEquation (s : SensitivitySolver R) : AdjointEquation R :=
  { model := s.model, adjointModel := s.adjointModel,
    parameterIndex := s.settings.options.parameterIndex,
    responseIndex := s.settings.options.responseIndex,
    massIdentity := s.settings.options.massIdentity }

/-- The adjoint equation of a solver is, frozen or not, the one of its models and options. -/
def EquationAgrees (s : SensitivitySolver R) : Prop := s.equation.thaw = s.adjointEquation

/-- An adjoint phase built from settings and models holds their equation, unfrozen. -/
theorem buildAdjoint_thaw {settings : Settings R} {model : ResidualModel R}
    {adjointModel : Option (AdjointModel R)} {equation : AdjointEquation R}
    {adjoint : Continuation R}
    (h : buildAdjoint settings model adjointModel = .ok (equation, adjoint)) :
    equation.thaw =
      { model, adjointModel, parameterIndex := settings.options.parameterIndex,
        responseIndex := settings.options.responseIndex,
        massIdentity := settings.options.massIdentity } := by
  rw [AdjointEquation.create_eq_ok (buildAdjoint_eq_ok h).1]
  rfl

variable {s : SensitivitySolver R}

theorem equationAgrees_of_create {settings : Settings R} {model : ResidualModel R}
    {adjointModel : Option (AdjointModel R)} (h : create settings model adjointModel = .ok s) :
    s.EquationAgrees := by
  obtain ⟨-, forward, equation, adjoint, -, hAdjoint, rfl⟩ := create_eq_ok h
  exact buildAdjoint_thaw hAdjoint

theorem EquationAgrees.start (h : s.EquationAgrees) (t0 : R) (x0 : Vec R)
    (xDot0 xDotDot0 : Option (Vec R)) : (s.start t0 x0 xDot0 xDotDot0).1.EquationAgrees := by
  rcases hStart : s.start t0 x0 xDot0 xDotDot0 with ⟨s', _ | ⟨⟩⟩
  · rcases start_eq_error hStart with rfl | ⟨forward, rfl, -⟩
    · exact h
    · exact h
  · obtain ⟨forward, equation, adjoint, -, hAdjoint, rfl⟩ := start_eq_ok hStart
    exact buildAdjoint_thaw hAdjoint

theorem EquationAgrees.setSettings {s' : SensitivitySolver R} {settings : Settings R}
    (h : s.setSettings settings = .ok s') : s'.EquationAgrees := by
  obtain ⟨-, forward, equation, adjoint, -, hAdjoint, rfl⟩ := setSettings_eq_ok h
  exact buildAdjoint_thaw hAdjoint

/-- Every branch of `advance` changes the adjoint equation at most by freezing or thawing it,
and keeps the models and the settings. -/
theorem EquationAgrees.advances {tFinal : R} {stop : Phase → SolutionState R → R → Bool}
    {o : Outcome R} (h : s.EquationAgrees) (hAdvances : Advances s tFinal stop o) :
    o.1.EquationAgrees := by
  cases hAdvances with
  | forwardError | forwardFailed => exact h
  | freezeFailed _ hFreeze =>
    obtain ⟨equation, rfl, rfl | rfl | ⟨_, _, _, _, rfl⟩⟩ := freezeAdjoint_error hFreeze <;>
      exact h
  | adjointError _ hFreeze _ | adjointFailed _ hFreeze _ | assemblyFailed _ hFreeze _ _ =>
    obtain ⟨_, _, _, _, _, _, rfl⟩ := freezeAdjoint_ok hFreeze
    exact h
  | complete _ hFreeze _ hAssemble =>
    obtain ⟨_, _, _, _, _, _, rfl⟩ := freezeAdjoint_ok hFreeze
    obtain ⟨_, _, -, -, rfl⟩ := assemble_eq_ok hAssemble
    exact h

theorem EquationAgrees.advance (h : s.EquationAgrees) (hSettled : s.Settled) (tFinal : R)
    (stop : Phase → SolutionState R → R → Bool) : (s.advance tFinal stop).1.EquationAgrees := by
  cases hStage : s.stage with
  | configured =>
    rw [advance_configured hStage]
    exact h
  | complete | failed _ =>
    rw [advance_terminal (by simp [hStage, Stage.isTerminal])]
    exact h
  | forwardDone | adjointDone => simp [Settled, hStage] at hSettled
  | forwardReady => exact h.advances (advance_forwardReady s tFinal stop hStage)

/-- Every call keeps the adjoint equation the one of the models and options. -/
theorem EquationAgrees.call (h : s.EquationAgrees) (hSettled : s.Settled) (c : Call R) :
    (s.call c).1.EquationAgrees :=
  call_preserves (fun s => s.EquationAgrees) h h.start (h.advance hSettled)
    (fun hSet => EquationAgrees.setSettings hSet) c

end SensitivitySolver

open SensitivitySolver in
/-- **The adjoint equation of every observable solver is the one of its models and
options**, frozen or not. -/
theorem Reachable.equationAgrees {s : SensitivitySolver R} (h : Reachable s) :
    s.EquationAgrees := by
  induction h with
  | create h => exact equationAgrees_of_create h
  | call h c _ ih => exact ih.call h.invariant.settled c

/-! ## §3 The adjoint run in exact arithmetic -/

/-- **An adjoint run that passes ends at a state that balances the frozen equation**, and
that passes the steady-state test of the continuation's settings: the run ends at an accepted
step, and every accepted step balances the equation, whatever its scheme, as the kept
factorisation changes no step. -/
theorem advance_passed_balanced {eq : AdjointEquation ℝ} {fr : Frozen ℝ} {n m : ℕ}
    (hFrozen : eq.frozen = some fr) (hw : fr.operators.WellFormed eq.massIdentity n m)
    {c c' : Continuation ℝ} (hc : Continuation.Reachable eq.toOde c)
    (hWorking : c.status = .working) {tFinal : ℝ} {stop : SolutionState ℝ → ℝ → Bool}
    {events : List (Event ℝ)} (h : c.advance eq.toOde tFinal stop = (c', events, .ok true)) :
    ∃ y, c'.history.current = some y ∧ fr.operators.Balanced n y.x y.xDot ∧
      y.xDot.norm ≤ c.config.steadyState.absTol + c.config.steadyState.relTol * y.x.norm := by
  obtain ⟨q, step, hq, hStep, hSteady, hCurrent⟩ := Continuation.advance_passed hWorking h
  rw [hc.takeStep_reset stepLaws_real eq.toOde_jacobianByStep hq] at hStep
  exact ⟨_, hCurrent, takeStep_balanced hFrozen hw hStep, of_decide_eq_true hSteady⟩

namespace SensitivitySolver

/-- What a complete run holds in exact arithmetic: the adjoint equation frozen at the forward
phase's current state `x` and the model's nominal parameters, an adjoint state `y` that balances
the frozen equation and passes the adjoint steady-state test, and the sensitivity assembled
from `y`. -/
structure Assembled (s : SensitivitySolver ℝ) (x y : SolutionState ℝ) (fr : Frozen ℝ) : Prop where
  /-- `x` is the forward phase's current state. -/
  forward : s.forward.history.current = some x
  /-- The equation is frozen at `x`, with the coefficients of a freeze there. -/
  freeze : s.equation.freezeAt x s.model.nominalParameters = .ok fr
  frozen : s.equation.frozen = some fr
  /-- `y` is the adjoint phase's current state. -/
  adjoint : s.adjoint.history.current = some y
  balanced : fr.operators.Balanced s.equation.model.stateDim y.x y.xDot
  steady : y.xDot.norm ≤
    s.settings.adjoint.steadyState.absTol + s.settings.adjoint.steadyState.relTol * y.x.norm
  /-- The sensitivity is the one assembled from `y`. -/
  assembled : ∃ d, s.equation.sensitivity y.x = .ok d ∧ s.dgdp = some d

/-- Every complete solver holds a frozen equation and an adjoint state as `Assembled` says. -/
def CompleteAssembled (s : SensitivitySolver ℝ) : Prop :=
  s.stage = .complete → ∃ x y fr, s.Assembled x y fr

variable {s : SensitivitySolver ℝ}

/-- **The branch of `advance` that completes a run assembles it**: the freeze at the forward
run's last state, the adjoint run started from it that passes, and the assembly from the
adjoint run's last state. -/
theorem Advances.completeAssembled {tFinal : ℝ} {stop : Phase → SolutionState ℝ → ℝ → Bool}
    {o : Outcome ℝ} (hSteps : s.AdjointSteps) (hReady : s.stage = .forwardReady)
    (h : Advances s tFinal stop o) : o.1.CompleteAssembled := by
  cases h with
  | forwardError | forwardFailed | freezeFailed | adjointError | adjointFailed | assemblyFailed =>
    intro hStage
    simp [fail] at hStage
  | @complete forward events frozen adjoint more assembled _ hFreeze hAdjoint hAssemble =>
    intro _
    obtain ⟨x, fr, started, hForward, hFrozen, hStart, rfl⟩ := freezeAdjoint_ok hFreeze
    obtain ⟨y, d, hy, hSensitivity, rfl⟩ := assemble_eq_ok hAssemble
    obtain ⟨-, -, -, -, -, hw, -⟩ := AdjointEquation.freezeAt_eq_ok hFrozen
    -- the adjoint run starts from the continuation created from the adjoint settings
    obtain ⟨-, -, hStarted⟩ := Continuation.start_eq_ok hStart
    have hConfig : started.config = s.settings.adjoint := by
      rw [hStarted, (Continuation.create_eq_ok (hSteps.fresh hReady)).2]
    have hRun : started.advance ({ s.equation with frozen := some fr } : AdjointEquation ℝ).toOde
        s.settings.adjoint.finalTime (stop .adjoint) = (adjoint, more, .ok true) := hAdjoint
    obtain ⟨y', hy', hBalanced, hSteady⟩ := advance_passed_balanced
      (show ({ s.equation with frozen := some fr } : AdjointEquation ℝ).frozen = some fr from rfl)
      hw (.start hSteps.reachable hStart) (by rw [hStarted]) hRun
    have hSame : y' = y := Option.some.inj (hy'.symm.trans hy)
    rw [hSame] at hBalanced hSteady
    exact ⟨x, y, fr, hForward, hFrozen, rfl, hy, hBalanced, hConfig ▸ hSteady,
      d, hSensitivity, rfl⟩

theorem CompleteAssembled.start (h : s.CompleteAssembled) (hInv : s.Invariant) (t0 : ℝ)
    (x0 : Vec ℝ) (xDot0 xDotDot0 : Option (Vec ℝ)) :
    (s.start t0 x0 xDot0 xDotDot0).1.CompleteAssembled := by
  rcases hStart : s.start t0 x0 xDot0 xDotDot0 with ⟨s', _ | ⟨⟩⟩
  · rcases start_eq_error hStart with rfl | ⟨forward, -, e, hBuild⟩
    · exact h
    · -- the adjoint phase is rebuilt from settings and models that built it before
      obtain ⟨p, hp⟩ := hInv.rebuilds
      rw [hp] at hBuild
      cases hBuild
  · obtain ⟨forward, equation, adjoint, -, -, rfl⟩ := start_eq_ok hStart
    intro hStage
    cases hStage

/-- A change of the settings leaves a configured solver, which is not complete. -/
theorem completeAssembled_of_setSettings {s' : SensitivitySolver ℝ} {settings : Settings ℝ}
    (h : s.setSettings settings = .ok s') : s'.CompleteAssembled := by
  obtain ⟨-, -, -, -, -, -, rfl⟩ := setSettings_eq_ok h
  intro hStage
  cases hStage

theorem CompleteAssembled.advance (h : s.CompleteAssembled) (hSettled : s.Settled)
    (hSteps : s.AdjointSteps) (tFinal : ℝ) (stop : Phase → SolutionState ℝ → ℝ → Bool) :
    (s.advance tFinal stop).1.CompleteAssembled := by
  cases hStage : s.stage with
  | configured =>
    rw [advance_configured hStage]
    exact h
  | complete | failed _ =>
    rw [advance_terminal (by simp [hStage, Stage.isTerminal])]
    exact h
  | forwardDone | adjointDone => simp [Settled, hStage] at hSettled
  | forwardReady =>
    exact Advances.completeAssembled hSteps hStage (advance_forwardReady s tFinal stop hStage)

/-- Every call keeps complete solvers assembled. -/
theorem CompleteAssembled.call (h : s.CompleteAssembled) (hInv : s.Invariant)
    (hSteps : s.AdjointSteps) (c : Call ℝ) : (s.call c).1.CompleteAssembled :=
  call_preserves (fun s => s.CompleteAssembled) h (h.start hInv)
    (h.advance hInv.settled hSteps) (fun hSet => completeAssembled_of_setSettings hSet) c

end SensitivitySolver

open SensitivitySolver in
/-- **Every complete observable solver is assembled**: its equation is frozen at the forward
phase's current state, its adjoint phase's current state balances the frozen equation and
passes the adjoint steady-state test, and its sensitivity is assembled from that state. -/
theorem Reachable.completeAssembled {s : SensitivitySolver ℝ} (h : Reachable s) :
    s.CompleteAssembled := by
  induction h with
  | create h =>
    obtain ⟨-, -, -, -, -, -, rfl⟩ := create_eq_ok h
    intro hStage
    cases hStage
  | call h c _ ih => exact ih.call h.invariant h.adjointSteps c

/-- A call of `advance` that completes a run leaves an observable solver, complete. -/
theorem Reachable.complete_of_advance {s : SensitivitySolver R} (hs : Reachable s) {tFinal : R}
    {stop : Phase → SolutionState R → R → Bool} (hPassed : (s.advance tFinal stop).2.2 = .ok true) :
    Reachable (s.advance tFinal stop).1 ∧ (s.advance tFinal stop).1.stage = .complete := by
  have hSettled := hs.invariant.settled
  have hSound : (s.call (.advance tFinal stop)).breaks = false := by
    rcases hAdvance : s.advance tFinal stop with ⟨s', events, r⟩
    rw [hAdvance] at hPassed
    cases hPassed
    simp [SensitivitySolver.call, CallOutcome.breaks, hAdvance, Except.map]
  refine ⟨hs.call (.advance tFinal stop) hSound, ?_⟩
  rcases hAdvance : s.advance tFinal stop with ⟨s', events, r⟩
  rw [hAdvance] at hPassed
  cases hPassed
  -- only a run already complete, or the branch of `advance` that completes one, passes
  cases hStage : s.stage with
  | configured => simp [SensitivitySolver.advance_configured hStage] at hAdvance
  | complete =>
    rw [SensitivitySolver.advance_terminal (by simp [hStage, Stage.isTerminal])] at hAdvance
    obtain ⟨rfl, -⟩ := Prod.mk.inj hAdvance
    exact hStage
  | failed p =>
    simp [SensitivitySolver.advance_terminal (s := s) (by simp [hStage, Stage.isTerminal]),
      hStage] at hAdvance
  | forwardDone | adjointDone => simp [SensitivitySolver.Settled, hStage] at hSettled
  | forwardReady =>
    have h := SensitivitySolver.advance_forwardReady s tFinal stop hStage
    rw [hAdvance] at h
    cases h
    rfl

namespace Operators

/-- **The sensitivity against the closed form `D - G · J⁻¹ · B`.** At an adjoint state that
balances the equation, `D - yᵀ · B` is `D - G · J⁻¹ · B` plus the term
`(E* · y_dot)ᵀ · J⁻¹ · B` of the rate left at the state, for every right inverse `J⁻¹` of
`J = (J*)ᵀ`; here `G` is `((∂g/∂x)ᵀ)ᵀ`. The term vanishes only where the rate does. -/
theorem sensitivity_eq_inverse {ops : Operators ℝ} {identity : Bool} {n m : ℕ}
    (hw : ops.WellFormed identity n m) {y yDot B Jinv : Matrix ℝ}
    (hBalanced : ops.Balanced n y yDot) (hy : y.shape = (n, m))
    (hD : ops.dgDp.shape = (m, B.cols))
    (hInv : ops.jacobian.transpose * Jinv = Matrix.identity n) :
    ops.dgDp - y.transpose * B =
      ops.dgDp - ops.responseGradient.transpose * Jinv * B +
        (ops.massMatrix n * yDot).transpose * Jinv * B := by
  have hSum : ops.massMatrix n * yDot + ops.jacobian * y = ops.responseGradient := hBalanced
  obtain ⟨-, hJc⟩ := Prod.mk.inj hw.jacobian
  obtain ⟨hGr, hGc⟩ := Prod.mk.inj hw.gradient
  obtain ⟨hyr, -⟩ := Prod.mk.inj hy
  -- the rate's term has the shape of the right-hand side, as the balance adds them
  have hZ : (ops.massMatrix n * yDot).shape = (n, m) := by
    rw [← hw.gradient, ← hSum, Matrix.shape_add]
  obtain ⟨hZr, hZc⟩ := Prod.mk.inj hZ
  -- `J* · y = Gᵀ - E* · y_dot`
  have hJy : ops.jacobian * y = ops.responseGradient - ops.massMatrix n * yDot :=
    Matrix.eq_sub_of_add_eq_real hSum (by
      rw [hZ, Matrix.shape_mul, (Prod.mk.inj hw.jacobian).1, (Prod.mk.inj hy).2])
  -- `yᵀ = (J* · y)ᵀ · J⁻¹`, as `J · J⁻¹` is the identity
  have hyT : y.transpose = (ops.jacobian * y).transpose * Jinv :=
    Matrix.transpose_eq_of_right_inverse (hJc.trans hyr.symm) (by rw [hyr]; exact hInv)
  have hGZ : ops.responseGradient.shape = (ops.massMatrix n * yDot).shape :=
    hw.gradient.trans hZ.symm
  have hGZt : ops.responseGradient.transpose.shape = (ops.massMatrix n * yDot).transpose.shape := by
    simp only [Matrix.shape_transpose, hGr, hGc, hZr, hZc]
  have hGZj : (ops.responseGradient.transpose * Jinv).shape =
      ((ops.massMatrix n * yDot).transpose * Jinv).shape := by
    simp only [Matrix.shape_mul, Matrix.rows_transpose, hGc, hZc]
  have hP : (ops.responseGradient.transpose * Jinv * B).shape = ops.dgDp.shape := by
    simp only [Matrix.shape_mul, Matrix.rows_mul, Matrix.rows_transpose, hGc, hD]
  have hQ : ((ops.massMatrix n * yDot).transpose * Jinv * B).shape =
      (ops.responseGradient.transpose * Jinv * B).shape := by
    simp only [Matrix.shape_mul, Matrix.rows_mul, Matrix.rows_transpose, hGc, hZc]
  rw [hyT, hJy, Matrix.transpose_sub_real _ _ hGZ,
    Matrix.sub_mul_real ops.responseGradient.transpose (ops.massMatrix n * yDot).transpose Jinv
      hGZt,
    Matrix.sub_mul_real (ops.responseGradient.transpose * Jinv)
      ((ops.massMatrix n * yDot).transpose * Jinv) B hGZj,
    Matrix.sub_sub_real _ _ _ hP hQ]

end Operators

/-! ## §4 What a completed run leaves -/

/-- **A call of `advance` that completes a run leaves the solution of the adjoint equation and
the sensitivity assembled from it**, in exact arithmetic. Let `x` be the forward phase's
current state and `p` the model's nominal parameters; at their point `P`, let `J*` and `E*` be
the adjoint operators of the solver's models at `(α, β) = (0, 1)` and `(1, 0)` (`E*` the
identity when the mass matrix is declared one), `(G, D)` the gradients of the configured
response for the configured parameter block, and `B = ∂f/∂p` for that block; let `(y, y_dot)`
be the adjoint phase's current state. Then `E* · y_dot + J* · y = Gᵀ` exactly,
`|y_dot| ≤ AbsTol + RelTol · |y|` for the adjoint steady-state tolerances, and the
sensitivity is `D - yᵀ · B`. For every right inverse `J⁻¹` of `J = (J*)ᵀ` the sensitivity is
`D - G · J⁻¹ · B + (E* · y_dot)ᵀ · J⁻¹ · B`: the closed form `D - G · J⁻¹ · B` is missed by the
term of the rate the steady-state test leaves over. -/
theorem complete_run_solves_adjoint_equation {s : SensitivitySolver ℝ} (hs : Reachable s)
    {tFinal : ℝ} {stop : Phase → SolutionState ℝ → ℝ → Bool}
    (hPassed : (s.advance tFinal stop).2.2 = .ok true) :
    let s' := (s.advance tFinal stop).1
    let P := fun x : SolutionState ℝ => AdjointEquation.pointAt x s'.model.nominalParameters
    ∃ (x y : SolutionState ℝ) (Jstar Estar B : Matrix ℝ) (gradient : ResponseGradient ℝ),
      s'.stage = .complete ∧
      s'.forward.history.current = some x ∧ s'.adjoint.history.current = some y ∧
      s'.adjointEquation.adjointOperator (P x) 0 1 = .ok Jstar ∧
      s'.adjointEquation.massOperator (P x) = .ok Estar ∧
      s'.model.responseGradient s'.settings.options.responseIndex
        s'.settings.options.parameterIndex (P x) = .ok gradient ∧
      s'.model.parameterJacobian s'.settings.options.parameterIndex (P x) = .ok B ∧
      Estar * y.xDot + Jstar * y.x = gradient.dgDx.transpose ∧
      y.xDot.norm ≤ s'.settings.adjoint.steadyState.absTol +
        s'.settings.adjoint.steadyState.relTol * y.x.norm ∧
      s'.dgdp = some (gradient.dgDp - y.x.transpose * B) ∧
      ∀ Jinv : Matrix ℝ, Jstar.transpose * Jinv = Matrix.identity s'.model.stateDim →
        s'.dgdp = some (gradient.dgDp - gradient.dgDx * Jinv * B +
          (Estar * y.xDot).transpose * Jinv * B) := by
  intro s' P
  have hDone : Reachable s' ∧ s'.stage = .complete := hs.complete_of_advance hPassed
  obtain ⟨hReach, hComplete⟩ := hDone
  obtain ⟨x, y, fr, hA⟩ := hReach.completeAssembled hComplete
  obtain ⟨hState, hParams, hJ, hE, ⟨gradient, hG, hGT, hD⟩, hw, hRows⟩ :=
    AdjointEquation.freezeAt_eq_ok hA.freeze
  obtain ⟨d, hSensitivity, hDgdp⟩ := hA.assembled
  obtain ⟨B, hB, hyShape, hBcols, rfl⟩ := AdjointEquation.sensitivity_eq_ok hA.frozen hSensitivity
  -- the frozen equation reads the solver's models and options
  have hAgrees : s'.equation.thaw = s'.adjointEquation := hReach.equationAgrees
  have hModel : s'.equation.model = s'.model := congrArg AdjointEquation.model hAgrees
  have hK : s'.equation.parameterIndex = s'.settings.options.parameterIndex :=
    congrArg AdjointEquation.parameterIndex hAgrees
  have hR : s'.equation.responseIndex = s'.settings.options.responseIndex :=
    congrArg AdjointEquation.responseIndex hAgrees
  have hBalanced := hA.balanced
  rw [hModel] at hw hE hBalanced
  rw [hState, hParams, hModel, hK] at hB
  rw [hModel, hK, hR] at hG
  rw [hD] at hDgdp
  refine ⟨x, y, fr.operators.jacobian, fr.operators.massMatrix s'.model.stateDim, B, gradient,
    hComplete, hA.forward, hA.adjoint, ?_, ?_, hG, hB, ?_, hA.steady, hDgdp, ?_⟩
  · -- the operator at the numerals of the solver's scalars
    simp only [Scalar.numeral_real, Nat.cast_zero, Nat.cast_one] at hJ
    rw [← hAgrees]
    exact hJ
  · rw [← hAgrees]
    exact hE
  · rw [← hGT]
    exact hBalanced
  · intro Jinv hInv
    have hy : y.x.shape = (s'.model.stateDim, s'.model.responseDim s'.equation.responseIndex) :=
      hyShape.symm.trans hw.gradient
    have hDShape : fr.operators.dgDp.shape = (s'.model.responseDim s'.equation.responseIndex,
        B.cols) := by
      rw [Matrix.shape, hRows, hModel, hBcols]
    rw [hDgdp, ← hD, Operators.sensitivity_eq_inverse hw hBalanced hy hDShape hInv, hGT,
      Matrix.transpose_transpose]


/-! ## §5 A run steady only within its tolerance

The relaxation `x_dot + x - p = 0` at `p = 0`, observed through `g = x`, has `J = 1`,
`B = ∂f/∂p = -1` and `D = ∂g/∂p = 0`, so `D - G · J⁻¹ · B = 1`. Forward Euler takes steps of
`0.01` in both phases. The forward phase stays at `x = 0` and is steady at its first step. The
adjoint phase moves from `y = 0` to `y = 0.01`, where its rate `0.99` passes a tolerance of
`1`. So the run completes with the sensitivity `0.01`. -/

/-- Relaxation towards the parameter, `x_dot + x - p = 0` at `p = 0`, observed through
`g = x`. -/
noncomputable def relaxationPoly : Poly ℝ where
  a := Matrix.ofFn 1 1 fun _ _ => 1
  m := Matrix.ofFn 1 1 fun _ _ => 1
  c2 := #[0]
  c3 := #[0]
  params := #[#[0]]
  b := #[Matrix.ofFn 1 1 fun _ _ => 1]
  responses := #[⟨Matrix.ofFn 1 1 fun _ _ => 1, #[0], #[Matrix.zeros 1 1]⟩]

/-- Forward Euler in both phases, the adjoint phase steady once `|y_dot| ≤ 1`, and the mass
matrix declared the identity. -/
noncomputable def looseAdjointSettings : Settings ℝ where
  forward := { stepper := .forwardEuler }
  adjoint := { stepper := .forwardEuler, steadyState := { absTol := 1 } }
  options := { massIdentity := true }

@[simp] theorem relaxation_stateDim : relaxationPoly.toModel.stateDim = 1 := rfl

@[simp] theorem relaxation_responseDim : relaxationPoly.toModel.responseDim 0 = 1 := rfl

/-- The forward problem: `F(t, x, x_dot) = x_dot + x`. -/
theorem relaxation_residual (t x v : ℝ) :
    (relaxationPoly.toModel.forwardProblem true).residual t (Matrix.ofFn 1 1 fun _ _ => x)
      (Matrix.ofFn 1 1 fun _ _ => v) = .ok (Matrix.ofFn 1 1 fun _ _ => v + x) := by
  simp [ResidualModel.forwardProblem, ResidualModel.atFirstColumns, ResidualModel.pointOf,
    Poly.toModel, Poly.residual, relaxationPoly, Poly.paramsMatch, ModelError.within,
    Poly.residualValue, Poly.subtractSources, Vec.mulMatrix, Poly.entry, Array.ofFn_succ,
    Except.map, Matrix.column_singleton]

section Gradients

variable {st : SolutionState ℝ} {a : ℝ} (hx : st.x = Matrix.ofFn 1 1 fun _ _ => a)
  (ps : Array (Vec ℝ))
include hx

/-- `α · ∂f/∂x_dot + β · ∂f/∂x = α + β` at every state. -/
theorem relaxation_jacobian (α β : ℝ) :
    relaxationPoly.toModel.jacobian (AdjointEquation.pointAt st ps) α β =
      .ok (Matrix.ofFn 1 1 fun _ _ => α + β) := by
  simp only [AdjointEquation.pointAt, hx, Matrix.col_ofFn_one_one, Poly.toModel, Poly.jacobian,
    Poly.stateJacobian, relaxationPoly, ModelError.within, Poly.entry]
  simp [-Scalar.numeral_real]

/-- `∂g/∂x = 1` and `∂g/∂p = 0` at every state. -/
theorem relaxation_responseGradient :
    relaxationPoly.toModel.responseGradient 0 0 (AdjointEquation.pointAt st ps) =
      .ok { dgDx := Matrix.ofFn 1 1 fun _ _ => 1, dgDp := Matrix.ofFn 1 1 fun _ _ => 0 } := by
  simp only [AdjointEquation.pointAt, hx, Matrix.col_ofFn_one_one, Poly.toModel,
    Poly.responseGradient, relaxationPoly, ModelError.within, Poly.entry, Matrix.zeros_one_one,
    Scalar.numeral_real, Nat.cast_zero]
  simp [-Scalar.numeral_real, Except.bind]

end Gradients

/-- `∂f/∂p = -1` at every point. -/
theorem relaxation_parameterJacobian (p : Point ℝ) :
    relaxationPoly.toModel.parameterJacobian 0 p = .ok (Matrix.ofFn 1 1 fun _ _ => -1) := by
  simp [Poly.toModel, Poly.parameterJacobian, relaxationPoly]

/-- In exact arithmetic the default step control and Newton settings are valid: a
configuration with them, a step budget, no storage limit and non-negative steady-state
tolerances passes its validation. -/
theorem validate_of_defaults_real {config : Config ℝ} (hControl : config.timeStepControl = {})
    (hNewton : config.newton = {}) (hSteps : config.maxSteps ≠ 0)
    (hStorage : config.storageLimit = none) (hAbs : 0 ≤ config.steadyState.absTol)
    (hRel : 0 ≤ config.steadyState.relTol) : config.validate = .ok () := by
  simp only [Config.validate, StepControl.validate, hControl, hNewton, hStorage, isTolerance,
    Scalar.isNaN_real, Scalar.isFinite_real, Scalar.numeral_real]
  norm_num [-Scalar.numeral_real, hSteps, hAbs, hRel, bind, Except.bind, pure, Except.pure]

theorem looseForward_validate : looseAdjointSettings.forward.validate = .ok () :=
  validate_of_defaults_real rfl rfl (by decide) rfl (show (0 : ℝ) ≤ 1.0e-10 by norm_num)
    (show (0 : ℝ) ≤ 1.0e-12 by norm_num)

theorem looseAdjoint_validate : looseAdjointSettings.adjoint.validate = .ok () :=
  validate_of_defaults_real rfl rfl (by decide) rfl (show (0 : ℝ) ≤ 1 by norm_num)
    (show (0 : ℝ) ≤ 1.0e-12 by norm_num)

/-- The relaxation solver as built: both phases created from the settings, nothing frozen. -/
noncomputable def relaxationSolver : SensitivitySolver ℝ :=
  { model := relaxationPoly.toModel, adjointModel := none, settings := looseAdjointSettings,
    forward :=
      { config := looseAdjointSettings.forward,
        stepper := { kind := .forwardEuler, newton := {} }, history := { limit := none },
        dt := 1.0e-2 },
    adjoint :=
      { config := looseAdjointSettings.adjoint,
        stepper := { kind := .forwardEuler, newton := {} }, history := { limit := none },
        dt := 1.0e-2 },
    equation :=
      { model := relaxationPoly.toModel, adjointModel := none, parameterIndex := 0,
        responseIndex := 0, massIdentity := true } }

theorem relaxation_buildAdjoint :
    SensitivitySolver.buildAdjoint looseAdjointSettings relaxationPoly.toModel none =
      .ok (relaxationSolver.equation, relaxationSolver.adjoint) := by
  simp only [SensitivitySolver.buildAdjoint, Continuation.create, AdjointEquation.create, bind,
    Except.bind, Except.mapError, looseAdjoint_validate]
  rfl

theorem relaxation_create :
    SensitivitySolver.create looseAdjointSettings relaxationPoly.toModel none =
      .ok relaxationSolver := by
  have hValid : looseAdjointSettings.validate = .ok () := by
    simp only [Settings.validate, looseForward_validate, looseAdjoint_validate, bind, Except.bind,
      Except.mapError]
    rfl
  simp only [SensitivitySolver.create, hValid, SensitivitySolver.buildForward,
    Continuation.create, looseForward_validate, relaxation_buildAdjoint, bind, Except.bind,
    Except.mapError]
  rfl

/-- The state both phases of the relaxation run start from. -/
noncomputable def relaxationStart : SolutionState ℝ :=
  { time := 0, index := 0, dt := 0, x := Matrix.ofFn 1 1 fun _ _ => 0,
    xDot := Matrix.ofFn 1 1 fun _ _ => 0, xDotDot := none }

/-- The steady state the forward phase reaches. -/
noncomputable def relaxationSteady : SolutionState ℝ :=
  { time := 1.0e-2, index := 1, dt := 1.0e-2, x := Matrix.ofFn 1 1 fun _ _ => 0,
    xDot := Matrix.ofFn 1 1 fun _ _ => 0, xDotDot := none }

/-- The steady state the adjoint phase reaches: `y = 0.01` at the rate `0.99`. -/
noncomputable def relaxationAdjointSteady : SolutionState ℝ :=
  { time := 1.0e-2, index := 1, dt := 1.0e-2, x := Matrix.ofFn 1 1 fun _ _ => 0.01,
    xDot := Matrix.ofFn 1 1 fun _ _ => 0.99, xDotDot := none }

theorem relaxation_start : relaxationSolver.start 0 #[0] none none =
    ({ relaxationSolver with
        forward := { relaxationSolver.forward with
                     history := relaxationSolver.forward.history.push relaxationStart },
        stage := .forwardReady }, .ok ()) := by
  simp only [SensitivitySolver.start, Continuation.start, Continuation.checkShape, bind,
    Except.bind, pure, Except.pure, Matrix.column_singleton, Matrix.shape_ofFn]
  -- the solvers' numeral `0` is the real `0`
  simp only [relaxationSolver, relaxation_stateDim, if_true, relaxation_buildAdjoint,
    Option.map_none, Option.getD_none, Matrix.zeros_one_one, Scalar.numeral_real, Nat.cast_zero]
  rfl

theorem relaxation_stepSize {c : Continuation ℝ} (hDt : c.dt = 1.0e-2) :
    c.stepSize 1.0e12 relaxationStart = 1.0e-2 := by
  simp only [Continuation.stepSize, fmin, Scalar.isNaN_real, hDt, relaxationStart]
  norm_num

/-- The forward phase: from `x = 0` the first step stays at `x = 0`, at rate zero. -/
theorem relaxation_forward_advance {c : Continuation ℝ}
    (hCurrent : c.history.current = some relaxationStart) (hWorking : c.status = .working)
    (hConfig : c.config = looseAdjointSettings.forward) (hDt : c.dt = 1.0e-2)
    (hPrevious : c.prevRate = none) (hKind : c.stepper.kind = .forwardEuler) :
    ∃ c' events, c.advance (relaxationPoly.toModel.forwardProblem true) 1.0e12
        (fun _ _ => false) = (c', events, .ok true) ∧
      c'.history.current = some relaxationSteady := by
  -- `F = x_dot + x` vanishes at `x = 0`, before the step and after it
  have hStay : relaxationStart.x + (-(Matrix.ofFn 1 1 fun _ _ => (0 : ℝ))).scale 1.0e-2 =
      Matrix.ofFn 1 1 fun _ _ => 0 := by
    simp [relaxationStart]
  have h₀ : (relaxationPoly.toModel.forwardProblem true).residual relaxationStart.time
      relaxationStart.x (Matrix.zeros relaxationStart.x.rows relaxationStart.x.cols) =
      .ok (Matrix.ofFn 1 1 fun _ _ => 0) := by
    simpa [relaxationStart] using relaxation_residual 0 0 0
  have h₁ : (relaxationPoly.toModel.forwardProblem true).residual (relaxationStart.time + 1.0e-2)
      (relaxationStart.x + (-(Matrix.ofFn 1 1 fun _ _ => (0 : ℝ))).scale 1.0e-2)
      (Matrix.zeros relaxationStart.x.rows relaxationStart.x.cols) =
      .ok (Matrix.ofFn 1 1 fun _ _ => 0) := by
    rw [hStay]
    simpa [relaxationStart] using relaxation_residual (0 + 1.0e-2) 0 0
  have hSteady : c.isSteady
      (relaxationStart.x + (-(Matrix.ofFn 1 1 fun _ _ => (0 : ℝ))).scale 1.0e-2)
      (-(Matrix.ofFn 1 1 fun _ _ => (0 : ℝ))).norm = true := by
    have hTol : c.config.steadyState = {} := by rw [hConfig]; rfl
    rw [hStay]
    simp [Continuation.isSteady, hTol]
    norm_num
  obtain ⟨c', events, hAdvance, hHistory⟩ := Continuation.advance_forwardEuler_first hCurrent
    hWorking hKind hPrevious rfl rfl (by norm_num [relaxationStart]) (by rw [hConfig]; decide)
    (relaxation_stepSize hDt) h₀ h₁ ⟨Matrix.allFinite_real _, Matrix.allFinite_real _⟩ hSteady
  refine ⟨c', events, hAdvance, ?_⟩
  rw [hHistory, hStay]
  simp [SolutionState.next, relaxationStart, relaxationSteady]

/-- The coefficients of the relaxation's adjoint equation, the same at every state. -/
noncomputable def relaxationOperators : Operators ℝ :=
  { jacobian := Matrix.ofFn 1 1 fun _ _ => 1, mass := none,
    responseGradient := Matrix.ofFn 1 1 fun _ _ => 1, dgDp := Matrix.ofFn 1 1 fun _ _ => 0 }

/-- The adjoint equation frozen at the forward steady state. -/
noncomputable def relaxationFrozen : Frozen ℝ :=
  ⟨relaxationSteady, relaxationPoly.params, relaxationOperators⟩

theorem relaxation_freezeAt {st : SolutionState ℝ} {a v : ℝ}
    (hx : st.x = Matrix.ofFn 1 1 fun _ _ => a) (hv : st.xDot = Matrix.ofFn 1 1 fun _ _ => v) :
    relaxationSolver.equation.freezeAt st relaxationPoly.params =
      .ok ⟨st, relaxationPoly.params, relaxationOperators⟩ := by
  simp only [AdjointEquation.freezeAt, AdjointEquation.checkShape,
    AdjointEquation.adjointOperator, relaxationSolver, relaxation_jacobian hx,
    relaxation_responseGradient hx, hx, hv, Matrix.shape_ofFn, Matrix.cols_ofFn,
    relaxation_stateDim, relaxation_responseDim, bind, Except.bind, pure, Except.pure,
    Except.map, Except.mapError, Scalar.numeral_real, Nat.cast_zero, Nat.cast_one]
  simp [-Scalar.numeral_real, relaxationOperators, Matrix.shape, Poly.toModel, relaxationPoly]

theorem relaxation_freeze {forward : Continuation ℝ}
    (hSteady : forward.history.current = some relaxationSteady) :
    ({ relaxationSolver with forward, stage := .forwardDone } : SensitivitySolver ℝ).freezeAdjoint =
      ({ relaxationSolver with
          forward, stage := .forwardDone,
          equation := { relaxationSolver.equation with frozen := some relaxationFrozen },
          adjoint := { relaxationSolver.adjoint with
                       history := relaxationSolver.adjoint.history.push relaxationStart } },
        .ok ()) := by
  rw [SensitivitySolver.freezeAdjoint_of_freezeAt
    (s := { relaxationSolver with forward, stage := .forwardDone }) hSteady
    (relaxation_freezeAt rfl rfl) rfl]
  -- the adjoint phase starts at the solvers' numeral `0`, the real `0`
  simp only [relaxationSolver, relaxation_stateDim, relaxation_responseDim, Matrix.zeros_one_one,
    Scalar.numeral_real, Nat.cast_zero]
  rfl

/-- The frozen adjoint problem: `y_dot + y - 1`. -/
theorem relaxation_adjoint_residual {eq : AdjointEquation ℝ}
    (hFrozen : eq.frozen = some relaxationFrozen) (t y v : ℝ) :
    eq.toOde.residual t (Matrix.ofFn 1 1 fun _ _ => y) (Matrix.ofFn 1 1 fun _ _ => v) =
      .ok (Matrix.ofFn 1 1 fun _ _ => y - 1 + v) := by
  simp [AdjointEquation.toOde, AdjointEquation.residual, AdjointEquation.operators, hFrozen,
    relaxationFrozen, relaxationOperators, AdjointEquation.checkShape, Operators.residual, bind,
    Except.bind, pure, Except.pure, Matrix.shape]

/-- The adjoint phase: from `y = 0` the first step reaches `y = 0.01` at the rate `0.99`, steady
for the tolerance `1`. -/
theorem relaxation_adjoint_advance (eq : AdjointEquation ℝ)
    (hFrozen : eq.frozen = some relaxationFrozen) (hIdentity : eq.massIdentity = true)
    {c : Continuation ℝ} (hCurrent : c.history.current = some relaxationStart)
    (hWorking : c.status = .working) (hConfig : c.config = looseAdjointSettings.adjoint)
    (hDt : c.dt = 1.0e-2) (hPrevious : c.prevRate = none)
    (hKind : c.stepper.kind = .forwardEuler) :
    ∃ c' more, c.advance eq.toOde 1.0e12 (fun _ _ => false) = (c', more, .ok true) ∧
      c'.history.current = some relaxationAdjointSteady := by
  -- the residual `y_dot + y - 1` is `-1` at `y = 0`, so the step moves to `y = 0.01`
  have hMoved : relaxationStart.x + (-(Matrix.ofFn 1 1 fun _ _ => (-1 : ℝ))).scale 1.0e-2 =
      Matrix.ofFn 1 1 fun _ _ => 0.01 := by
    simp only [relaxationStart]
    norm_num
  have h₀ : eq.toOde.residual relaxationStart.time relaxationStart.x
      (Matrix.zeros relaxationStart.x.rows relaxationStart.x.cols) =
      .ok (Matrix.ofFn 1 1 fun _ _ => -1) := by
    simpa [relaxationStart] using relaxation_adjoint_residual hFrozen 0 0 0
  have h₁ : eq.toOde.residual (relaxationStart.time + 1.0e-2)
      (relaxationStart.x + (-(Matrix.ofFn 1 1 fun _ _ => (-1 : ℝ))).scale 1.0e-2)
      (Matrix.zeros relaxationStart.x.rows relaxationStart.x.cols) =
      .ok (Matrix.ofFn 1 1 fun _ _ => -0.99) := by
    rw [hMoved]
    simp only [relaxationStart, Matrix.rows_ofFn, Matrix.cols_ofFn, Matrix.zeros_one_one,
      Scalar.numeral_real, Nat.cast_zero, relaxation_adjoint_residual hFrozen]
    norm_num
  have hSteady : c.isSteady
      (relaxationStart.x + (-(Matrix.ofFn 1 1 fun _ _ => (-1 : ℝ))).scale 1.0e-2)
      (-(Matrix.ofFn 1 1 fun _ _ => (-0.99 : ℝ))).norm = true := by
    have hTol : c.config.steadyState = { absTol := 1 } := by rw [hConfig]; rfl
    rw [hMoved]
    simp [Continuation.isSteady, hTol]
    norm_num
  obtain ⟨c', more, hAdvance, hHistory⟩ := Continuation.advance_forwardEuler_first hCurrent
    hWorking hKind hPrevious hIdentity rfl (by norm_num [relaxationStart])
    (by rw [hConfig]; decide) (relaxation_stepSize hDt) h₀ h₁
    ⟨Matrix.allFinite_real _, Matrix.allFinite_real _⟩ hSteady
  refine ⟨c', more, hAdvance, ?_⟩
  rw [hHistory, hMoved]
  norm_num [SolutionState.next, relaxationStart, relaxationAdjointSteady]

/-- The sensitivity of the relaxation is the adjoint state itself: `0 - y · (-1)`. -/
theorem relaxation_sensitivity {eq : AdjointEquation ℝ}
    (hModel : eq.model = relaxationPoly.toModel) (hIndex : eq.parameterIndex = 0)
    (hFrozen : eq.frozen = some relaxationFrozen) (y : ℝ) :
    eq.sensitivity (Matrix.ofFn 1 1 fun _ _ => y) = .ok (Matrix.ofFn 1 1 fun _ _ => y) := by
  simp only [AdjointEquation.sensitivity, hFrozen, hModel, hIndex, relaxationFrozen,
    relaxationOperators, relaxation_parameterJacobian, AdjointEquation.checkShape, bind,
    Except.bind, pure, Except.pure, Except.mapError]
  simp [-Scalar.numeral_real, Matrix.shape, AdjointEquation.pointAt, relaxationSteady]

/-- **The relaxation run completes** at the forward steady state `x = 0`, with the sensitivity
`0.01`. -/
theorem relaxation_advance :
    ∃ s' events,
      ((relaxationSolver.start 0 #[0] none none).1.advance 1.0e12 fun _ _ _ => false) =
        (s', events, .ok true) ∧ s'.stage = .complete ∧
      s'.forward.history.current = some relaxationSteady ∧
      s'.dgdp = some (Matrix.ofFn 1 1 fun _ _ => 0.01) := by
  rw [relaxation_start]
  obtain ⟨forward, events, hForward, hSteady⟩ :=
    relaxation_forward_advance (c := { relaxationSolver.forward with
      history := relaxationSolver.forward.history.push relaxationStart })
      (History.current_push _ _) rfl rfl rfl rfl rfl
  obtain ⟨adjoint, more, hAdjoint, hAdjointSteady⟩ :=
    relaxation_adjoint_advance { relaxationSolver.equation with frozen := some relaxationFrozen }
      (c := { relaxationSolver.adjoint with
              history := relaxationSolver.adjoint.history.push relaxationStart })
      rfl rfl (History.current_push _ _) rfl rfl rfl rfl rfl
  have hAssemble : SensitivitySolver.assemble
      { relaxationSolver with
        forward, adjoint, stage := .adjointDone,
        equation := { relaxationSolver.equation with frozen := some relaxationFrozen } } =
      .ok { relaxationSolver with
            forward, adjoint, stage := .adjointDone,
            equation := { relaxationSolver.equation with frozen := some relaxationFrozen },
            dgdp := some (Matrix.ofFn 1 1 fun _ _ => 0.01) } := by
    simp only [SensitivitySolver.assemble, hAdjointSteady, relaxationAdjointSteady]
    rw [relaxation_sensitivity rfl rfl rfl]
  exact ⟨_, _, SensitivitySolver.advance_of_complete rfl hForward (relaxation_freeze hSteady)
    hAdjoint hAssemble, rfl, hSteady, rfl⟩

/-- The relaxation run, started at `x = 0` and advanced to the end, is observable and passes,
and so leaves the solution of its adjoint equation. -/
theorem relaxation_run_solves_adjoint_equation :
    let s := (relaxationSolver.start 0 #[0] none none).1
    Reachable s ∧ (s.advance 1.0e12 fun _ _ _ => false).2.2 = .ok true ∧
      let s' := (s.advance 1.0e12 fun _ _ _ => false).1
      let P := fun x : SolutionState ℝ => AdjointEquation.pointAt x s'.model.nominalParameters
      ∃ (x y : SolutionState ℝ) (Jstar Estar B : Matrix ℝ) (gradient : ResponseGradient ℝ),
        s'.stage = .complete ∧
        s'.forward.history.current = some x ∧ s'.adjoint.history.current = some y ∧
        s'.adjointEquation.adjointOperator (P x) 0 1 = .ok Jstar ∧
        s'.adjointEquation.massOperator (P x) = .ok Estar ∧
        s'.model.responseGradient s'.settings.options.responseIndex
          s'.settings.options.parameterIndex (P x) = .ok gradient ∧
        s'.model.parameterJacobian s'.settings.options.parameterIndex (P x) = .ok B ∧
        Estar * y.xDot + Jstar * y.x = gradient.dgDx.transpose ∧
        y.xDot.norm ≤ s'.settings.adjoint.steadyState.absTol +
          s'.settings.adjoint.steadyState.relTol * y.x.norm ∧
        s'.dgdp = some (gradient.dgDp - y.x.transpose * B) ∧
        ∀ Jinv : Matrix ℝ, Jstar.transpose * Jinv = Matrix.identity s'.model.stateDim →
          s'.dgdp = some (gradient.dgDp - gradient.dgDx * Jinv * B +
            (Estar * y.xDot).transpose * Jinv * B) := by
  intro s
  have hs : Reachable s := by
    have hSound : (relaxationSolver.call (.start 0 #[0] none none)).breaks = false := by
      simp [SensitivitySolver.call, relaxation_start, CallOutcome.breaks, Except.map]
    exact .call (.create relaxation_create) _ hSound
  obtain ⟨s', events, hRun, -⟩ := relaxation_advance
  have hPassed : (s.advance 1.0e12 fun _ _ _ => false).2.2 = .ok true := by
    rw [hRun]
  exact ⟨hs, hPassed, complete_run_solves_adjoint_equation hs hPassed⟩

/-- **The sensitivity is not `D - G · J⁻¹ · B` at an adjoint state steady only within its
tolerance.** At the forward steady state of the relaxation run `J = ∂f/∂x = 1` has the inverse
`1`, `G = 1`, `D = 0` and `B = -1`, so `D - G · J⁻¹ · B = 1`, yet the run completes with the
sensitivity `0.01`. -/
theorem sensitivity_misses_inverse_formula :
    let s' := ((relaxationSolver.start 0 #[0] none none).1.advance 1.0e12 fun _ _ _ => false).1
    let P := AdjointEquation.pointAt relaxationSteady relaxationPoly.params
    ∃ (J Jinv B : Matrix ℝ) (gradient : ResponseGradient ℝ),
      s'.stage = .complete ∧ s'.forward.history.current = some relaxationSteady ∧
      relaxationPoly.toModel.jacobian P 0 1 = .ok J ∧
      J * Jinv = Matrix.identity 1 ∧ Jinv * J = Matrix.identity 1 ∧
      relaxationPoly.toModel.responseGradient 0 0 P = .ok gradient ∧
      relaxationPoly.toModel.parameterJacobian 0 P = .ok B ∧
      gradient.dgDp - gradient.dgDx * Jinv * B = Matrix.ofFn 1 1 (fun _ _ => 1) ∧
      s'.dgdp = some (Matrix.ofFn 1 1 fun _ _ => 0.01) := by
  intro s' P
  obtain ⟨s'', events, hRun, hStage, hForward, hDgdp⟩ := relaxation_advance
  have hSame : s' = s'' := congrArg Prod.fst hRun
  rw [hSame]
  have hx : relaxationSteady.x = Matrix.ofFn 1 1 fun _ _ => 0 := rfl
  refine ⟨_, Matrix.ofFn 1 1 fun _ _ => 1, _, _, hStage, hForward,
    relaxation_jacobian hx _ 0 1, ?_, ?_, relaxation_responseGradient hx _,
    relaxation_parameterJacobian P, ?_, hDgdp⟩
  · simp
  · simp
  · norm_num

end Sensitivity

end SteadyAdjoint
