import SteadyAdjoint.Proofs.Stages
import SteadyAdjoint.Proofs.DoubleLaws

/-!
# The kept factorisation of the adjoint phase

The adjoint equation is linear, and its iteration matrix `E* · α + J* · β` reads the frozen
operators alone, so the backward Euler steps of the adjoint phase keep the factorisation of
the iteration matrix at their step size. The solver freezes the equation again at the start
of every adjoint phase. This module shows that it never does so under a continuation that
keeps a factorisation of the operators frozen before: the adjoint continuation of a solver
observed between calls was created from the settings, or started after the last freeze and
advanced on the frozen equation since (`Reachable.adjointSteps`). With the laws of binary64
step sizes, its kept factorisation is always the factorisation of the current iteration
matrix, and every adjoint step returns what a step that evaluates and factors the matrix
afresh returns.

## Main statements

* `SensitivitySolver.AdjointSteps`: the history of the adjoint continuation.
* `Reachable.adjointSteps`: every observable solver has it.
* `adjoint_kept_factorisation`: the kept factorisation of the adjoint phase is sound, and in
  general unobservable.
-/

namespace SteadyAdjoint.Sensitivity

open SteadyAdjoint.Integrator

variable {R : Type} [Scalar R]

/-- The iteration matrix of the adjoint equation depends on the step size alone. -/
theorem AdjointEquation.toOde_jacobianByStep (eq : AdjointEquation R) :
    eq.toOde.JacobianByStep :=
  fun _ _ _ _ _ _ _ => rfl

namespace SensitivitySolver

/-! ## §1 The history of the adjoint continuation -/

/-- What the adjoint continuation of a solver has been through: created, or started and then
advanced on the current adjoint equation only. While the forward phase is still to run, it is
the continuation created from the settings. -/
structure AdjointSteps (s : SensitivitySolver R) : Prop where
  reachable : Continuation.Reachable s.equation.toOde s.adjoint
  fresh : s.stage = .forwardReady → Continuation.create s.settings.adjoint = .ok s.adjoint

/-- A freshly built adjoint phase is created from the settings, for whatever equation. -/
theorem adjoint_reachable_of_built {settings : Settings R} {model : ResidualModel R}
    {adjointModel : Option (AdjointModel R)} {equation : AdjointEquation R}
    {adjoint : Continuation R}
    (h : buildAdjoint settings model adjointModel = .ok (equation, adjoint)) :
    Continuation.create settings.adjoint = .ok adjoint :=
  (buildAdjoint_eq_ok h).2

theorem adjointSteps_of_create {settings : Settings R} {model : ResidualModel R}
    {adjointModel : Option (AdjointModel R)} {s : SensitivitySolver R}
    (h : create settings model adjointModel = .ok s) : s.AdjointSteps := by
  obtain ⟨-, forward, equation, adjoint, -, hAdjoint, rfl⟩ := create_eq_ok h
  exact ⟨.create (adjoint_reachable_of_built hAdjoint), fun hStage => by cases hStage⟩

theorem AdjointSteps.setSettings {s s' : SensitivitySolver R} {settings : Settings R}
    (h : s.setSettings settings = .ok s') : s'.AdjointSteps := by
  obtain ⟨-, forward, equation, adjoint, -, hAdjoint, rfl⟩ := setSettings_eq_ok h
  exact ⟨.create (adjoint_reachable_of_built hAdjoint), fun hStage => by cases hStage⟩

/-- A start rebuilds the adjoint phase from the settings, or fails leaving it as it was. -/
theorem AdjointSteps.start {s : SensitivitySolver R} (hSteps : s.AdjointSteps) (t0 : R)
    (x0 : Vec R) (xDot0 xDotDot0 : Option (Vec R)) :
    (s.start t0 x0 xDot0 xDotDot0).1.AdjointSteps := by
  rcases hStart : s.start t0 x0 xDot0 xDotDot0 with ⟨s', _ | ⟨⟩⟩
  · rcases start_eq_error hStart with rfl | ⟨forward, rfl, -⟩
    · exact hSteps
    · exact ⟨hSteps.reachable, hSteps.fresh⟩
  · obtain ⟨forward, equation, adjoint, -, hAdjoint, rfl⟩ := start_eq_ok hStart
    have hCreated := adjoint_reachable_of_built hAdjoint
    exact ⟨.create hCreated, fun _ => hCreated⟩

/-! ## §2 A call of `advance` -/

/-- The adjoint run of a call: the continuation started after the freeze, advanced on the
frozen equation. -/
theorem adjointRun_reachable {s frozen : SensitivitySolver R} (hSteps : s.AdjointSteps)
    {forward adjoint : Continuation R} {more : List (Event R)}
    {r : Except (SolveError AdjointError) Bool} {tFinal : R}
    {stop : SolutionState R → R → Bool}
    (hFreeze : { s with forward, stage := .forwardDone }.freezeAdjoint = (frozen, .ok ()))
    (hAdjoint : frozen.adjoint.advance frozen.equation.toOde tFinal stop = (adjoint, more, r)) :
    Continuation.Reachable frozen.equation.toOde adjoint := by
  obtain ⟨steady, f, started, -, -, hStart, hFrozen⟩ := freezeAdjoint_ok hFreeze
  have hStarted : Continuation.Reachable frozen.equation.toOde frozen.adjoint := by
    rw [hFrozen]
    exact .start hSteps.reachable hStart
  have hRun := hStarted.advance tFinal stop
  rw [hAdjoint] at hRun
  exact hRun

/-- Every outcome of `advance` on a run ready for its forward phase keeps the history of the
adjoint continuation: a failed freeze leaves the continuation created from the settings, and
the adjoint run starts after the freeze. No such outcome is ready for its forward phase. -/
theorem AdjointSteps.advances {s : SensitivitySolver R} {tFinal : R}
    {stop : Phase → SolutionState R → R → Bool} {o : Outcome R} (hSteps : s.AdjointSteps)
    (hReady : s.stage = .forwardReady) (h : Advances s tFinal stop o) : o.1.AdjointSteps := by
  have hCreated := hSteps.fresh hReady
  cases h with
  | forwardError _ | forwardFailed _ =>
    exact ⟨hSteps.reachable, fun hStage => by simp [fail, hReady] at hStage⟩
  | freezeFailed _ hFreeze =>
    obtain ⟨equation, rfl, -⟩ := freezeAdjoint_error hFreeze
    exact ⟨.create hCreated, fun hStage => by simp [fail] at hStage⟩
  | adjointError _ hFreeze hAdjoint | adjointFailed _ hFreeze hAdjoint =>
    have hRun := adjointRun_reachable hSteps hFreeze hAdjoint
    exact ⟨hRun, fun hStage => by simp [fail] at hStage⟩
  | assemblyFailed _ hFreeze hAdjoint _ =>
    have hRun := adjointRun_reachable hSteps hFreeze hAdjoint
    exact ⟨hRun, fun hStage => by simp [fail] at hStage⟩
  | complete _ hFreeze hAdjoint hAssemble =>
    have hRun := adjointRun_reachable hSteps hFreeze hAdjoint
    obtain ⟨y, dgdp, -, -, rfl⟩ := assemble_eq_ok hAssemble
    exact ⟨hRun, fun hStage => by cases hStage⟩

/-- A call of `advance` keeps the history of the adjoint continuation. -/
theorem AdjointSteps.advance {s : SensitivitySolver R} (hSteps : s.AdjointSteps)
    (hSettled : s.Settled) (tFinal : R) (stop : Phase → SolutionState R → R → Bool) :
    (s.advance tFinal stop).1.AdjointSteps := by
  cases hStage : s.stage with
  | configured =>
    rw [advance_configured hStage]
    exact hSteps
  | complete | failed _ =>
    rw [advance_terminal (by simp [hStage, Stage.isTerminal])]
    exact hSteps
  | forwardDone | adjointDone => simp [Settled, hStage] at hSettled
  | forwardReady => exact hSteps.advances hStage (advance_forwardReady s tFinal stop hStage)

/-! ## §3 Every call -/

/-- **Every call keeps the history of the adjoint continuation.** -/
theorem AdjointSteps.call {s : SensitivitySolver R} (hSteps : s.AdjointSteps)
    (hSettled : s.Settled) (c : Call R) : (s.call c).1.AdjointSteps :=
  call_preserves (fun s => s.AdjointSteps) hSteps hSteps.start (hSteps.advance hSettled)
    (fun hSet => AdjointSteps.setSettings hSet) c

end SensitivitySolver

open SensitivitySolver in
/-- Every solver that a sequence of calls leaves has an adjoint continuation that steps its
current adjoint equation. -/
theorem Reachable.adjointSteps {s : SensitivitySolver R} (h : Reachable s) : s.AdjointSteps := by
  induction h with
  | create h => exact adjointSteps_of_create h
  | call h c _ ih => exact ih.call h.invariant.settled c

/-! ## §4 The kept factorisation is sound -/

open SteadyAdjoint.Binary64 in
/-- **The kept factorisation of the adjoint phase is sound, and in general unobservable.**

In binary64, the adjoint continuation of every solver observed between calls steps its
current adjoint equation: it was created, or started after the last freeze and advanced on
the frozen equation since. A factorisation it keeps under a step size `h` is the
factorisation of the iteration matrix `J(1/h, 1)` of the operators frozen now, and every step
it takes returns what a stepper without the kept factorisation returns.

More generally, for any problem whose iteration matrix depends on the step size alone, every
step attempted in a call of `advance` on a continuation created, or started and advanced on
that problem since, returns what it returns without the kept factorisation. -/
theorem adjoint_kept_factorisation :
    (∀ s : SensitivitySolver Double, Reachable s →
      Continuation.Reachable s.equation.toOde s.adjoint ∧
      (∀ h f, s.adjoint.stepper.cache = some (h, f) →
        (s.equation.jacobian (1 / h) 1).map Matrix.factor = .ok f) ∧
      ∀ current dt, (s.adjoint.stepper.takeStep s.equation.toOde current dt).2 =
        (s.adjoint.stepper.reset.takeStep s.equation.toOde current dt).2) ∧
    ∀ (ε : Type) (ode : ImplicitOde Double ε) (c : Continuation Double), ode.JacobianByStep →
      Continuation.Reachable ode c →
      ∀ tFinal stop (q : LoopPoint Double), c.Visits ode tFinal stop q →
        ∀ current dt, (q.cont.stepper.takeStep ode current dt).2 =
          (q.cont.stepper.reset.takeStep ode current dt).2 := by
  refine ⟨fun s hs => ?_, fun ε ode c hOnly hc tFinal stop q hq current dt =>
    hc.takeStep_reset Double.stepLaws hOnly hq current dt⟩
  have hReach := hs.adjointSteps.reachable
  have hInv := hReach.cacheInvariant Double.stepLaws s.equation.toOde_jacobianByStep
  refine ⟨hReach, fun h f hCache => ?_, fun current dt =>
    Stepper.takeStep_reset Double.stepLaws hInv.kept⟩
  -- the iteration matrix of the adjoint problem reads no state, so any state will do
  exact (hInv.kept h f hCache).2 0 (Matrix.zeros 0 0) (Matrix.zeros 0 0)

open SteadyAdjoint.Binary64 in
/-- A logistic solver started at its steady state `x = 2` and run to completion keeps the
factorisation of its last adjoint step: it is that of the adjoint iteration matrix at the step
size it was made for, and stepping with it gives what a fresh stepper gives. -/
theorem logistic_adjoint_kept_factorisation :
    ∃ s, SensitivitySolver.create longAdjointSteps (Logistic.toModel ⟨1, 2, 0⟩) none = .ok s ∧
      let ran := ((s.start 0 #[2] none none).1.advance 100 fun _ _ _ => false).1
      Reachable ran ∧ ran.stage = .complete ∧
      Continuation.Reachable ran.equation.toOde ran.adjoint ∧
      ∃ h f, ran.adjoint.stepper.cache = some (h, f) ∧
        (ran.equation.jacobian (1 / h) 1).map Matrix.factor = .ok f ∧
        ∀ current dt, (ran.adjoint.stepper.takeStep ran.equation.toOde current dt).2 =
          (ran.adjoint.stepper.reset.takeStep ran.equation.toOde current dt).2 := by
  obtain ⟨s, hCreate, hReach, hComplete, hCache, -⟩ := logistic_run_completes
  obtain ⟨⟨h, f⟩, hKept⟩ := Option.isSome_iff_exists.1 hCache
  obtain ⟨hAdjoint, hFactor, hStep⟩ := adjoint_kept_factorisation.1 _ hReach
  exact ⟨s, hCreate, hReach, hComplete, hAdjoint, h, f, hKept, hFactor h f hKept, hStep⟩

end SteadyAdjoint.Sensitivity
