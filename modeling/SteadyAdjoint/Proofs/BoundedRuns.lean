import SteadyAdjoint.Proofs.Calls
import SteadyAdjoint.Proofs.Trips
import SteadyAdjoint.Binary64.Double
import SteadyAdjoint.Model.Logistic

/-!
# Runs of the sensitivity solver that compute

A call of `SensitivitySolver.advance` runs the stepping loop of each phase through
`Continuation.advance`, which the kernel does not unfold, so no call on a concrete solver can
be decided by evaluation. `SensitivitySolver.advanceFor` is the same call with the loop of each
phase run by `Continuation.advanceFor`, under a bound on its trips. Where both phases finish
within the bound it gives the call's outcome (`advance_eq_of_advanceFor`), so the outcome of a
run at a concrete solver is read off one evaluation.

## Main statements

* `SensitivitySolver.advance_eq_of_advanceFor`: a bounded call that finishes computes
  `advance`.
* `SensitivitySolver.exists_started_run`: a created solver, started and advanced by a bounded
  run that finishes without a breach, is reachable, and the advanced solver is the bounded
  run's.
* `logistic_run_completes`: a logistic solver started at its steady state runs to completion.
-/

namespace SteadyAdjoint.Sensitivity

open SteadyAdjoint.Integrator

variable {R : Type} [Scalar R]

namespace SensitivitySolver

/-! ## §1 Phases with a bound on their trips -/

/-- The forward phase, with at most `fuel` trips round its loop. -/
def runForwardFor (s : SensitivitySolver R) (tFinal : R)
    (stop : Phase → SolutionState R → R → Bool) (fuel : Nat) : Option (Outcome R) :=
  if s.stage = .forwardReady then
    (s.forward.advanceFor s.forwardOde tFinal (stop .forward) fuel).map
      fun (forward, events, r) =>
        let s := { s with forward }
        let events := events.map fun e => (Phase.forward, e)
        match r with
        | .error e => (s, events, .error (.forwardIntegration e))
        | .ok false => (s, events, .ok false)
        | .ok true => ({ s with stage := .forwardDone }, events, .ok true)
  else some (s, [], .ok true)

/-- The adjoint phase, with at most `fuel` trips round its loop. -/
def runAdjointFor (s : SensitivitySolver R) (stop : Phase → SolutionState R → R → Bool)
    (fuel : Nat) : Option (Outcome R) :=
  if s.stage = .forwardDone then
    match s.freezeAdjoint with
    | (s, .error e) => some (s, [], .error e)
    | (s, .ok ()) =>
      (s.adjoint.advanceFor s.equation.toOde s.settings.adjoint.finalTime (stop .adjoint)
          fuel).map fun (adjoint, events, r) =>
        let s := { s with adjoint }
        let events := events.map fun e => (Phase.adjoint, e)
        match r with
        | .error e => (s, events, .error (.adjointIntegration e))
        | .ok false => (s, events, .ok false)
        | .ok true => ({ s with stage := .adjointDone }, events, .ok true)
  else some (s, [], .ok true)

/-- The phases that are due, each with at most `fuel` trips round its loop. -/
def runPhasesFor (s : SensitivitySolver R) (tFinal : R)
    (stop : Phase → SolutionState R → R → Bool) (fuel : Nat) : Option (Outcome R) :=
  (s.runForwardFor tFinal stop fuel).bind fun
    | (s, events, .ok true) =>
      (s.runAdjointFor stop fuel).map fun
        | (s, more, .ok true) =>
          let (s, r) := s.runAssembly
          (s, events ++ more, r)
        | (s, more, r) => (s, events ++ more, r)
    | outcome => some outcome

/-- A call of `advance` whose phases take at most `fuel` trips each: the outcome, or `none`
when the trips of a phase run out first. -/
def advanceFor (s : SensitivitySolver R) (tFinal : R)
    (stop : Phase → SolutionState R → R → Bool) (fuel : Nat) : Option (Outcome R) :=
  if s.stage = .configured then some (s, [], .error (.notReady s.stage))
  else if s.stage.isTerminal then some (s, [], .ok (s.stage = .complete))
  else
    (s.runPhasesFor tFinal stop fuel).map fun
      | (s, events, .ok true) => (s, events, .ok true)
      | (s, events, r) => (s.fail, events, r)

/-! ## §2 A bounded call that finishes is the call -/

variable {s : SensitivitySolver R} {tFinal : R} {stop : Phase → SolutionState R → R → Bool}
  {fuel : Nat} {o : Outcome R}

theorem runForward_eq_of_runForwardFor (h : s.runForwardFor tFinal stop fuel = some o) :
    s.runForward tFinal stop = o := by
  unfold runForwardFor at h
  unfold runForward
  split_ifs at h ⊢ with hReady
  · -- split the loop's outcome first, so both sides' matches reduce once it is rewritten
    obtain ⟨⟨forward, events, e | _ | _⟩, hRun, rfl⟩ := Option.map_eq_some_iff.1 h <;>
      rw [Continuation.advance_eq_of_advanceFor hRun]
  · exact Option.some.inj h

theorem runAdjoint_eq_of_runAdjointFor (h : s.runAdjointFor stop fuel = some o) :
    s.runAdjoint stop = o := by
  unfold runAdjointFor at h
  unfold runAdjoint
  split_ifs at h ⊢ with hDone
  · -- the freeze is the same on both sides; past it the adjoint loop is the bounded one
    rcases hFreeze : s.freezeAdjoint with ⟨s', e | ⟨⟩⟩
    · rw [hFreeze] at h
      exact Option.some.inj h
    · rw [hFreeze] at h
      obtain ⟨⟨adjoint, events, e | _ | _⟩, hRun, rfl⟩ := Option.map_eq_some_iff.1 h <;>
        dsimp only <;> rw [Continuation.advance_eq_of_advanceFor hRun]
  · exact Option.some.inj h

theorem runPhases_eq_of_runPhasesFor (h : s.runPhasesFor tFinal stop fuel = some o) :
    s.runPhases tFinal stop = o := by
  unfold runPhasesFor at h
  obtain ⟨o1, hForward, h⟩ := Option.bind_eq_some_iff.1 h
  unfold runPhases
  rw [runForward_eq_of_runForwardFor hForward]
  rcases o1 with ⟨s1, events, e | _ | _⟩
  · exact Option.some.inj h
  · exact Option.some.inj h
  · -- the forward phase passed: the adjoint phase runs bounded too
    obtain ⟨⟨s2, more, e | _ | _⟩, hAdjoint, rfl⟩ := Option.map_eq_some_iff.1 h <;>
      dsimp only <;> rw [runAdjoint_eq_of_runAdjointFor hAdjoint]

/-- **A bounded call that finishes computes `advance`.** -/
theorem advance_eq_of_advanceFor (h : s.advanceFor tFinal stop fuel = some o) :
    s.advance tFinal stop = o := by
  unfold advanceFor at h
  unfold advance
  split_ifs at h ⊢ with hConfigured hTerminal
  · exact Option.some.inj h
  · exact Option.some.inj h
  · obtain ⟨⟨s', events, e | _ | _⟩, hRun, rfl⟩ := Option.map_eq_some_iff.1 h <;>
      rw [runPhases_eq_of_runPhasesFor hRun]

/-! ## §3 Runs from a created solver -/

/-- **A created solver, started and advanced by a bounded run that finishes without an
error, is reachable**, and the advanced solver is the bounded run's. The run is given as one
evaluation, which also checks `check` of its outcome. -/
theorem exists_started_run (settings : Settings R) (model : ResidualModel R)
    (adjointModel : Option (AdjointModel R)) (t0 : R) (x0 : Vec R)
    (xDot0 xDotDot0 : Option (Vec R)) (tFinal : R) (stop : Phase → SolutionState R → R → Bool)
    (fuel : Nat) (check : Outcome R → Bool)
    (h : ((create settings model adjointModel).toOption.bind fun s =>
      ((s.start t0 x0 xDot0 xDotDot0).1.advanceFor tFinal stop fuel).map fun o =>
        (s.start t0 x0 xDot0 xDotDot0).2.isOk && o.2.2.isOk && check o) = some true) :
    ∃ s o, create settings model adjointModel = .ok s ∧
      (s.start t0 x0 xDot0 xDotDot0).1.advance tFinal stop = o ∧ Reachable o.1 ∧
      check o = true := by
  rcases hCreate : create settings model adjointModel with e | s
  · simp [hCreate, Except.toOption] at h
  simp only [hCreate, Except.toOption, Option.bind_some, Option.map_eq_some_iff,
    Bool.and_eq_true] at h
  obtain ⟨o, hRun, ⟨hStart, hOk⟩, hCheck⟩ := h
  have hAdvance := advance_eq_of_advanceFor hRun
  refine ⟨s, o, rfl, hAdvance, ?_, hCheck⟩
  -- the start succeeds, so it does not breach
  obtain ⟨s', hS⟩ : ∃ s', s.start t0 x0 xDot0 xDotDot0 = (s', .ok ()) := by
    rcases hS : s.start t0 x0 xDot0 xDotDot0 with ⟨s', e | ⟨⟩⟩
    · simp [hS, Except.isOk, Except.toBool] at hStart
    · exact ⟨s', rfl⟩
  have hStarted : Reachable s' := by
    simpa [call, hS] using
      Reachable.call (.create hCreate) (.start t0 x0 xDot0 xDotDot0)
        (by simp [call, hS, CallOutcome.breaks, Except.map])
  -- nor does the advance, which ends without an error
  rw [hS] at hAdvance
  obtain ⟨s'', events, r⟩ := o
  obtain ⟨b, rfl⟩ : ∃ b, r = .ok b := by
    cases r with
    | error e => simp [Except.isOk, Except.toBool] at hOk
    | ok b => exact ⟨b, rfl⟩
  simpa [call, hAdvance] using
    Reachable.call hStarted (.advance tFinal stop) (by simp [call, hAdvance, CallOutcome.breaks, Except.map])

end SensitivitySolver

open SteadyAdjoint.Binary64 in
/-- The default settings, but with the adjoint phase starting at the largest step size they
allow: a stable linear adjoint problem then settles in a few steps. -/
def longAdjointSteps : Settings Double :=
  { adjoint := { timeStepControl := { initialTimeStep := 1.0e6 } } }

open SteadyAdjoint.Binary64 in
/-- A logistic solver with `longAdjointSteps`, started at its steady state `x = 2` and advanced
once, completes its run, in one forward step and two adjoint steps. It keeps the factorisation
of its last adjoint step, has one state variable and one direction, and runs under the settings
it was created with. -/
theorem logistic_run_completes :
    ∃ s, SensitivitySolver.create longAdjointSteps (Logistic.toModel ⟨1, 2, 0⟩) none = .ok s ∧
      let ran := ((s.start 0 #[2] none none).1.advance 100 fun _ _ _ => false).1
      Reachable ran ∧ ran.stage = .complete ∧ ran.adjoint.stepper.cache.isSome ∧
        ran.model.stateDim = 1 ∧ ran.forwardOde.dim = 1 ∧ ran.forwardOde.directions = 1 ∧
        ran.settings = longAdjointSteps := by
  obtain ⟨s, o, hCreate, hRan, hReach, hCheck⟩ :=
    SensitivitySolver.exists_started_run longAdjointSteps (Logistic.toModel ⟨1, 2, 0⟩) none 0
      #[2] none none 100 (fun _ _ _ => false) 5
      (fun o => decide (o.1.stage = .complete) && o.1.adjoint.stepper.cache.isSome &&
        decide (o.1.model.stateDim = 1 ∧ o.1.forwardOde.dim = 1 ∧ o.1.forwardOde.directions = 1))
      (by decide +kernel)
  simp only [Bool.and_eq_true, decide_eq_true_eq] at hCheck
  obtain ⟨⟨hComplete, hCache⟩, hDim, hForwardDim, hDirections⟩ := hCheck
  -- the settings are not computed but kept: by the start, by the advance, and from creation
  have hSettings : o.1.settings = longAdjointSteps := by
    obtain ⟨-, forward, equation, adjoint, -, -, rfl⟩ := SensitivitySolver.create_eq_ok hCreate
    calc o.1.settings
        = (SensitivitySolver.start _ (0 : Double) #[2] none none).1.settings := by
          rw [← hRan]
          exact congrArg Prod.fst (SensitivitySolver.advance_setup _ 100 _)
      _ = longAdjointSteps := SensitivitySolver.start_settings _ _ _ _ _
  refine ⟨s, hCreate, ?_⟩
  dsimp only
  rw [hRan]
  exact ⟨hReach, hComplete, hCache, hDim, hForwardDim, hDirections, hSettings⟩

end SteadyAdjoint.Sensitivity
