import SteadyAdjoint.Proofs.Passes
import SteadyAdjoint.Sensitivity.Solver

/-!
# Calls on a sensitivity solver

A `SensitivitySolver` is built by `create`, which every constructor and the builder use, and
is then driven by its public calls: starting a run, advancing it (to any final time, with any
request to stop), and replacing or resetting the settings. `Reachable` holds of every solver
that a sequence of such calls can leave, in any order and with any mix of successes and
errors. A call whose computation breaches abandons the whole computation (the program stops
there), so it leaves no solver to observe.

`Advances` says once what a call of `advance` does to a run that is ready for its forward
phase: the forward run fails, or it passes and the freeze fails, or the adjoint run fails,
or the assembly fails, or the run completes. Every fact about a whole run is read off it.

## Main statements

* `SensitivitySolver.advance_forwardReady`: the inversion of `advance` on a ready run, and
  `advance_of_complete`, its complete branch read forwards.
* `SensitivitySolver.freezeAdjoint_ok`, `freezeAdjoint_error`: what a freeze leaves.
-/

namespace SteadyAdjoint.Sensitivity

open SteadyAdjoint.Integrator

variable {R : Type} [Scalar R]

/-! ## §1 The public calls -/

/-- A public call on a sensitivity solver. -/
inductive Call (R : Type) [Scalar R] where
  /-- `initialize_solution_history`. -/
  | start (t0 : R) (x0 : Vec R) (xDot0 xDotDot0 : Option (Vec R))
  /-- `advance_time_observed`; `advance_time` and `advance_time_to` are the calls that never
  ask to stop. -/
  | advance (tFinal : R) (stop : Phase → SolutionState R → R → Bool)
  /-- `set_config`. -/
  | setSettings (settings : Settings R)
  /-- `unset_config`. -/
  | unsetSettings

/-- What a call returns when it succeeds. -/
inductive Answer (R : Type) [Scalar R] where
  /-- Nothing. -/
  | done
  /-- Whether the run is complete. -/
  | passed (b : Bool)
  /-- The settings in effect before. -/
  | previous (settings : Settings R)

/-- What a call gives: the solver afterwards, the accepted steps, and the result. -/
abbrev CallOutcome (R : Type) [Scalar R] :=
  SensitivitySolver R × List (SensitivitySolver.PhaseEvent R) × Except SolverError (Answer R)

namespace SensitivitySolver

/-- Carries out a call. A failed change of the settings leaves the solver as it was. -/
def call (s : SensitivitySolver R) : Call R → CallOutcome R
  | .start t0 x0 xDot0 xDotDot0 =>
    let (s, r) := s.start t0 x0 xDot0 xDotDot0
    (s, [], r.map fun _ => .done)
  | .advance tFinal stop =>
    let (s, events, r) := s.advance tFinal stop
    (s, events, r.map .passed)
  | .setSettings settings =>
    match s.setSettings settings with
    | .ok s' => (s', [], .ok .done)
    | .error e => (s, [], .error e)
  | .unsetSettings =>
    match s.unsetSettings with
    | .ok (s', previous) => (s', [], .ok (.previous previous))
    | .error e => (s, [], .error e)

/-- The outcomes of a sequence of calls, in order, each on the solver the one before left. -/
def runCalls (s : SensitivitySolver R) : List (Call R) → List (CallOutcome R)
  | [] => []
  | c :: cs => s.call c :: (s.call c).1.runCalls cs

end SensitivitySolver

/-- Whether a call's outcome is a breach, which abandons the computation. -/
def CallOutcome.breaks (o : CallOutcome R) : Bool :=
  match o.2.2 with
  | .error e => e.breaks
  | .ok _ => false

/-- The solvers that a sequence of calls can leave, observed between calls. -/
inductive Reachable : SensitivitySolver R → Prop where
  /-- A solver just built, by a constructor or the builder. -/
  | create {settings : Settings R} {model : ResidualModel R}
      {adjointModel : Option (AdjointModel R)} {s : SensitivitySolver R}
      (h : SensitivitySolver.create settings model adjointModel = .ok s) : Reachable s
  /-- The solver after a call that did not breach. -/
  | call {s : SensitivitySolver R} (h : Reachable s) (c : Call R)
      (hSound : (s.call c).breaks = false) : Reachable (s.call c).1

/-- A solver from the builder is one from `create`. -/
theorem Reachable.build {b : Builder R} {s : SensitivitySolver R} (h : b.build = .ok s) :
    Reachable s := by
  unfold Builder.build at h
  split at h
  · cases h
  · exact .create h

omit [Scalar R] in
/-- An adjoint equation just created: unfrozen, for the parameter block and the response of
the options. -/
theorem AdjointEquation.create_eq_ok {model : ResidualModel R}
    {adjointModel : Option (AdjointModel R)} {options : Options} {eq : AdjointEquation R}
    (h : AdjointEquation.create model adjointModel options = .ok eq) :
    eq = { model, adjointModel, parameterIndex := options.parameterIndex,
           responseIndex := options.responseIndex, massIdentity := options.massIdentity } := by
  unfold AdjointEquation.create at h
  simp only [AdjointEquation.checkIndex, bind, Except.bind, pure, Except.pure, throw, throwThe,
    MonadExceptOf.throw] at h
  -- each check that fails is an error; past all three the equation is built unfrozen
  by_cases hMass : options.massConstant
  · by_cases hp : options.parameterIndex < model.numParameters
    · by_cases hr : options.responseIndex < model.numResponses
      · simp only [hMass, hp, hr, Bool.not_true, if_true, Bool.false_eq_true, if_false,
          Except.ok.injEq] at h
        exact h.symm
      · simp [hMass, hp, hr] at h
    · simp [hMass, hp] at h
  · simp [hMass] at h

namespace SensitivitySolver

/-! ## §2 Building, starting and changing the settings -/

/-- A forward phase just built has no states. -/
theorem buildForward_history {settings : Settings R} {forward : Continuation R}
    (h : buildForward settings = .ok forward) : forward.history.toList = [] := by
  simp only [buildForward, Except.mapError] at h
  split at h
  · cases h
  · rename_i c hc
    cases h
    rw [(Continuation.create_eq_ok hc).2]
    rfl

/-- An adjoint phase just built: the equation and the continuation, each created from the
settings. -/
theorem buildAdjoint_eq_ok {settings : Settings R} {model : ResidualModel R}
    {adjointModel : Option (AdjointModel R)} {equation : AdjointEquation R}
    {adjoint : Continuation R}
    (h : buildAdjoint settings model adjointModel = .ok (equation, adjoint)) :
    AdjointEquation.create model adjointModel settings.options = .ok equation ∧
      Continuation.create settings.adjoint = .ok adjoint := by
  simp only [buildAdjoint, bind, Except.bind, Except.mapError] at h
  split at h
  · cases h
  · rename_i eq hEq
    split at h
    · cases h
    · rename_i c hc
      cases h
      split at hEq
      · cases hEq
      · rename_i hCreate
        cases hEq
        split at hc
        · cases hc
        · rename_i hCreate'
          cases hc
          exact ⟨hCreate, hCreate'⟩

/-- An adjoint phase just built: the equation of the models, unfrozen, and a continuation with
no states. -/
theorem buildAdjoint_fresh {settings : Settings R} {model : ResidualModel R}
    {adjointModel : Option (AdjointModel R)} {equation : AdjointEquation R}
    {adjoint : Continuation R}
    (h : buildAdjoint settings model adjointModel = .ok (equation, adjoint)) :
    equation.model = model ∧ equation.adjointModel = adjointModel ∧ equation.frozen = none ∧
      adjoint.history.toList = [] := by
  obtain ⟨hEquation, hAdjoint⟩ := buildAdjoint_eq_ok h
  rw [AdjointEquation.create_eq_ok hEquation, (Continuation.create_eq_ok hAdjoint).2]
  exact ⟨rfl, rfl, rfl, rfl⟩

/-- A solver just built: its settings valid, both phases built from them, configured, with
no sensitivity. -/
theorem create_eq_ok {settings : Settings R} {model : ResidualModel R}
    {adjointModel : Option (AdjointModel R)} {s : SensitivitySolver R}
    (h : create settings model adjointModel = .ok s) :
    settings.validate = .ok () ∧
    ∃ forward equation adjoint,
      buildForward settings = .ok forward ∧
      buildAdjoint settings model adjointModel = .ok (equation, adjoint) ∧
      s = { model, adjointModel, settings, forward, adjoint, equation } := by
  simp only [create, bind, Except.bind] at h
  split at h
  · cases h
  · rename_i hValid
    split at h
    · cases h
    · rename_i forward hForward
      split at h
      · cases h
      · rename_i p hBuild
        cases h
        refine ⟨?_, forward, p.1, p.2, hForward, hBuild, rfl⟩
        revert hValid
        simp only [Except.mapError]
        split <;> simp_all

/-- The solver after a successful start: the forward phase seeded, a fresh adjoint phase,
no sensitivity, ready for the forward phase. -/
theorem start_eq_ok {s s' : SensitivitySolver R} {t0 : R} {x0 : Vec R}
    {xDot0 xDotDot0 : Option (Vec R)} (h : s.start t0 x0 xDot0 xDotDot0 = (s', .ok ())) :
    ∃ forward equation adjoint,
      s.forward.start (ε := ModelError) (s.model.stateDim, 1) t0 (Matrix.column x0)
        (xDot0.map Matrix.column)
        (xDotDot0.map Matrix.column) = .ok forward ∧
      buildAdjoint s.settings s.model s.adjointModel = .ok (equation, adjoint) ∧
      s' = { s with forward, equation, adjoint, dgdp := none, stage := .forwardReady,
                    status := .working } := by
  unfold start at h
  dsimp only at h
  split at h
  · cases h
  · rename_i forward hForward
    split at h
    · cases h
    · rename_i equation adjoint hBuild
      cases h
      exact ⟨forward, equation, adjoint, hForward, hBuild, rfl⟩

/-- A start that fails leaves the solver as it was, unless the adjoint phase could not be
rebuilt after the forward phase was seeded. -/
theorem start_eq_error {s s' : SensitivitySolver R} {t0 : R} {x0 : Vec R}
    {xDot0 xDotDot0 : Option (Vec R)} {e : SolverError}
    (h : s.start t0 x0 xDot0 xDotDot0 = (s', .error e)) :
    s' = s ∨ ∃ forward, s' = { s with forward } ∧
      ∃ e', buildAdjoint s.settings s.model s.adjointModel = .error e' := by
  unfold start at h
  dsimp only at h
  split at h
  · cases h
    exact .inl rfl
  · rename_i forward _
    split at h
    · rename_i hBuild
      cases h
      exact .inr ⟨forward, rfl, _, hBuild⟩
    · cases h

/-- The solver after a successful change of settings: both phases rebuilt, configured. -/
theorem setSettings_eq_ok {s s' : SensitivitySolver R} {settings : Settings R}
    (h : s.setSettings settings = .ok s') :
    settings.validate = .ok () ∧
    ∃ forward equation adjoint,
      buildForward settings = .ok forward ∧
      buildAdjoint settings s.model s.adjointModel = .ok (equation, adjoint) ∧
      s' = { s with settings, forward, adjoint, equation, stage := .configured,
                    status := .working, dgdp := none } := by
  simp only [setSettings, bind, Except.bind] at h
  split at h
  · cases h
  · rename_i hValid
    split at h
    · cases h
    · rename_i forward hForward
      split at h
      · cases h
      · rename_i p hBuild
        cases h
        refine ⟨?_, forward, p.1, p.2, hForward, hBuild, rfl⟩
        revert hValid
        simp only [Except.mapError]
        split <;> simp_all

/-- A successful reset of the settings is a change to the default settings; it returns the
settings before. -/
theorem unsetSettings_eq_ok {s s' : SensitivitySolver R} {previous : Settings R}
    (h : s.unsetSettings = .ok (s', previous)) :
    s.setSettings {} = .ok s' ∧ previous = s.settings := by
  simp only [unsetSettings, bind, Except.bind] at h
  split at h
  · cases h
  · rename_i reset hReset
    cases h
    exact ⟨hReset, rfl⟩

/-- **What every call keeps.** A property that every start, every advance and every successful
change of the settings keeps is kept by every call: a failed change of the settings leaves the
solver as it was, and a reset is the change to the default settings. -/
theorem call_preserves (P : SensitivitySolver R → Prop) {s : SensitivitySolver R} (hs : P s)
    (hStart : ∀ t0 x0 xDot0 xDotDot0, P (s.start t0 x0 xDot0 xDotDot0).1)
    (hAdvance : ∀ tFinal stop, P (s.advance tFinal stop).1)
    (hSet : ∀ {settings : Settings R} {s' : SensitivitySolver R},
      s.setSettings settings = .ok s' → P s')
    (c : Call R) : P (s.call c).1 := by
  cases c with
  | start t0 x0 xDot0 xDotDot0 => exact hStart t0 x0 xDot0 xDotDot0
  | advance tFinal stop => exact hAdvance tFinal stop
  | setSettings settings =>
    rcases hNew : s.setSettings settings with e | s'
    · simpa [call, hNew] using hs
    · simpa [call, hNew] using hSet hNew
  | unsetSettings =>
    rcases hUnset : s.unsetSettings with e | ⟨s', previous⟩
    · simpa [call, hUnset] using hs
    · simpa [call, hUnset] using hSet (unsetSettings_eq_ok hUnset).1

/-! ## §3 Freezing the adjoint equation and assembling -/

/-- A freeze that succeeds leaves the equation frozen at the forward phase's current state,
at the model's nominal parameters, and the adjoint phase started from `y = 0`. -/
theorem freezeAdjoint_ok {s s' : SensitivitySolver R} (h : s.freezeAdjoint = (s', .ok ())) :
    ∃ steady frozen adjoint,
      s.forward.history.current = some steady ∧
      s.equation.freezeAt steady s.model.nominalParameters = .ok frozen ∧
      s.adjoint.start (ε := AdjointError)
          (s.equation.model.stateDim, s.equation.model.responseDim s.equation.responseIndex) 0
          (Matrix.zeros s.equation.model.stateDim
            (s.equation.model.responseDim s.equation.responseIndex)) none none = .ok adjoint ∧
      s' = { s with equation := { s.equation with frozen := some frozen }, adjoint } := by
  cases hSteady : s.forward.history.current with
  | none => simp [freezeAdjoint, hSteady] at h
  | some steady =>
    cases hFrozen : s.equation.freezeAt steady s.model.nominalParameters with
    | error e => simp [freezeAdjoint, hSteady, AdjointEquation.freeze, hFrozen] at h
    | ok frozen =>
      cases hAdjoint : s.adjoint.start (ε := AdjointError)
          (s.equation.model.stateDim, s.equation.model.responseDim s.equation.responseIndex) 0
          (Matrix.zeros s.equation.model.stateDim
            (s.equation.model.responseDim s.equation.responseIndex)) none none with
      | error e =>
        simp [freezeAdjoint, hSteady, AdjointEquation.freeze, hFrozen, AdjointEquation.toOde,
          hAdjoint] at h
      | ok adjoint =>
        simp only [freezeAdjoint, hSteady, AdjointEquation.freeze, hFrozen, AdjointEquation.toOde,
          hAdjoint, Prod.mk.injEq] at h
        exact ⟨steady, frozen, adjoint, rfl, hFrozen, rfl, h.1.symm⟩

/-- A freeze that fails changes at most the equation: it is left as it was, thawed, or frozen
at the forward phase's current state. -/
theorem freezeAdjoint_error {s s' : SensitivitySolver R} {e : SolverError}
    (h : s.freezeAdjoint = (s', .error e)) :
    ∃ equation, s' = { s with equation } ∧
      (equation = s.equation ∨ equation = s.equation.thaw ∨
        ∃ steady frozen, s.forward.history.current = some steady ∧
          s.equation.freezeAt steady s.model.nominalParameters = .ok frozen ∧
          equation = { s.equation with frozen := some frozen }) := by
  cases hSteady : s.forward.history.current with
  | none =>
    simp only [freezeAdjoint, hSteady, Prod.mk.injEq] at h
    exact ⟨s.equation, h.1.symm, .inl rfl⟩
  | some steady =>
    cases hFrozen : s.equation.freezeAt steady s.model.nominalParameters with
    | error e' =>
      simp only [freezeAdjoint, hSteady, AdjointEquation.freeze, hFrozen, Prod.mk.injEq] at h
      exact ⟨_, h.1.symm, .inr (.inl rfl)⟩
    | ok frozen =>
      refine ⟨{ s.equation with frozen := some frozen }, ?_,
        .inr (.inr ⟨steady, frozen, rfl, hFrozen, rfl⟩)⟩
      revert h
      simp only [freezeAdjoint, hSteady, AdjointEquation.freeze, hFrozen]
      split <;> simp_all

/-- A freeze at the forward phase's current state that succeeds, followed by a start of the
adjoint phase that succeeds, leaves the equation frozen and the adjoint phase started. -/
theorem freezeAdjoint_of_freezeAt {s : SensitivitySolver R} {steady : SolutionState R}
    {frozen : Frozen R} {adjoint : Continuation R}
    (hSteady : s.forward.history.current = some steady)
    (hFrozen : s.equation.freezeAt steady s.model.nominalParameters = .ok frozen)
    (hAdjoint : s.adjoint.start (ε := AdjointError)
      (s.equation.model.stateDim, s.equation.model.responseDim s.equation.responseIndex) 0
      (Matrix.zeros s.equation.model.stateDim
        (s.equation.model.responseDim s.equation.responseIndex)) none none = .ok adjoint) :
    s.freezeAdjoint =
      ({ s with equation := { s.equation with frozen := some frozen }, adjoint }, .ok ()) := by
  simp [freezeAdjoint, hSteady, AdjointEquation.freeze, hFrozen, AdjointEquation.toOde, hAdjoint]

/-- An assembly that succeeds records the sensitivity of the adjoint phase's current state
and changes nothing else. -/
theorem assemble_eq_ok {s s' : SensitivitySolver R} (h : s.assemble = .ok s') :
    ∃ y dgdp, s.adjoint.history.current = some y ∧ s.equation.sensitivity y.x = .ok dgdp ∧
      s' = { s with dgdp := some dgdp } := by
  unfold assemble at h
  split at h
  · cases h
  · rename_i y hy
    split at h
    · cases h
    · rename_i dgdp hSensitivity
      cases h
      exact ⟨y, dgdp, hy, hSensitivity, rfl⟩

/-! ## §4 The inversion of `advance` -/

/-- What a call of `advance` does to a run ready for its forward phase, branch by branch. -/
inductive Advances (s : SensitivitySolver R) (tFinal : R)
    (stop : Phase → SolutionState R → R → Bool) : Outcome R → Prop where
  /-- The forward run stops on an error. -/
  | forwardError {forward : Continuation R} {events : List (Event R)}
      {e : SolveError ModelError}
      (hForward : s.forward.advance s.forwardOde tFinal (stop .forward) =
        (forward, events, .error e)) :
      Advances s tFinal stop ({ s with forward }.fail, events.map (Phase.forward, ·),
        .error (.forwardIntegration e))
  /-- The forward run ends without a steady state. -/
  | forwardFailed {forward : Continuation R} {events : List (Event R)}
      (hForward : s.forward.advance s.forwardOde tFinal (stop .forward) =
        (forward, events, .ok false)) :
      Advances s tFinal stop ({ s with forward }.fail, events.map (Phase.forward, ·), .ok false)
  /-- The forward run passes and the freeze fails. -/
  | freezeFailed {forward : Continuation R} {events : List (Event R)}
      {frozen : SensitivitySolver R} {e : SolverError}
      (hForward : s.forward.advance s.forwardOde tFinal (stop .forward) =
        (forward, events, .ok true))
      (hFreeze : { s with forward, stage := .forwardDone }.freezeAdjoint = (frozen, .error e)) :
      Advances s tFinal stop (frozen.fail, events.map (Phase.forward, ·), .error e)
  /-- The adjoint run stops on an error. -/
  | adjointError {forward : Continuation R} {events : List (Event R)}
      {frozen : SensitivitySolver R} {adjoint : Continuation R} {more : List (Event R)}
      {e : SolveError AdjointError}
      (hForward : s.forward.advance s.forwardOde tFinal (stop .forward) =
        (forward, events, .ok true))
      (hFreeze : { s with forward, stage := .forwardDone }.freezeAdjoint = (frozen, .ok ()))
      (hAdjoint : frozen.adjoint.advance frozen.equation.toOde frozen.settings.adjoint.finalTime
        (stop .adjoint) = (adjoint, more, .error e)) :
      Advances s tFinal stop ({ frozen with adjoint }.fail,
        events.map (Phase.forward, ·) ++ more.map (Phase.adjoint, ·),
        .error (.adjointIntegration e))
  /-- The adjoint run ends without a steady state. -/
  | adjointFailed {forward : Continuation R} {events : List (Event R)}
      {frozen : SensitivitySolver R} {adjoint : Continuation R} {more : List (Event R)}
      (hForward : s.forward.advance s.forwardOde tFinal (stop .forward) =
        (forward, events, .ok true))
      (hFreeze : { s with forward, stage := .forwardDone }.freezeAdjoint = (frozen, .ok ()))
      (hAdjoint : frozen.adjoint.advance frozen.equation.toOde frozen.settings.adjoint.finalTime
        (stop .adjoint) = (adjoint, more, .ok false)) :
      Advances s tFinal stop ({ frozen with adjoint }.fail,
        events.map (Phase.forward, ·) ++ more.map (Phase.adjoint, ·), .ok false)
  /-- Both runs pass and the assembly fails. -/
  | assemblyFailed {forward : Continuation R} {events : List (Event R)}
      {frozen : SensitivitySolver R} {adjoint : Continuation R} {more : List (Event R)}
      {e : SolverError}
      (hForward : s.forward.advance s.forwardOde tFinal (stop .forward) =
        (forward, events, .ok true))
      (hFreeze : { s with forward, stage := .forwardDone }.freezeAdjoint = (frozen, .ok ()))
      (hAdjoint : frozen.adjoint.advance frozen.equation.toOde frozen.settings.adjoint.finalTime
        (stop .adjoint) = (adjoint, more, .ok true))
      (hAssemble : { frozen with adjoint, stage := .adjointDone }.assemble = .error e) :
      Advances s tFinal stop ({ frozen with adjoint, stage := .adjointDone }.fail,
        events.map (Phase.forward, ·) ++ more.map (Phase.adjoint, ·), .error e)
  /-- Both runs pass and the sensitivity is assembled. -/
  | complete {forward : Continuation R} {events : List (Event R)}
      {frozen : SensitivitySolver R} {adjoint : Continuation R} {more : List (Event R)}
      {assembled : SensitivitySolver R}
      (hForward : s.forward.advance s.forwardOde tFinal (stop .forward) =
        (forward, events, .ok true))
      (hFreeze : { s with forward, stage := .forwardDone }.freezeAdjoint = (frozen, .ok ()))
      (hAdjoint : frozen.adjoint.advance frozen.equation.toOde frozen.settings.adjoint.finalTime
        (stop .adjoint) = (adjoint, more, .ok true))
      (hAssemble : { frozen with adjoint, stage := .adjointDone }.assemble = .ok assembled) :
      Advances s tFinal stop ({ assembled with stage := .complete, status := .passed },
        events.map (Phase.forward, ·) ++ more.map (Phase.adjoint, ·), .ok true)

/-- **`advance` on a run ready for its forward phase** does one of the things `Advances`
lists. -/
theorem advance_forwardReady (s : SensitivitySolver R) (tFinal : R)
    (stop : Phase → SolutionState R → R → Bool) (hReady : s.stage = .forwardReady) :
    Advances s tFinal stop (s.advance tFinal stop) := by
  have hNotConfigured : ¬ s.stage = .configured := by simp [hReady]
  have hNotTerminal : ¬ s.stage.isTerminal = true := by simp [hReady, Stage.isTerminal]
  rw [advance, if_neg hNotConfigured, if_neg hNotTerminal, runPhases, runForward, if_pos hReady]
  rcases hForward : s.forward.advance s.forwardOde tFinal (stop .forward) with
    ⟨forward, events, e | _ | _⟩
  · exact .forwardError hForward
  · exact .forwardFailed hForward
  · -- the forward run passed: the freeze, then the adjoint run, then the assembly
    simp only
    rw [runAdjoint, if_pos rfl]
    rcases hFreeze : { s with forward, stage := .forwardDone }.freezeAdjoint with
      ⟨frozen, e | ⟨⟩⟩
    · rw [hFreeze]
      simpa only [List.append_nil] using .freezeFailed hForward hFreeze
    rw [hFreeze]
    simp only
    rcases hAdjoint : frozen.adjoint.advance frozen.equation.toOde
        frozen.settings.adjoint.finalTime (stop .adjoint) with ⟨adjoint, more, e | _ | _⟩
    · exact .adjointError hForward hFreeze hAdjoint
    · exact .adjointFailed hForward hFreeze hAdjoint
    simp only
    rw [runAssembly, if_pos rfl]
    rcases hAssemble : { frozen with adjoint, stage := .adjointDone }.assemble with
      e | assembled
    · rw [hAssemble]
      exact .assemblyFailed hForward hFreeze hAdjoint hAssemble
    · rw [hAssemble]
      exact .complete hForward hFreeze hAdjoint hAssemble

/-- **A run whose phases all pass completes**: the forward run, the freeze, the adjoint run and
the assembly, each succeeding, make `advance` end the run complete with the assembled
sensitivity. This is the `complete` branch of `Advances` read forwards. -/
theorem advance_of_complete {s : SensitivitySolver R} {tFinal : R}
    {stop : Phase → SolutionState R → R → Bool} (hReady : s.stage = .forwardReady)
    {forward : Continuation R} {events : List (Event R)} {frozen : SensitivitySolver R}
    {adjoint : Continuation R} {more : List (Event R)} {assembled : SensitivitySolver R}
    (hForward : s.forward.advance s.forwardOde tFinal (stop .forward) =
      (forward, events, .ok true))
    (hFreeze : { s with forward, stage := .forwardDone }.freezeAdjoint = (frozen, .ok ()))
    (hAdjoint : frozen.adjoint.advance frozen.equation.toOde frozen.settings.adjoint.finalTime
      (stop .adjoint) = (adjoint, more, .ok true))
    (hAssemble : { frozen with adjoint, stage := .adjointDone }.assemble = .ok assembled) :
    s.advance tFinal stop = ({ assembled with stage := .complete, status := .passed },
      events.map (Phase.forward, ·) ++ more.map (Phase.adjoint, ·), .ok true) := by
  have hNotConfigured : ¬ s.stage = .configured := by simp [hReady]
  have hNotTerminal : ¬ s.stage.isTerminal = true := by simp [hReady, Stage.isTerminal]
  rw [advance, if_neg hNotConfigured, if_neg hNotTerminal, runPhases, runForward, if_pos hReady,
    hForward]
  simp only
  rw [runAdjoint, if_pos rfl, hFreeze]
  simp only
  rw [hAdjoint]
  simp only
  rw [runAssembly, if_pos rfl, hAssemble]

/-- `advance` before a run is started fails and changes nothing. -/
theorem advance_configured {s : SensitivitySolver R} {tFinal : R}
    {stop : Phase → SolutionState R → R → Bool} (h : s.stage = .configured) :
    s.advance tFinal stop = (s, [], .error (.notReady .configured)) := by
  simp [advance, h]

/-- `advance` on a run that has ended returns its outcome again and changes nothing. -/
theorem advance_terminal {s : SensitivitySolver R} {tFinal : R}
    {stop : Phase → SolutionState R → R → Bool} (h : s.stage.isTerminal = true) :
    s.advance tFinal stop = (s, [], .ok (decide (s.stage = .complete))) := by
  have hc : s.stage ≠ .configured := fun hc => by simp [hc, Stage.isTerminal] at h
  simp [advance, hc, h]

/-! ## §5 What a run keeps -/

/-- What a run leaves as it was: the settings, the models, and the models of the adjoint
equation. -/
def setup (s : SensitivitySolver R) :
    Settings R × ResidualModel R × Option (AdjointModel R) × ResidualModel R ×
      Option (AdjointModel R) :=
  (s.settings, s.model, s.adjointModel, s.equation.model, s.equation.adjointModel)

theorem runForward_setup (s : SensitivitySolver R) (tFinal : R)
    (stop : Phase → SolutionState R → R → Bool) : (s.runForward tFinal stop).1.setup = s.setup := by
  unfold runForward
  split
  · rcases s.forward.advance s.forwardOde tFinal (stop .forward) with ⟨forward, events, e | _ | _⟩
    all_goals rfl
  · rfl

theorem freezeAdjoint_setup (s : SensitivitySolver R) : s.freezeAdjoint.1.setup = s.setup := by
  rcases h : s.freezeAdjoint with ⟨s', _ | ⟨⟩⟩
  · obtain ⟨equation, rfl, rfl | rfl | ⟨_, _, _, _, rfl⟩⟩ := freezeAdjoint_error h <;> rfl
  · obtain ⟨_, _, _, _, _, _, rfl⟩ := freezeAdjoint_ok h
    rfl

theorem runAdjoint_setup (s : SensitivitySolver R) (stop : Phase → SolutionState R → R → Bool) :
    (s.runAdjoint stop).1.setup = s.setup := by
  unfold runAdjoint
  split
  · rw [← freezeAdjoint_setup s]
    rcases s.freezeAdjoint with ⟨frozen, _ | ⟨⟩⟩
    · rfl
    · dsimp only
      rcases frozen.adjoint.advance frozen.equation.toOde frozen.settings.adjoint.finalTime
        (stop .adjoint) with ⟨adjoint, events, e | _ | _⟩
      all_goals rfl
  · rfl

theorem runAssembly_setup (s : SensitivitySolver R) : s.runAssembly.1.setup = s.setup := by
  unfold runAssembly
  split
  · rcases h : s.assemble with e | assembled
    · rfl
    · obtain ⟨_, _, _, _, rfl⟩ := assemble_eq_ok h
      rfl
  · rfl

/-- **A call of `advance` keeps the settings and the models.** -/
theorem advance_setup (s : SensitivitySolver R) (tFinal : R)
    (stop : Phase → SolutionState R → R → Bool) : (s.advance tFinal stop).1.setup = s.setup := by
  -- the phases run one after the other, each keeping the setup of the one before
  have hPhases : (s.runPhases tFinal stop).1.setup = s.setup := by
    unfold runPhases
    rw [← runForward_setup s tFinal stop]
    rcases s.runForward tFinal stop with ⟨s1, events, e | _ | _⟩
    · rfl
    · rfl
    · dsimp only
      rw [← runAdjoint_setup s1 stop]
      rcases s1.runAdjoint stop with ⟨s2, more, e | _ | _⟩
      · rfl
      · rfl
      · exact runAssembly_setup s2
  unfold advance
  split
  · rfl
  split
  · rfl
  rw [← hPhases]
  rcases s.runPhases tFinal stop with ⟨s', events, e | _ | _⟩ <;> rfl

/-- A call of `start` keeps the settings, whether it succeeds or not. -/
theorem start_settings (s : SensitivitySolver R) (t0 : R) (x0 : Vec R)
    (xDot0 xDotDot0 : Option (Vec R)) :
    (s.start t0 x0 xDot0 xDotDot0).1.settings = s.settings := by
  unfold start
  dsimp only
  split
  · rfl
  · split <;> rfl

end SensitivitySolver

end SteadyAdjoint.Sensitivity
