import SteadyAdjoint.Sensitivity.Equation

/-!
# The two-phase sensitivity solver

A `SensitivitySolver` computes the steady-state sensitivity `dg/dp` of a response to a
parameter block in two continuation runs:

1. the **forward** phase drives the model from an initial state to a steady state `x^s`;
2. the adjoint equation is frozen at `x^s`, and the **adjoint** phase drives it from `y = 0`
   to its own steady state `y^s`, always up to the adjoint final time;
3. the sensitivity `∂g/∂p - (y^s)ᵀ ∂f/∂p` is assembled.

Its `Stage` records how far a run has come. A run starts at `forwardReady` after
`start`, moves through `forwardDone` and `adjointDone` to `complete`, or stops at
`failed` in the phase that was running. A run that has ended is not resumed: `advance`
returns its outcome again. The results are only available once the run is complete.

Every operation that changes the solver returns the solver afterwards together with its
result, so a failed operation still shows what it changed before it failed.
-/

namespace SteadyAdjoint.Sensitivity

open SteadyAdjoint.Integrator

/-- The two phases of a run. -/
inductive Phase where
  | forward
  | adjoint
  deriving Repr, DecidableEq

/-- The lowercase name of a phase. -/
def Phase.name : Phase → String
  | .forward => "forward"
  | .adjoint => "adjoint"

/-- How far a run has come. -/
inductive Stage where
  | configured
  | forwardReady
  | forwardDone
  | adjointDone
  | complete
  | failed (phase : Phase)
  deriving Repr, DecidableEq

/-- The name of a stage in reports. -/
def Stage.name : Stage → String
  | .configured => "configured"
  | .forwardReady => "forward ready"
  | .forwardDone => "forward done"
  | .adjointDone => "adjoint done"
  | .complete => "complete"
  | .failed phase => "failed in " ++ phase.name ++ " phase"

/-- Whether a run at this stage has ended. -/
def Stage.isTerminal : Stage → Bool
  | .complete | .failed _ => true
  | _ => false

/-- Errors of the solver. -/
inductive SolverError where
  | settings (e : SettingsError)
  | adjoint (e : AdjointError)
  | forwardIntegration (e : SolveError ModelError)
  | adjointIntegration (e : SolveError AdjointError)
  | model (e : ModelError)
  | missingModel
  | notReady (stage : Stage)

/-- Whether an error is a breach, in the solver or in any part it comes from. -/
def SolverError.breaks : SolverError → Bool
  | .adjoint e => e.breaks
  | .forwardIntegration e => e.breaks ModelError.breaks
  | .adjointIntegration e => e.breaks AdjointError.breaks
  | .model e => e.breaks
  | _ => false

/-- The dotted name of an error's kind: `Integration.forward.Problem`. -/
def SolverError.kind : SolverError → String
  | .settings e => "Config." ++ e.kind
  | .adjoint e => "Adjoint." ++ e.kind
  | .forwardIntegration e => "Integration.forward." ++ e.kind
  | .adjointIntegration e => "Integration.adjoint." ++ e.kind
  | .model _ => "Model"
  | .missingModel => "MissingModel"
  | .notReady _ => "NotReady"

/-- The wording of an error. -/
def SolverError.message : SolverError → String
  | .settings e => e.message
  | .adjoint e => "adjoint equation error: " ++ e.message
  | .forwardIntegration e => "forward integration error: " ++ e.message ModelError.message
  | .adjointIntegration e => "adjoint integration error: " ++ e.message AdjointError.message
  | .model e => "model error: " ++ e.message
  | .missingModel => "no residual model was provided"
  | .notReady stage => "result is not available at stage '" ++ stage.name ++ "'"

/-- The state of a sensitivity computation. -/
structure SensitivitySolver (R : Type) [Scalar R] where
  model : ResidualModel R
  adjointModel : Option (AdjointModel R)
  settings : Settings R
  forward : Continuation R
  adjoint : Continuation R
  equation : AdjointEquation R
  stage : Stage := .configured
  status : Status := .working
  dgdp : Option (Matrix R) := none

namespace SensitivitySolver

variable {R : Type} [Scalar R]

/-- The forward continuation of the settings. -/
def buildForward (settings : Settings R) : Except SolverError (Continuation R) :=
  (Continuation.create settings.forward).mapError (.settings ∘ .forward)

/-- The unfrozen adjoint equation and its continuation. -/
def buildAdjoint (settings : Settings R) (model : ResidualModel R)
    (adjointModel : Option (AdjointModel R)) :
    Except SolverError (AdjointEquation R × Continuation R) := do
  let eq ← (AdjointEquation.create model adjointModel settings.options).mapError .adjoint
  let c ← (Continuation.create settings.adjoint).mapError (.settings ∘ .adjoint)
  pure (eq, c)

/-- A solver with validated settings, waiting for an initial state. -/
def create (settings : Settings R) (model : ResidualModel R)
    (adjointModel : Option (AdjointModel R)) : Except SolverError (SensitivitySolver R) := do
  settings.validate.mapError .settings
  let forward ← buildForward settings
  let (equation, adjoint) ← buildAdjoint settings model adjointModel
  pure { model, adjointModel, settings, forward, adjoint, equation }

/-- The forward problem: the model at its nominal parameters. -/
def forwardOde (s : SensitivitySolver R) : ImplicitOde R ModelError :=
  s.model.forwardProblem s.settings.options.massIdentity

/-- The current time in forward units: `T - τ` once complete, else the forward time. -/
def time (s : SensitivitySolver R) : R :=
  if s.stage = .complete then s.forward.time - s.adjoint.time else s.forward.time

/-- The accepted steps of both phases. -/
def index (s : SensitivitySolver R) : Nat := s.forward.index + s.adjoint.index

/-- Starts a run from an initial state; a previous run and its results are discarded. -/
def start (s : SensitivitySolver R) (t0 : R) (x0 : Vec R) (xDot0 xDotDot0 : Option (Vec R)) :
    SensitivitySolver R × Except SolverError Unit :=
  let dims := (s.model.stateDim, 1)
  match s.forward.start dims t0 (Matrix.column x0) (xDot0.map Matrix.column)
      (xDotDot0.map Matrix.column) with
  | .error e => (s, .error (.forwardIntegration e))
  | .ok forward =>
    let s := { s with forward }
    match buildAdjoint s.settings s.model s.adjointModel with
    | .error e => (s, .error e)
    | .ok (equation, adjoint) =>
      ({ s with equation, adjoint, dgdp := none, stage := .forwardReady, status := .working },
        .ok ())

/-- Marks the phase in progress as failed. -/
def fail (s : SensitivitySolver R) : SensitivitySolver R :=
  let phase := match s.stage with
    | .forwardReady => Phase.forward
    | .failed p => p
    | _ => Phase.adjoint
  { s with stage := .failed phase, status := .failed }

/-- Freezes the adjoint equation at the forward steady state and starts the adjoint phase
from `y = 0`. -/
def freezeAdjoint (s : SensitivitySolver R) : SensitivitySolver R × Except SolverError Unit :=
  match s.forward.history.current with
  | none => (s, .error (.notReady s.stage))
  | some steady =>
    let (equation, frozen) := s.equation.freeze steady s.model.nominalParameters
    let s := { s with equation }
    match frozen with
    | .error e => (s, .error (.adjoint e))
    | .ok () =>
      let ode := equation.toOde
      let y0 := Matrix.zeros ode.dim ode.directions
      match s.adjoint.start (ode.dim, ode.directions) 0 y0 none none with
      | .error e => (s, .error (.adjointIntegration e))
      | .ok adjoint => ({ s with adjoint }, .ok ())

/-- Assembles `dg/dp` from the steady adjoint solution. -/
def assemble (s : SensitivitySolver R) : Except SolverError (SensitivitySolver R) :=
  match s.adjoint.history.current with
  | none => .error (.notReady s.stage)
  | some y =>
    match s.equation.sensitivity y.x with
    | .error e => .error (.adjoint e)
    | .ok dgdp => .ok { s with dgdp := some dgdp }

/-- An accepted step of either phase. -/
abbrev PhaseEvent (R : Type) := Phase × Event R

/-- The outcome of an operation that runs phases: the solver afterwards, the accepted steps
in order, and whether the run is complete. -/
abbrev Outcome (R : Type) [Scalar R] :=
  SensitivitySolver R × List (PhaseEvent R) × Except SolverError Bool

/-- The forward phase, when it is the one to run. -/
def runForward (s : SensitivitySolver R) (tFinal : R)
    (stop : Phase → SolutionState R → R → Bool) : Outcome R :=
  if s.stage = .forwardReady then
    let (forward, events, r) := s.forward.advance s.forwardOde tFinal (stop .forward)
    let s := { s with forward }
    let events := events.map fun e => (Phase.forward, e)
    match r with
    | .error e => (s, events, .error (.forwardIntegration e))
    | .ok false => (s, events, .ok false)
    | .ok true => ({ s with stage := .forwardDone }, events, .ok true)
  else (s, [], .ok true)

/-- The adjoint phase, when it is the one to run: freeze, then advance to the adjoint final
time. -/
def runAdjoint (s : SensitivitySolver R) (stop : Phase → SolutionState R → R → Bool) :
    Outcome R :=
  if s.stage = .forwardDone then
    match s.freezeAdjoint with
    | (s, .error e) => (s, [], .error e)
    | (s, .ok ()) =>
      let (adjoint, events, r) :=
        s.adjoint.advance s.equation.toOde s.settings.adjoint.finalTime (stop .adjoint)
      let s := { s with adjoint }
      let events := events.map fun e => (Phase.adjoint, e)
      match r with
      | .error e => (s, events, .error (.adjointIntegration e))
      | .ok false => (s, events, .ok false)
      | .ok true => ({ s with stage := .adjointDone }, events, .ok true)
  else (s, [], .ok true)

/-- The assembly, when it is due. -/
def runAssembly (s : SensitivitySolver R) : SensitivitySolver R × Except SolverError Bool :=
  if s.stage = .adjointDone then
    match s.assemble with
    | .error e => (s, .error e)
    | .ok s => ({ s with stage := .complete, status := .passed }, .ok true)
  else (s, .ok true)

/-- Runs the phases that are due, in order, until one does not pass. -/
def runPhases (s : SensitivitySolver R) (tFinal : R)
    (stop : Phase → SolutionState R → R → Bool) : Outcome R :=
  match s.runForward tFinal stop with
  | (s, events, .ok true) =>
    match s.runAdjoint stop with
    | (s, more, .ok true) =>
      let (s, r) := s.runAssembly
      (s, events ++ more, r)
    | (s, more, r) => (s, events ++ more, r)
  | outcome => outcome

/-- Advances the run: the forward phase towards `tFinal`, then the adjoint phase, then the
assembly. `stop` asks to end a phase at an accepted state; a phase that does not pass fails
the run. -/
def advance (s : SensitivitySolver R) (tFinal : R)
    (stop : Phase → SolutionState R → R → Bool) : Outcome R :=
  if s.stage = .configured then (s, [], .error (.notReady s.stage))
  else if s.stage.isTerminal then (s, [], .ok (s.stage = .complete))
  else
    match s.runPhases tFinal stop with
    | (s, events, .ok true) => (s, events, .ok true)
    | (s, events, r) => (s.fail, events, r)

/-- Advances the forward phase to its configured final time, without stopping early. -/
def advanceToEnd (s : SensitivitySolver R) : Outcome R :=
  s.advance s.settings.forward.finalTime fun _ _ _ => false

/-- Fails unless the run is complete. -/
def requireComplete (s : SensitivitySolver R) : Except SolverError Unit :=
  if s.stage = .complete then .ok () else .error (.notReady s.stage)

/-- The forward steady state of a complete run. -/
def steadyState (s : SensitivitySolver R) : Except SolverError (SolutionState R) := do
  s.requireComplete
  match s.forward.history.current with
  | some state => pure state
  | none => throw (.notReady s.stage)

/-- The forward steady state `x^s`. -/
def x (s : SensitivitySolver R) : Except SolverError (Vec R) := do
  pure ((← s.steadyState).x.col 0)

/-- The time derivative at the forward steady state. -/
def xDot (s : SensitivitySolver R) : Except SolverError (Vec R) := do
  pure ((← s.steadyState).xDot.col 0)

/-- The second time derivative at the forward steady state, when known. -/
def xDotDot (s : SensitivitySolver R) : Except SolverError (Option (Vec R)) := do
  pure ((← s.steadyState).xDotDot.map (·.col 0))

/-- The selected response at the forward steady state. -/
def response (s : SensitivitySolver R) : Except SolverError (Vec R) := do
  let state ← s.steadyState
  let point : Point R :=
    { time := state.time, x := state.x.col 0, xDot := state.xDot.col 0,
      params := s.model.nominalParameters }
  (s.model.response s.settings.options.responseIndex point).mapError .model

/-- The sensitivity `dg/dp`: one row per response component, one column per parameter. -/
def sensitivity (s : SensitivitySolver R) : Except SolverError (Matrix R) :=
  match s.dgdp, s.stage with
  | some d, .complete => .ok d
  | _, _ => .error (.notReady s.stage)

/-- The steady adjoint solution `y^s`, one column per response component. -/
def adjointSolution (s : SensitivitySolver R) : Except SolverError (Matrix R) := do
  s.requireComplete
  match s.adjoint.history.current with
  | some state => pure state.x
  | none => throw (.notReady s.stage)

/-- Replaces the settings and rebuilds both phases; on an error nothing changes. -/
def setSettings (s : SensitivitySolver R) (settings : Settings R) :
    Except SolverError (SensitivitySolver R) := do
  settings.validate.mapError .settings
  let forward ← buildForward settings
  let (equation, adjoint) ← buildAdjoint settings s.model s.adjointModel
  pure { s with settings, forward, adjoint, equation, stage := .configured, status := .working,
                dgdp := none }

/-- Restores the default settings and returns the previous ones. -/
def unsetSettings (s : SensitivitySolver R) :
    Except SolverError (SensitivitySolver R × Settings R) := do
  let reset ← s.setSettings {}
  pure (reset, s.settings)

end SensitivitySolver

/-- Settings and models gathered step by step before a solver is built. -/
structure Builder (R : Type) [Scalar R] where
  settings : Settings R := {}
  model : Option (ResidualModel R) := none
  adjointModel : Option (AdjointModel R) := none

namespace Builder

variable {R : Type} [Scalar R]

/-- Sets the stepping scheme of both phases. -/
def withStepper (b : Builder R) (k : StepperKind) : Builder R :=
  { b with settings := { b.settings with forward := { b.settings.forward with stepper := k },
                                         adjoint := { b.settings.adjoint with stepper := k } } }

/-- Builds the solver; a model is required. -/
def build (b : Builder R) : Except SolverError (SensitivitySolver R) :=
  match b.model with
  | none => .error .missingModel
  | some model => SensitivitySolver.create b.settings model b.adjointModel

end Builder

end SteadyAdjoint.Sensitivity
