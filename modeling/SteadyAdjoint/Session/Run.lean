import SteadyAdjoint.Session.Adjoint
import SteadyAdjoint.Sensitivity.Solver
import SteadyAdjoint.Sensitivity.Report

/-!
# Sensitivity runs

A `run` request builds a sensitivity solver for a model, in one of the ways a solver can be
built (`construct`), and drives it with a list of operations: starting and advancing a run,
overriding the status, replacing the settings, reading the results, the histories, the
settings, the counters and the frozen operators, and reports.

The answer shows the solver right after it is built and after every operation: its stage,
status, time and step count, and a snapshot of each phase. An operation whose computation
breaches abandons the request.
-/

namespace SteadyAdjoint.Session

open SteadyAdjoint.Document
open SteadyAdjoint.Integrator
open SteadyAdjoint.Sensitivity

/-- An error of the solver. -/
def solverErrorNode (e : SolverError) : Node := errorNode e.kind e.message

/-- A solver's progress, with a snapshot of each phase. -/
def solverSnapshot (s : SensitivitySolver Float) : Node :=
  .table [("stage", .string s.stage.name), ("status", .string s.status.name),
    ("time", .ofFloat s.time), ("adjoint_time", .ofFloat s.adjoint.time),
    ("index", .ofNat s.index), ("forward", snapshot s.forward),
    ("adjoint", .table (snapshotEntries s.adjoint ++ [("frozen", .bool s.equation.isFrozen)]))]

/-- The stepping scheme named by the member `stepper` of a request part. -/
def readStepper (n : Node) : Reading StepperKind :=
  match (looseName n "stepper").bind fun name => stepperChoices.find? (·.1 = name) with
  | some (_, k) => .ok k
  | none => .error "stepper must be BackwardEuler or ForwardEuler"

/-- A stop request `{phase?, at_index}`: stop at the first accepted state with at least that
index of the phase named by the loose `phase` (of either phase when it is not a string; a
string that names no phase matches no state). -/
def readPhaseStop (n : Node) : Reading (Option String × Nat) := do
  pure (looseName n "phase", ← readStopIndex n)

/-- The level of detail named by an operation's loose `verbosity`; medium when it names
none. -/
def verbosityOf (op : Node) : Verbosity :=
  match looseName op "verbosity" with
  | some "low" => .low
  | some "high" => .high
  | _ => .medium

/-- The outcome of advancing a solver. -/
def solverPassedNode : Except SolverError Bool → Node
  | .ok b => .bool b
  | .error e => solverErrorNode e

/-- The events of both phases. -/
def phaseEventsNode (events : List (SensitivitySolver.PhaseEvent Float)) : Node :=
  .array (events.map fun (phase, e) => .table (("phase", .string phase.name) :: eventEntries e))

/-- The Newton settings. -/
def newtonNode (n : NewtonSettings Float) : Node :=
  .table [("MaxIters", .ofNat n.maxIters), ("AbsTol", .ofFloat n.absTol),
    ("RelTol", .ofFloat n.relTol)]

/-- The settings of the forward phase's stepper. -/
def stepperNode (s : Stepper Float) : Node :=
  .table [("kind", .string s.kind.name), ("implicit", .bool s.kind.isImplicit),
    ("name", .string s.kind.title), ("newton", newtonNode s.newton)]

/-- The step bounds and strategy of the forward phase. -/
def timeStepControlNode (c : StepControl Float) : Node :=
  .table [("InitialTimeStep", .ofFloat c.initialTimeStep), ("MinTimeStep", .ofFloat c.minTimeStep),
    ("MaxTimeStep", .ofFloat c.maxTimeStep), ("Strategy", .string c.strategy.name)]

/-- A history, or its newest states when the operation's loose `last` is a count. -/
def historyResult (op : Node) (h : History Float) : Node := historyNode h (looseCount op "last")

/-- The stop predicate of a phase stop. -/
def phaseStop (stop : Option (Option String × Nat)) (phase : Phase) (s : SolutionState Float)
    (_ : Float) : Bool :=
  match stop with
  | some (p, i) => (p.map fun q => decide (q = phase.name)).getD true && decide (i ≤ s.index)
  | none => false

/-- An operation's outcome from a result of the solver: abandoned on a breach. -/
def solverOutcome {α : Type} (s : SensitivitySolver Float) (r : Except SolverError α)
    (encode : α → Node) : OpOutcome (SensitivitySolver Float) :=
  match r with
  | .ok v => some (s, encode v)
  | .error e => unlessBroken e.breaks s (solverErrorNode e)

/-- One operation of a `run` request. -/
def runStep (s : SensitivitySolver Float) (op : Node) : OpOutcome (SensitivitySolver Float) :=
  match looseName op "do" with
  | some "init" =>
    match readStart op readVector with
    | .error m => some (s, badInput m)
    | .ok (t0, x0, xDot0, xDotDot0) =>
      let (s, r) := s.start t0 x0 xDot0 xDotDot0
      solverOutcome s r fun _ => .null
  | some "advance" =>
    let (s, _, r) := s.advanceToEnd
    solverOutcome s r .bool
  | some "advance_to" =>
    match required op "t" "advance_to needs t" readReal with
    | .error m => some (s, badInput m)
    | .ok t =>
      let (s, _, r) := s.advance t fun _ _ _ => false
      solverOutcome s r .bool
  | some "advance_observed" =>
    match required op "t" "advance_observed needs t" readReal, optional op "stop" readPhaseStop with
    | .error m, _ | _, .error m => some (s, badInput m)
    | .ok t, .ok stop =>
      let (s, events, r) := s.advance t (phaseStop stop)
      let broken := match r with
        | .error e => e.breaks
        | .ok _ => false
      unlessBroken broken s
        (.table [("passed", solverPassedNode r), ("events", phaseEventsNode events)])
  | some "set_status" =>
    match readStatus op with
    | .error m => some (s, badInput m)
    | .ok status => some ({ s with status }, .null)
  | some "set_config" =>
    match settingsOf settingsRecord {} op with
    | .error m => some (s, badInput m)
    | .ok (.error f) => some (s, f.failure)
    | .ok (.ok settings) =>
      match s.setSettings settings with
      | .ok s => some (s, .null)
      | .error e => unlessBroken e.breaks s (solverErrorNode e)
  | some "unset_config" =>
    match s.unsetSettings with
    | .ok (s, previous) => some (s, previous.toNode)
    | .error e => unlessBroken e.breaks s (solverErrorNode e)
  | some "config" => some (s, s.settings.toNode)
  | some "valid_config" => some (s, Settings.toNode {})
  | some "x" => solverOutcome s s.x vectorNode
  | some "x_dot" => solverOutcome s s.xDot vectorNode
  | some "x_dot_dot" => solverOutcome s s.xDotDot fun v => .ofOption (v.map vectorNode)
  | some "response" => solverOutcome s s.response vectorNode
  | some "dgdp" => solverOutcome s s.sensitivity matrixNode
  | some "adjoint_solution" => solverOutcome s s.adjointSolution matrixNode
  | some "forward_history" => some (s, historyResult op s.forward.history)
  | some "solution_history" => some (s, historyResult op s.forward.history)
  | some "adjoint_history" => some (s, historyResult op s.adjoint.history)
  | some "stepper" => some (s, stepperNode s.forward.stepper)
  | some "time_step_control" => some (s, timeStepControlNode s.forward.config.timeStepControl)
  | some "timers" =>
    some (s, .table [("integrator", .ofNat s.forward.calls),
      ("stepper", .ofNat s.forward.attempts), ("adjoint_integrator", .ofNat s.adjoint.calls),
      ("adjoint_stepper", .ofNat s.adjoint.attempts)])
  | some "frozen_operators" =>
    match s.equation.operators with
    | .ok ops => some (s, operatorsNode ops)
    | .error e => some (s, adjointErrorNode e)
  | some "describe" => some (s, .string (s.describe (verbosityOf op)))
  | some "display" => some (s, .string (s.describe .medium))
  | name => some (s, unknownOp name)

/-- The settings of a request part, or the answer when they cannot be read. -/
def readSettings (n : Node) : Except Node (Settings Float) := do
  let settings ← orAnswer (settingsOf settingsRecord {} n)
  settings.mapError Format.failure

/-- The adjoint model a construction needs. -/
def needAdjoint (adjointModel : Option (AdjointModel Float)) : Except Node (AdjointModel Float) :=
  match adjointModel with
  | some a => .ok a
  | none => .error (badInput "construct needs adjoint_model")

/-- Applies one builder step: new settings (`config` or `config_toml`), a stepper for both
phases, the model, or the adjoint model, chosen by the first of these keys the step has. -/
def builderStep (model : ResidualModel Float) (adjointModel : Option (AdjointModel Float))
    (b : Builder Float) (step : Node) : Except Node (Builder Float) :=
  if (member step "config").isSome || (member step "config_toml").isSome then do
    pure { b with settings := ← readSettings step }
  else if (member step "stepper").isSome then do
    pure (b.withStepper (← orAnswer (readStepper step)))
  else if (member step "model").isSome then pure { b with model := some model }
  else if (member step "adjoint_model").isSome then do
    pure { b with adjointModel := some (← needAdjoint adjointModel) }
  else throw (badInput "unknown builder step")

/-- Builds the solver the way the request's loose `construct` asks: by default `new` when
there is an adjoint model and `transposed` otherwise. A way reads only what it uses: the
settings, the adjoint model, the stepper or the builder steps. -/
def construct (req : Node) (model : ResidualModel Float)
    (adjointModel : Option (AdjointModel Float)) :
    Except Node (SensitivitySolver Float) := do
  let way := (looseName req "construct").getD
    (if adjointModel.isSome then "new" else "transposed")
  let built : Except SolverError (SensitivitySolver Float) ← match way with
    | "transposed" => do
      pure (SensitivitySolver.create (← readSettings req) model none)
    | "new" => do
      pure (SensitivitySolver.create (← readSettings req) model adjointModel)
    | "with_stepper" => do
      let k ← orAnswer (readStepper req)
      pure (SensitivitySolver.create (Settings.withStepper k) model none)
    | "with_adjoint_model" => do
      let settings ← readSettings req
      let a ← needAdjoint adjointModel
      pure (SensitivitySolver.create settings model (some a))
    | "with_adjoint_model_and_stepper" => do
      let a ← needAdjoint adjointModel
      let k ← orAnswer (readStepper req)
      pure (SensitivitySolver.create (Settings.withStepper k) model (some a))
    | "builder" => do
      let b ← (looseList req "builder").foldlM (builderStep model adjointModel) {}
      pure b.build
    | other => throw (badInput ("unknown construct " ++ other))
  built.mapError solverErrorNode

/-- Answers a `run` request. -/
def run (req : Node) : Node := answerOf do
  let fixture ← orAnswer (required req "model" "run needs model" readFixture)
  let adjointModel ← orAnswer (optional req "adjoint_model" fun v => readAdjointModel v fixture)
  let s ← construct req fixture.toModel adjointModel
  let ops := looseList req "ops"
  match runOps runStep solverSnapshot s ops with
  | some steps => pure (.table [("initial", solverSnapshot s), ("steps", .array steps)])
  | none => pure abandoned

end SteadyAdjoint.Session
