import SteadyAdjoint.Session.Snapshots
import SteadyAdjoint.Session.Fixtures
import SteadyAdjoint.Session.Documents
import SteadyAdjoint.Integrator.Problem

/-!
# Integrating a model

An `integrate` request poses a model as a one-direction implicit problem at its nominal
parameters and drives a continuation over it with a list of operations: `init`, `advance`,
`advance_to`, `advance_observed`, `set_status`, `history`, and `ode_info`, `ode_residual`,
`ode_jacobian`, which evaluate the problem directly.

The answer shows the continuation right after it is created and after every operation, or
is `abandoned` when an operation breaches: an evaluation at a state without columns or of a
length the model cannot read, or a step whose linear system cannot be posed.
-/

namespace SteadyAdjoint.Session

open SteadyAdjoint.Document
open SteadyAdjoint.Integrator

/-- The outcome of advancing: whether a steady state was reached, or the error. -/
def passedNode {ε : Type} (describe : ε → String) : Except (SolveError ε) Bool → Node
  | .ok b => .bool b
  | .error e => solveErrorNode describe e

/-- A stop request `{at_index}`: stop at the first accepted state with at least that index. -/
def readStopIndex (n : Node) : Reading Nat :=
  match looseCount n "at_index" with
  | some i => .ok i
  | none => .error "stop needs at_index"

/-- The start of a run: `x0`, then `t0` and the optional derivatives. -/
def readStart {α : Type} (op : Node) (read : Node → Reading α) :
    Reading (Float × α × Option α × Option α) := do
  let x0 ← required op "x0" "init needs x0" read
  let t0 ← withDefault op "t0" readReal 0
  let xDot0 ← optional op "x_dot0" read
  let xDotDot0 ← optional op "x_dot_dot0" read
  pure (t0, x0, xDot0, xDotDot0)

/-- A point of the problem: `t`, `x`, and `x_dot` (zeros like `x` by default). -/
def readProblemPoint (op : Node) : Reading (Float × Matrix Float × (Matrix Float)) := do
  let t ← withDefault op "t" readReal 0
  let x ← required op "x" "needs x" readMultivector
  let xDot ← withDefault op "x_dot" readMultivector (Matrix.zeros x.rows x.cols)
  pure (t, x, xDot)

/-- A model evaluation's answer: the matrix or the model's error. -/
def evaluationNode (r : Except ModelError (Matrix Float)) : Node :=
  match r with
  | .ok m => matrixNode m
  | .error e => errorNode "Model" e.message

/-- One operation of an `integrate` request. -/
def integrateStep (model : ResidualModel Float) (ode : ImplicitOde Float ModelError)
    (c : Continuation Float) (op : Node) : OpOutcome (Continuation Float) :=
  let describe := ModelError.message
  let advanced (r : Except (SolveError ModelError) Bool) : Bool :=
    match r with
    | .error e => e.breaks ModelError.breaks
    | .ok _ => false
  match looseName op "do" with
  | some "init" =>
    match readStart op readMultivector with
    | .error m => some (c, badInput m)
    | .ok (t0, x0, xDot0, xDotDot0) =>
      match c.start (ode.dim, ode.directions) t0 x0 xDot0 xDotDot0 with
      | .ok c => some (c, .null)
      | .error e => some (c, solveErrorNode describe e)
  | some "advance" =>
    let (c, _, r) := c.advanceToEnd ode
    unlessBroken (advanced r) c (passedNode describe r)
  | some "advance_to" =>
    match required op "t" "advance_to needs t" readReal with
    | .error m => some (c, badInput m)
    | .ok t =>
      let (c, _, r) := c.advance ode t fun _ _ => false
      unlessBroken (advanced r) c (passedNode describe r)
  | some "advance_observed" =>
    match required op "t" "advance_observed needs t" readReal, optional op "stop" readStopIndex with
    | .error m, _ | _, .error m => some (c, badInput m)
    | .ok t, .ok stop =>
      let stopAt : SolutionState Float → Float → Bool := fun s _ =>
        match stop with
        | some i => decide (i ≤ s.index)
        | none => false
      let (c, events, r) := c.advance ode t stopAt
      unlessBroken (advanced r) c (.table [("passed", passedNode describe r),
        ("events", .array (events.map fun e => .table (eventEntries e)))])
  | some "set_status" =>
    match readStatus op with
    | .error m => some (c, badInput m)
    | .ok status => some ({ c with status }, .null)
  | some "history" => some (c, historyNode c.history (looseCount op "last"))
  | some "ode_info" =>
    some (c, .table [("dim", .ofNat ode.dim), ("directions", .ofNat ode.directions),
      ("is_linear", .bool ode.isLinear), ("mass_matrix_is_identity", .bool ode.massIsIdentity),
      ("params", vectorsNode model.nominalParameters)])
  | some "ode_residual" =>
    match readProblemPoint op with
    | .error m => some (c, badInput m)
    | .ok (t, x, xDot) => evaluation c (ode.residual t x xDot)
  | some "ode_jacobian" =>
    match readProblemPoint op, withDefault op "alpha" readReal 0,
        withDefault op "beta" readReal 1 with
    | .error m, _, _ | _, .error m, _ | _, _, .error m => some (c, badInput m)
    | .ok (t, x, xDot), .ok α, .ok β => evaluation c (ode.jacobian t x xDot α β)
  | name => some (c, unknownOp name)
where
  /-- A model evaluation's outcome: its answer, or the request abandoned on a breach. -/
  evaluation (c : Continuation Float) (r : Except ModelError (Matrix Float)) :
      OpOutcome (Continuation Float) :=
    match r with
    | .error .breach => none
    | r => some (c, evaluationNode r)

/-- Answers an `integrate` request. -/
def integrate (req : Node) : Node := answerOf do
  let fixture ← orAnswer (required req "model" "integrate needs model" readFixture)
  let identityMass := looseFlag req "identity_mass"
  let config ← orAnswer (settingsOf configRecord {} req)
  let config ← config.mapError Format.failure
  let c ← (Continuation.create config).mapError fun e => errorNode e.kind e.message
  let ops := looseList req "ops"
  let model := fixture.toModel
  let ode := model.forwardProblem identityMass
  match runOps (integrateStep model ode) snapshot c ops with
  | some steps => pure (.table [("initial", snapshot c), ("steps", .array steps)])
  | none => pure abandoned

end SteadyAdjoint.Session
