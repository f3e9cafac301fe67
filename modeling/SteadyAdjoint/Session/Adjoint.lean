import SteadyAdjoint.Session.Integrate
import SteadyAdjoint.Sensitivity.Equation

/-!
# The adjoint equation of a model

An `adjoint` request builds the adjoint equation of a model for the sensitivity options it
gives (`sensitivities`), with the transposed Jacobian or an explicit adjoint model, and
drives it with a list of operations: `info`, `freeze`, `thaw`, `operators`, `residual`,
`ode_residual`, `jacobian` and `sensitivity`. After every operation the answer shows whether
the equation is frozen, and at what time. A `freeze` at a rate without columns, or one whose
model evaluations breach, abandons the request.
-/

namespace SteadyAdjoint.Session

open SteadyAdjoint.Document
open SteadyAdjoint.Integrator
open SteadyAdjoint.Sensitivity

/-- An error of the adjoint equation. -/
def adjointErrorNode (e : AdjointError) : Node := errorNode e.kind e.message

/-- The frozen coefficients. -/
def operatorsNode (ops : Operators Float) : Node :=
  .table [("jacobian", matrixNode ops.jacobian), ("mass", .ofOption (ops.mass.map matrixNode)),
    ("response_gradient", matrixNode ops.responseGradient), ("dg_dp", matrixNode ops.dgDp)]

/-- An operation's outcome from a result of the adjoint equation: abandoned on a breach. -/
def adjointOutcome {α : Type} (eq : AdjointEquation Float) (r : Except AdjointError α)
    (toNode : α → Node) : OpOutcome (AdjointEquation Float) :=
  match r with
  | .ok v => some (eq, toNode v)
  | .error e => unlessBroken e.breaks eq (adjointErrorNode e)

/-- Whether the equation is frozen, and at what time. -/
def equationState (eq : AdjointEquation Float) : Node :=
  .table [("frozen", .bool eq.isFrozen),
    ("frozen_time", .ofOption (eq.frozen.map fun f => .ofFloat f.state.time))]

/-- The state an equation is frozen at, from a `freeze` operation. -/
def readFrozenPoint (op : Node) (nominal : Array (Vec Float)) :
    Reading (SolutionState Float × Array (Vec Float)) := do
  let x ← required op "x" "needs x" readMultivector
  let xDot ← withDefault op "x_dot" readMultivector (Matrix.zeros x.rows x.cols)
  let params ← (optional op "params" readParams).map (·.getD nominal)
  let time ← withDefault op "time" readReal 0
  pure ({ time, index := 0, dt := 0, x, xDot, xDotDot := none }, params)

/-- One operation of an `adjoint` request. -/
def adjointStep (eq : AdjointEquation Float) (op : Node) : OpOutcome (AdjointEquation Float) :=
  match looseName op "do" with
  | some "info" =>
    some (eq, .table [("dim", .ofNat eq.model.stateDim),
      ("directions", .ofNat (eq.model.responseDim eq.responseIndex)),
      ("is_linear", .bool true), ("mass_matrix_is_identity", .bool eq.massIdentity),
      ("parameter_index", .ofNat eq.parameterIndex),
      ("response_index", .ofNat eq.responseIndex),
      ("has_adjoint_model", .bool eq.adjointModel.isSome)])
  | some "freeze" =>
    match readFrozenPoint op eq.model.nominalParameters with
    | .error m => some (eq, badInput m)
    | .ok (state, params) =>
      let (eq, r) := eq.freeze state params
      adjointOutcome eq r fun _ => .null
  | some "thaw" => some (eq.thaw, .null)
  | some "operators" => adjointOutcome eq eq.operators operatorsNode
  | some "residual" =>
    match required op "y" "needs y" readMultivector,
        required op "y_dot" "needs y_dot" readMultivector with
    | .error m, _ | _, .error m => some (eq, badInput m)
    | .ok y, .ok yDot => adjointOutcome eq (eq.residual y yDot) matrixNode
  | some "ode_residual" =>
    match withDefault op "tau" readReal 0, required op "y" "needs y" readMultivector,
        required op "y_dot" "needs y_dot" readMultivector with
    | .error m, _, _ | _, .error m, _ | _, _, .error m => some (eq, badInput m)
    | .ok tau, .ok y, .ok yDot => adjointOutcome eq (eq.toOde.residual tau y yDot) matrixNode
  | some "jacobian" =>
    match withDefault op "alpha" readReal 0, withDefault op "beta" readReal 1 with
    | .error m, _ | _, .error m => some (eq, badInput m)
    | .ok α, .ok β => adjointOutcome eq (eq.jacobian α β) matrixNode
  | some "sensitivity" =>
    match required op "y" "needs y" readMultivector with
    | .error m => some (eq, badInput m)
    | .ok y => adjointOutcome eq (eq.sensitivity y) matrixNode
  | name => some (eq, unknownOp name)

/-- Answers an `adjoint` request. -/
def adjoint (req : Node) : Node := answerOf do
  let fixture ← orAnswer (required req "model" "adjoint needs model" readFixture)
  let options ← match member req "sensitivities" with
    | none | some .null => pure {}
    | some v => (recordOfValue optionsRecord v).mapError Format.failure
  let adjointModel ← orAnswer (optional req "adjoint_model" fun v => readAdjointModel v fixture)
  let eq ← (AdjointEquation.create fixture.toModel adjointModel options).mapError
    adjointErrorNode
  let ops := looseList req "ops"
  match runOps adjointStep equationState eq ops with
  | some steps => pure (.table [("steps", .array steps)])
  | none => pure abandoned

end SteadyAdjoint.Session
