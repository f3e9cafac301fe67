import SteadyAdjoint.Sensitivity.Settings
import SteadyAdjoint.Integrator.Continuation

/-!
# The adjoint equation

At a steady state `x^s` of `f(x_dot, x, p) = 0` the sensitivity of a response `g(x, p)` is

  `dg/dp = ∂g/∂p - (y^s)ᵀ · ∂f/∂p`,

where `y^s` is the steady state of the adjoint equation in reversed time `τ = T - t`,

  `(∂f/∂x_dot)ᵀ · y_dot + (∂f/∂x)ᵀ · y - (∂g/∂x)ᵀ = 0`,

whose coefficients are constant once they are evaluated at `x^s` ("frozen"). The state `y`
has one column per component of the response, and the equation is linear, so a stepper can
keep one factorisation per step size.

The transposed operators come from an `AdjointModel` when one is given, and otherwise from
the forward Jacobian, transposed. `freeze` evaluates them with the response gradients and
checks every shape; until it succeeds the equation is not ready and every evaluation fails.
The state it freezes at must have a single column; its rate needs at least one column, as the
model is evaluated at the first one, and a rate without any is a breach.
-/

namespace SteadyAdjoint.Sensitivity

open SteadyAdjoint.Integrator

/-- Which index of the model a sensitivity selects. -/
inductive IndexKind where
  | parameter
  | response
  deriving Repr, DecidableEq

/-- The lowercase name of an index kind. -/
def IndexKind.name : IndexKind → String
  | .parameter => "parameter"
  | .response => "response"

/-- Errors of the adjoint equation. -/
inductive AdjointError where
  | indexOutOfRange (kind : IndexKind) (index count : Nat)
  | dimensionMismatch (name : String) (expected actual : Nat × Nat)
  | massNotConstant
  | notReady
  | model (e : ModelError)
  | adjointModel (e : ModelError)
  | breach
  deriving Repr, DecidableEq

/-- Whether an error is a breach, of the equation or of a model it evaluated. -/
def AdjointError.breaks : AdjointError → Bool
  | .breach => true
  | .model e | .adjointModel e => e.breaks
  | _ => false

/-- The name of an error's kind. -/
def AdjointError.kind : AdjointError → String
  | .indexOutOfRange .. => "IndexOutOfRange"
  | .dimensionMismatch .. => "DimensionMismatch"
  | .massNotConstant => "MassMatrixNotConstant"
  | .notReady => "NotReady"
  | .model _ => "Model"
  | .adjointModel _ => "AdjointModel"
  | .breach => "Breach"

/-- The wording of an error. -/
def AdjointError.message : AdjointError → String
  | .indexOutOfRange kind index count =>
    kind.name ++ " index " ++ toString index ++ " is out of range: the model has " ++
      toString count
  | .dimensionMismatch name expected actual =>
    name ++ " has shape " ++ shapeText actual ++ ", expected " ++ shapeText expected
  | .massNotConstant => "adjoint sensitivities require a constant mass matrix"
  | .notReady => "adjoint operators are not frozen at a forward steady state"
  | .model e => "model error: " ++ e.message
  | .adjointModel e => "adjoint model error: " ++ e.message
  | .breach => "the state's rate has no column"

/-- The frozen coefficients: `(∂f/∂x)ᵀ`, `(∂f/∂x_dot)ᵀ` unless it is the identity,
`(∂g/∂x)ᵀ` and `∂g/∂p`. -/
structure Operators (R : Type) where
  jacobian : Matrix R
  mass : Option (Matrix R)
  responseGradient : Matrix R
  dgDp : Matrix R

namespace Operators

variable {R : Type} [Scalar R]

/-- The residual `(∂f/∂x)ᵀ y - (∂g/∂x)ᵀ + (∂f/∂x_dot)ᵀ y_dot`, where an identity mass
adds `y_dot` itself. -/
def residual (ops : Operators R) (y yDot : Matrix R) : Matrix R :=
  let r := ops.jacobian * y - ops.responseGradient
  match ops.mass with
  | some mass => r + mass * yDot
  | none => r + yDot

/-- The iteration matrix `β · (∂f/∂x)ᵀ + α · (∂f/∂x_dot)ᵀ`, where an identity mass adds
`α` on the diagonal. -/
def iteration (ops : Operators R) (α β : R) : Matrix R :=
  let w := ops.jacobian.scale β
  match ops.mass with
  | some mass => w + mass.scale α
  | none => Matrix.ofFn w.rows w.cols fun i j => if i = j then w.get i j + α else w.get i j

end Operators

/-- The point the equation is frozen at, with its coefficients. -/
structure Frozen (R : Type) where
  state : SolutionState R
  params : Array (Vec R)
  operators : Operators R

/-- The adjoint equation of a model for one parameter block and one response. -/
structure AdjointEquation (R : Type) where
  model : ResidualModel R
  adjointModel : Option (AdjointModel R)
  parameterIndex : Nat
  responseIndex : Nat
  massIdentity : Bool
  frozen : Option (Frozen R) := none

namespace AdjointEquation

variable {R : Type} [Scalar R]

/-- An index below a count. -/
def checkIndex (kind : IndexKind) (index count : Nat) : Except AdjointError Unit :=
  if index < count then .ok () else .error (.indexOutOfRange kind index count)

/-- A matrix of the expected shape. -/
def checkShape (name : String) (expected actual : Nat × Nat) : Except AdjointError Unit :=
  if expected = actual then .ok () else .error (.dimensionMismatch name expected actual)

/-- The unfrozen equation, once the mass matrix is known constant and both indices exist. -/
def create (model : ResidualModel R) (adjointModel : Option (AdjointModel R))
    (options : Options) : Except AdjointError (AdjointEquation R) := do
  if !options.massConstant then throw .massNotConstant
  checkIndex .parameter options.parameterIndex model.numParameters
  checkIndex .response options.responseIndex model.numResponses
  pure { model, adjointModel, parameterIndex := options.parameterIndex,
         responseIndex := options.responseIndex, massIdentity := options.massIdentity }

/-- Whether the coefficients are frozen. -/
def isFrozen (eq : AdjointEquation R) : Bool := eq.frozen.isSome

/-- The frozen coefficients. -/
def operators (eq : AdjointEquation R) : Except AdjointError (Operators R) :=
  match eq.frozen with
  | some f => .ok f.operators
  | none => .error .notReady

/-- `α · (∂f/∂x_dot)ᵀ + β · (∂f/∂x)ᵀ` at a point, from the adjoint model or
transposed. -/
def adjointOperator (eq : AdjointEquation R) (p : Point R) (α β : R) :
    Except AdjointError (Matrix R) :=
  match eq.adjointModel with
  | some adj => (adj.adjointJacobian p α β).mapError .adjointModel
  | none => ((eq.model.jacobian p α β).map Matrix.transpose).mapError .model

/-- The point of the model at a state, with the given parameter blocks. -/
def pointAt (state : SolutionState R) (params : Array (Vec R)) : Point R :=
  { time := state.time, x := state.x.col 0, xDot := state.xDot.col 0, params }

/-- Evaluates and checks the coefficients at a state. -/
def freezeAt (eq : AdjointEquation R) (state : SolutionState R) (params : Array (Vec R)) :
    Except AdjointError (Frozen R) := do
  let n := eq.model.stateDim
  checkShape "frozen state" (n, 1) state.x.shape
  if state.xDot.cols = 0 then throw .breach
  let point := pointAt state params
  let jacobian ← eq.adjointOperator point 0 1
  checkShape "df/dx" (n, n) jacobian.shape
  let mass ← if eq.massIdentity then pure none else do
    let mass ← eq.adjointOperator point 1 0
    checkShape "df/dx_dot" (n, n) mass.shape
    pure (some mass)
  let gradient ← (eq.model.responseGradient eq.responseIndex eq.parameterIndex point).mapError
    .model
  let ng := eq.model.responseDim eq.responseIndex
  let np := eq.model.parameterDim eq.parameterIndex
  checkShape "dg/dx" (ng, n) gradient.dgDx.shape
  checkShape "dg/dp" (ng, np) gradient.dgDp.shape
  pure { state, params, operators :=
    { jacobian, mass, responseGradient := gradient.dgDx.transpose, dgDp := gradient.dgDp } }

/-- Freezes the coefficients at a state; on an error the equation is left unfrozen. -/
def freeze (eq : AdjointEquation R) (state : SolutionState R) (params : Array (Vec R)) :
    (AdjointEquation R) × Except AdjointError Unit :=
  match eq.freezeAt state params with
  | .ok f => ({ eq with frozen := some f }, .ok ())
  | .error e => ({ eq with frozen := none }, .error e)

/-- Forgets the frozen coefficients. -/
def thaw (eq : AdjointEquation R) : AdjointEquation R := { eq with frozen := none }

/-- The residual of the frozen equation, once `y` and `y_dot` have the shape of the
response gradient. -/
def residual (eq : AdjointEquation R) (y yDot : Matrix R) : Except AdjointError (Matrix R) := do
  let ops ← eq.operators
  let shape := ops.responseGradient.shape
  checkShape "y" shape y.shape
  checkShape "y_dot" shape yDot.shape
  pure (ops.residual y yDot)

/-- The iteration matrix of the frozen equation. -/
def jacobian (eq : AdjointEquation R) (α β : R) : Except AdjointError (Matrix R) := do
  let ops ← eq.operators
  pure (ops.iteration α β)

/-- The sensitivity `∂g/∂p - yᵀ · ∂f/∂p` for an adjoint solution `y`, with `∂f/∂p`
evaluated at the frozen point. -/
def sensitivity (eq : AdjointEquation R) (y : Matrix R) : Except AdjointError (Matrix R) := do
  let frozen ← match eq.frozen with
    | some f => pure f
    | none => throw .notReady
  let ops := frozen.operators
  checkShape "y" ops.responseGradient.shape y.shape
  let point := pointAt frozen.state frozen.params
  let dfDp ← (eq.model.parameterJacobian eq.parameterIndex point).mapError .model
  checkShape "df/dp" (point.x.size, ops.dgDp.cols) dfDp.shape
  pure (ops.dgDp - y.transpose * dfDp)

/-- The equation as an implicit problem in `τ`: one column per response component, linear,
with the declared mass matrix. -/
def toOde (eq : AdjointEquation R) : ImplicitOde R AdjointError where
  dim := eq.model.stateDim
  directions := eq.model.responseDim eq.responseIndex
  isLinear := true
  massIsIdentity := eq.massIdentity
  residual := fun _ y yDot => eq.residual y yDot
  jacobian := fun _ _ _ α β => eq.jacobian α β

end AdjointEquation

end SteadyAdjoint.Sensitivity
