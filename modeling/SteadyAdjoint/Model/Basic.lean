import SteadyAdjoint.Linear.Matrix

/-!
# Residual models

A residual model describes a steady problem `f(x_dot, x, p, t) = 0` together with response
functions `g(x, p)` whose sensitivities to the parameters are wanted. It is given as a record
of its evaluations at a `Point`: the residual, the iteration matrix
`α · ∂f/∂x_dot + β · ∂f/∂x`, the parameter Jacobian of one parameter block, a response, and
the gradients of a response. Any evaluation may fail with a `ModelError`. The numbers are
those of any `Scalar`.

An evaluation at a point too short for what it reads (an entry past the end of the state, the
rate or a parameter block, or a product of a matrix with a vector of another length) is not
carried out: it ends with the error `breach`, which abandons the computation it belongs to.

An `AdjointModel` supplies the adjoint iteration matrix directly, for models whose transposed
Jacobian is known in closed form.
-/

namespace SteadyAdjoint

/-- Where a model is evaluated: a time, a state, its time derivative and the parameter
blocks. -/
structure Point (R : Type) where
  time : R
  x : Vec R
  xDot : Vec R
  params : Array (Vec R)

/-- The gradients of a response: `∂g/∂x` (one row per response component) and `∂g/∂p` for
one parameter block. -/
structure ResponseGradient (R : Type) where
  dgDx : Matrix R
  dgDp : Matrix R

/-- Why a model evaluation failed. -/
inductive ModelError where
  | residualFailed
  | stateNormAboveLimit
  | parameterShape
  | jacobianFailed
  | parameterJacobianFailed
  | noParameterBlock
  | responseFailed
  | noResponse
  | responseGradientFailed
  | adjointJacobianFailed
  | breach
  deriving Repr, DecidableEq

/-- The wording of a model error. -/
def ModelError.message : ModelError → String
  | .residualFailed => "residual failed"
  | .stateNormAboveLimit => "residual: state norm above limit"
  | .parameterShape => "parameter blocks have the wrong shape"
  | .jacobianFailed => "jacobian failed"
  | .parameterJacobianFailed => "parameter jacobian failed"
  | .noParameterBlock => "no such parameter block"
  | .responseFailed => "response failed"
  | .noResponse => "no such response"
  | .responseGradientFailed => "response gradient failed"
  | .adjointJacobianFailed => "adjoint jacobian failed"
  | .breach => "the point is too short for the evaluation"

/-- Whether an error is a breach. -/
def ModelError.breaks (e : ModelError) : Bool := e == .breach

/-- Whether a point has at least `state` entries of the state, `rate` entries of the rate,
and leading parameter blocks at least as long as `blocks`: what an evaluation reading those
entries needs. -/
def Point.covers {R : Type} (p : Point R) (state rate : Nat) (blocks : List Nat) : Bool :=
  state ≤ p.x.size && rate ≤ p.xDot.size && blocks.length ≤ p.params.size &&
    (List.range blocks.length).all fun k => blocks.getD k 0 ≤ (p.params.getD k #[]).size

/-- A value computed where the point covers what it reads, a breach elsewhere. -/
def ModelError.within {α : Type} (covered : Bool) (value : α) : Except ModelError α :=
  if covered then .ok value else .error .breach

/-- A residual model with its parameter blocks and response functions. -/
structure ResidualModel (R : Type) where
  /-- Length of the state. -/
  stateDim : Nat
  /-- Number of parameter blocks. -/
  numParameters : Nat
  /-- Length of a parameter block. -/
  parameterDim : Nat → Nat
  /-- Number of response functions. -/
  numResponses : Nat
  /-- Number of components of a response function. -/
  responseDim : Nat → Nat
  /-- The parameter blocks the model is solved at. -/
  nominalParameters : Array (Vec R)
  /-- `f(x_dot, x, p, t)`. -/
  residual : Point R → Except ModelError (Vec R)
  /-- `α · ∂f/∂x_dot + β · ∂f/∂x`. -/
  jacobian : Point R → R → R → Except ModelError (Matrix R)
  /-- `∂f/∂p_k` for the parameter block `k`. -/
  parameterJacobian : Nat → Point R → Except ModelError (Matrix R)
  /-- The response function `g_r`. -/
  response : Nat → Point R → Except ModelError (Vec R)
  /-- The gradients of `g_r` with respect to the state and to the parameter block `k`. -/
  responseGradient : Nat → Nat → Point R → Except ModelError (ResponseGradient R)

/-- An adjoint model: `α · (∂f/∂x_dot)* + β · (∂f/∂x)*` in closed form. -/
structure AdjointModel (R : Type) where
  adjointJacobian : Point R → R → R → Except ModelError (Matrix R)

end SteadyAdjoint
