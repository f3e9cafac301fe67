import SteadyAdjoint.Model.Basic

/-!
# Implicit problems

An implicit problem `F(t, X, X_dot) = 0` is what the integrator steps. Its state `X` has
`dim` rows and one column per direction; it offers the residual and the iteration matrix
`α · ∂F/∂X_dot + β · ∂F/∂X`, may declare itself linear (so that one factorisation serves
a whole step size), and may declare its mass matrix the identity (so that explicit steps
skip solving with it). Evaluations fail with errors of the problem's own type `ε`.

`ResidualModel.forwardProblem` poses a residual model at its nominal parameters as a
problem with one direction: the model is evaluated at the first columns of `X` and `X_dot`,
so a state or rate without any column is a breach.
-/

namespace SteadyAdjoint

/-- An implicit problem over numbers `R` whose evaluations may fail with an `ε`. -/
structure ImplicitOde (R : Type) (ε : Type) where
  dim : Nat
  directions : Nat := 1
  isLinear : Bool := false
  massIsIdentity : Bool := false
  residual : R → Matrix R → Matrix R → Except ε (Matrix R)
  jacobian : R → Matrix R → Matrix R → R → R → Except ε (Matrix R)

variable {R : Type} [Scalar R]

/-- The point of a model at time `t` for the first columns of `X` and `X_dot`. -/
def ResidualModel.pointOf (params : Array (Vec R)) (t : R) (x xDot : Matrix R) : Point R :=
  { time := t, x := x.col 0, xDot := xDot.col 0, params }

/-- An evaluation at the first columns of `X` and `X_dot`; a breach when either has none. -/
def ResidualModel.atFirstColumns {α : Type} (x xDot : Matrix R)
    (evaluation : Except ModelError α) : Except ModelError α :=
  if x.cols = 0 ∨ xDot.cols = 0 then .error .breach else evaluation

/-- A residual model as a one-direction problem at its nominal parameters. -/
def ResidualModel.forwardProblem (model : ResidualModel R) (identityMass : Bool) :
    ImplicitOde R ModelError where
  dim := model.stateDim
  massIsIdentity := identityMass
  residual := fun t x xDot => atFirstColumns x xDot <|
    (model.residual (pointOf model.nominalParameters t x xDot)).map Matrix.column
  jacobian := fun t x xDot α β => atFirstColumns x xDot <|
    model.jacobian (pointOf model.nominalParameters t x xDot) α β

end SteadyAdjoint
