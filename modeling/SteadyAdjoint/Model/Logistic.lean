import SteadyAdjoint.Model.Cubic

/-!
# The harvested logistic model

Logistic growth at rate `r` towards a carrying capacity `k`, less a constant harvest `h`:

  `f = x_dot - r · x · (1 - x / k) + h`,  `g = x`.

The three rates form one parameter block `(r, k, h)`. All evaluations succeed at points that
have the entries they read.
-/

namespace SteadyAdjoint

/-- The harvested logistic model. -/
structure Logistic (R : Type) where
  growthRate : R
  carryingCapacity : R
  harvest : R

namespace Logistic

variable {R : Type} [Scalar R]

open SteadyAdjoint.Cubic (first)

/-- The rates `(r, k, h)` of the point's first parameter block. -/
def rates (p : Point R) : R × R × R :=
  let b := p.params.getD 0 #[]
  (b.getD 0 0, b.getD 1 0, b.getD 2 0)

/-- The residual `(x_dot - (r · x) · (1 - x / k)) + h`. -/
def residual (p : Point R) : Vec R :=
  let x := first p.x
  let (r, k, h) := rates p
  #[first p.xDot - r * x * (1 - x / k) + h]

/-- `α - (β · r) · (1 - 2 · x / k)`. -/
def jacobian (p : Point R) (α β : R) : Matrix R :=
  let x := first p.x
  let (r, k, _) := rates p
  Matrix.ofFn 1 1 fun _ _ => α - β * r * (1 - 2 * x / k)

/-- `∂f/∂(r, k, h) = (-x · (1 - x / k), -r · x · x / (k · k), 1)`. -/
def parameterJacobian (p : Point R) : Matrix R :=
  let x := first p.x
  let (r, k, _) := rates p
  let row := #[-x * (1 - x / k), -r * x * x / (k * k), 1]
  Matrix.ofFn 1 3 fun _ j => row.getD j 0

/-- The model record. -/
def toModel (m : Logistic R) : ResidualModel R where
  stateDim := 1
  numParameters := 1
  parameterDim := fun _ => 3
  numResponses := 1
  responseDim := fun _ => 1
  nominalParameters := #[#[m.growthRate, m.carryingCapacity, m.harvest]]
  residual := fun p => ModelError.within (p.covers 1 1 [3]) (residual p)
  jacobian := fun p α β => ModelError.within (p.covers 1 0 [2]) (jacobian p α β)
  parameterJacobian := fun _ p =>
    ModelError.within (p.covers 1 0 [2]) (parameterJacobian p)
  response := fun _ p => .ok p.x
  responseGradient := fun _ _ _ =>
    .ok { dgDx := Matrix.ofFn 1 1 fun _ _ => 1, dgDp := Matrix.zeros 1 3 }

end Logistic

end SteadyAdjoint
