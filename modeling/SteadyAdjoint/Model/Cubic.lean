import SteadyAdjoint.Model.Basic

/-!
# The cubic source model

One state `x` driven to `x + x³ = s` by a source `s`:

  `f = x_dot + x + x³ - s`,  `g = x²`.

The source is the only parameter, in a block of its own, and `g` is the only response. All
evaluations succeed at points that have the entries they read.
-/

namespace SteadyAdjoint

/-- The cubic source model with its source strength. -/
structure Cubic (R : Type) where
  source : R

namespace Cubic

variable {R : Type} [Scalar R]

/-- The first entry of a vector. -/
def first (v : Vec R) : R := v.getD 0 0

/-- The residual `((x_dot + x) + (x · x) · x) - s`. -/
def residual (p : Point R) : Vec R :=
  let x := first p.x
  #[first p.xDot + x + x * x * x - first (p.params.getD 0 #[])]

/-- `α + β · (1 + 3 · x · x)`. -/
def jacobian (p : Point R) (α β : R) : Matrix R :=
  let x := first p.x
  Matrix.ofFn 1 1 fun _ _ => α + β * (1 + 3 * x * x)

/-- The model record. -/
def toModel (c : Cubic R) : ResidualModel R where
  stateDim := 1
  numParameters := 1
  parameterDim := fun _ => 1
  numResponses := 1
  responseDim := fun _ => 1
  nominalParameters := #[#[c.source]]
  residual := fun p => ModelError.within (p.covers 1 1 [1]) (residual p)
  jacobian := fun p α β => ModelError.within (p.covers 1 0 []) (jacobian p α β)
  parameterJacobian := fun _ _ => .ok (Matrix.ofFn 1 1 fun _ _ => -1)
  response := fun _ p => ModelError.within (p.covers 1 0 []) #[first p.x * first p.x]
  responseGradient := fun _ _ p => ModelError.within (p.covers 1 0 [])
    { dgDx := Matrix.ofFn 1 1 fun _ _ => 2 * first p.x, dgDp := Matrix.zeros 1 1 }

end Cubic

end SteadyAdjoint
