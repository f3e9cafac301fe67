import SteadyAdjoint.Model.Cubic

/-!
# The reversible reactor model

Two species `a` and `b` in a flow reactor: `a` flows in at rate `k_in`, reacts reversibly to
`b` with rates `k_f` and `k_r`, and `b` leaves by a second-order outflow `k_out · b²`:

  `f = x_dot - (k_in - (k_f a - k_r b), (k_f a - k_r b) - k_out b²)`.

The four rates form one parameter block. Response `0` is `b` and every other response is
`a + b`. `Reactor.adjoint` is the adjoint model: the transposed Jacobian written out. The
residual subtracts the production rates from the rate as a whole, so it needs a rate of
exactly two entries; the other evaluations need the entries they read.
-/

namespace SteadyAdjoint

/-- The reversible reactor with its four rates. -/
structure Reactor (R : Type) where
  inflowRate : R
  forwardRate : R
  reverseRate : R
  outflowRate : R

namespace Reactor

variable {R : Type} [Scalar R]

/-- The rates `(k_in, k_f, k_r, k_out)` of the point's first parameter block. -/
def rates (p : Point R) : R × R × R × R :=
  let b := p.params.getD 0 #[]
  (b.getD 0 0, b.getD 1 0, b.getD 2 0, b.getD 3 0)

/-- The concentrations `(a, b)`. -/
def species (p : Point R) : R × R := (p.x.getD 0 0, p.x.getD 1 0)

/-- The residual: `x_dot` less the production rates. -/
def residual (p : Point R) : Vec R :=
  let (a, b) := species p
  let (kIn, kF, kR, kOut) := rates p
  let forward := kF * a - kR * b
  let production := #[kIn - forward, forward - kOut * b * b]
  #[p.xDot.getD 0 0 - production.getD 0 0, p.xDot.getD 1 0 - production.getD 1 0]

/-- `α · I + β · J` for a 2×2 matrix `J` given by rows, entry by entry. -/
def shifted (rows : Array (Array R)) (α β : R) : Matrix R :=
  Matrix.ofFn 2 2 fun i j =>
    (if i = j then (1 : R) else 0) * α + (rows.getD i #[]).getD j 0 * β

/-- `∂f/∂x = [[k_f, -k_r], [-k_f, k_r + 2 k_out b]]`. -/
def stateJacobian (p : Point R) : Array (Array R) :=
  let (_, b) := species p
  let (_, kF, kR, kOut) := rates p
  #[#[kF, -kR], #[-kF, kR + 2 * kOut * b]]

/-- Its transpose `[[k_f, -k_f], [-k_r, k_r + 2 k_out b]]`. -/
def stateJacobianTransposed (p : Point R) : Array (Array R) :=
  let (_, b) := species p
  let (_, kF, kR, kOut) := rates p
  #[#[kF, -kF], #[-kR, kR + 2 * kOut * b]]

/-- `∂f/∂(k_in, k_f, k_r, k_out)`. -/
def parameterJacobian (p : Point R) : Matrix R :=
  let (a, b) := species p
  let rows : Array (Array R) := #[#[-1, a, -b, 0], #[0, -a, b, b * b]]
  Matrix.ofFn 2 4 fun i j => (rows.getD i #[]).getD j 0

/-- The model record. -/
def toModel (m : Reactor R) : ResidualModel R where
  stateDim := 2
  numParameters := 1
  parameterDim := fun _ => 4
  numResponses := 2
  responseDim := fun _ => 1
  nominalParameters := #[#[m.inflowRate, m.forwardRate, m.reverseRate, m.outflowRate]]
  residual := fun p =>
    ModelError.within (p.covers 2 0 [4] && p.xDot.size == 2) (residual p)
  jacobian := fun p α β =>
    ModelError.within (p.covers 2 0 [4]) (shifted (stateJacobian p) α β)
  parameterJacobian := fun _ p =>
    ModelError.within (p.covers 2 0 []) (parameterJacobian p)
  response := fun r p =>
    let (a, b) := species p
    ModelError.within (p.covers 2 0 []) #[if r = 0 then b else a + b]
  responseGradient := fun r _ _ =>
    let row : Array R := if r = 0 then #[0, 1] else #[1, 1]
    .ok { dgDx := Matrix.ofFn 1 2 fun _ j => row.getD j 0, dgDp := Matrix.zeros 1 4 }

/-- The adjoint model of the reactor. -/
def adjoint : AdjointModel R where
  adjointJacobian := fun p α β =>
    ModelError.within (p.covers 2 0 [4]) (shifted (stateJacobianTransposed p) α β)

end Reactor

end SteadyAdjoint
