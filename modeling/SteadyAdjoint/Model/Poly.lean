import SteadyAdjoint.Model.Basic

/-!
# The polynomial test model

A model of any size whose terms and faults are chosen freely, for exercising the solvers:

  `f = M · x_dot + A · x + c2 ∘ x² + c3 ∘ x³ - Σ_k B_k · p_k`,
  `g_r = C_r · x + Q_r · ½ (x · x) + Σ_k D_rk · p_k`.

Each evaluation can be made to fail (`PolyFaults`), and the operators can be replaced by
zero matrices of a chosen, possibly wrong, shape (`PolyShapes`), to drive the solvers into
their error paths. The residual and the responses refuse points whose parameter blocks do not
have the nominal count and lengths. Past its faults, an evaluation at a state or rate of the
wrong length is a breach: the products `M · x_dot`, `A · x` and `C · x` and the sum
`C + Q xᵀ` need the model's size exactly, and the Jacobian reads the first `n` entries of the
state.

`PolyAdjoint` is an adjoint model of the same family: `mass · α + J · β`, where `J` is a
given matrix with `2 c2 x + 3 c3 x²` added on its diagonal.
-/

namespace SteadyAdjoint

/-- One response of the polynomial model: `g = C · x + Q · ½ (x · x) + Σ_k D_k · p_k`. -/
structure PolyResponse (R : Type) where
  c : Matrix R
  q : Vec R
  d : Array (Matrix R)

/-- Evaluations that fail on purpose. -/
structure PolyFaults (R : Type) where
  residual : Bool := false
  jacobian : Bool := false
  parameterJacobian : Bool := false
  response : Bool := false
  responseGradient : Bool := false
  /-- The residual fails when the norm of the state exceeds this bound. -/
  residualAbove : Option R := none

/-- Operators replaced by zero matrices of the given shape. -/
structure PolyShapes where
  jacobian : Option (Nat × Nat) := none
  parameterJacobian : Option (Nat × Nat) := none
  dgDx : Option (Nat × Nat) := none
  dgDp : Option (Nat × Nat) := none

/-- The polynomial model. -/
structure Poly (R : Type) where
  a : Matrix R
  m : Matrix R
  c2 : Vec R
  c3 : Vec R
  params : Array (Vec R)
  b : Array (Matrix R)
  responses : Array (PolyResponse R)
  faults : PolyFaults R := {}
  shapes : PolyShapes := {}

namespace Poly

variable {R : Type} [Scalar R]

/-- The entry `i` of a vector, zero past its end. -/
def entry (v : Vec R) (i : Nat) : R := v.getD i 0

/-- Whether the point's parameter blocks have the nominal count and lengths. -/
def paramsMatch (poly : Poly R) (p : Point R) : Bool :=
  p.params.size == poly.params.size &&
    (List.range poly.params.size).all fun k =>
      (p.params.getD k #[]).size == (poly.params.getD k #[]).size

/-- Subtracts `B_k · p_k` for each block in order. -/
def subtractSources (poly : Poly R) (p : Point R) (f : Vec R) : Vec R :=
  (List.range poly.b.size).foldl (fun f k =>
    let bp := Vec.mulMatrix (poly.b.getD k (Matrix.zeros 0 0)) (p.params.getD k #[])
    Array.ofFn (n := f.size) fun i => f.getD i 0 - entry bp i) f

/-- `f = (M · x_dot + A · x) + (c2 x² + c3 x³)`, then the sources subtracted. -/
def residualValue (poly : Poly R) (p : Point R) : Vec R :=
  let mx := Vec.mulMatrix poly.m p.xDot
  let ax := Vec.mulMatrix poly.a p.x
  let f := Array.ofFn (n := poly.a.rows) fun i =>
    let x := entry p.x i
    entry mx i + entry ax i + (entry poly.c2 i * x * x + entry poly.c3 i * x * x * x)
  poly.subtractSources p f

/-- The residual, or the fault it was set up to raise. -/
def residual (poly : Poly R) (p : Point R) : Except ModelError (Vec R) :=
  if poly.faults.residual then .error .residualFailed
  else if (poly.faults.residualAbove.map fun limit => decide (limit < p.x.norm)).getD false then
    .error .stateNormAboveLimit
  else if !poly.paramsMatch p then .error .parameterShape
  else
    ModelError.within (p.x.size == poly.a.cols && p.xDot.size == poly.m.cols)
      (poly.residualValue p)

/-- `∂f/∂x`: `A` with `2 c2 x + 3 c3 x²` added on the diagonal. -/
def stateJacobian (poly : Poly R) (p : Point R) : Matrix R :=
  Matrix.ofFn poly.a.rows poly.a.cols fun i j =>
    if i = j then
      let x := entry p.x i
      poly.a.get i j + (2 * entry poly.c2 i * x + 3 * entry poly.c3 i * x * x)
    else poly.a.get i j

/-- `M · α + J · β`, entry by entry. -/
def jacobian (poly : Poly R) (p : Point R) (α β : R) : Except ModelError (Matrix R) :=
  if poly.faults.jacobian then .error .jacobianFailed
  else
    match poly.shapes.jacobian with
    | some (r, c) => .ok (Matrix.zeros r c)
    | none =>
      let j := poly.stateJacobian p
      ModelError.within (poly.a.rows ≤ p.x.size)
        (Matrix.ofFn j.rows j.cols fun r c => poly.m.get r c * α + j.get r c * β)

/-- `∂f/∂p_k = -B_k`. -/
def parameterJacobian (poly : Poly R) (k : Nat) : Except ModelError (Matrix R) :=
  if poly.faults.parameterJacobian then .error .parameterJacobianFailed
  else
    match poly.shapes.parameterJacobian with
    | some (r, c) => .ok (Matrix.zeros r c)
    | none =>
      match poly.b[k]? with
      | some b => .ok (-b)
      | none => .error .noParameterBlock

/-- `g_r = C · x + Q · h` with `h = ½ (x · x)`, then `D_k · p_k` added for each block. -/
def response (poly : Poly R) (r : Nat) (p : Point R) : Except ModelError (Vec R) :=
  if poly.faults.response then .error .responseFailed
  else if !poly.paramsMatch p then .error .parameterShape
  else
    match poly.responses[r]? with
    | none => .error .noResponse
    | some resp =>
      let h := 0.5 * p.x.dotSelf
      let cx := Vec.mulMatrix resp.c p.x
      let g := Array.ofFn (n := resp.c.rows) fun i => entry cx i + entry resp.q i * h
      ModelError.within (p.x.size == resp.c.cols)
        ((List.range resp.d.size).foldl (fun g k =>
          let dp := Vec.mulMatrix (resp.d.getD k (Matrix.zeros 0 0)) (p.params.getD k #[])
          Array.ofFn (n := g.size) fun i => g.getD i 0 + entry dp i) g)

/-- `∂g_r/∂x = C + Q xᵀ` and `∂g_r/∂p_k = D_k`. -/
def responseGradient (poly : Poly R) (r k : Nat) (p : Point R) :
    Except ModelError (ResponseGradient R) :=
  if poly.faults.responseGradient then .error .responseGradientFailed
  else
    match poly.responses[r]? with
    | none => .error .noResponse
    | some resp =>
      let dgDx : Except ModelError (Matrix R) := match poly.shapes.dgDx with
        | some (rr, cc) => .ok (Matrix.zeros rr cc)
        | none => ModelError.within (p.x.size == resp.c.cols) (Matrix.ofFn resp.c.rows resp.c.cols
            fun i j => resp.c.get i j + entry resp.q i * entry p.x j)
      dgDx.bind fun dgDx =>
        match poly.shapes.dgDp with
        | some (rr, cc) => .ok { dgDx, dgDp := Matrix.zeros rr cc }
        | none =>
          match resp.d[k]? with
          | some d => .ok { dgDx, dgDp := d }
          | none => .error .noParameterBlock

/-- The model record. -/
def toModel (poly : Poly R) : ResidualModel R where
  stateDim := poly.a.rows
  numParameters := poly.params.size
  parameterDim := fun k => (poly.params.getD k #[]).size
  numResponses := poly.responses.size
  responseDim := fun r => ((poly.responses[r]?).map fun resp => resp.c.rows).getD 0
  nominalParameters := poly.params
  residual := poly.residual
  jacobian := poly.jacobian
  parameterJacobian := fun k _ => poly.parameterJacobian k
  response := poly.response
  responseGradient := poly.responseGradient

end Poly

/-- An adjoint model `mass · α + J · β` where `J` is a matrix with `2 c2 x + 3 c3 x²` added
on its diagonal (for indices inside `J` and the state). -/
structure PolyAdjoint (R : Type) where
  jacobian : Matrix R
  mass : Matrix R
  c2 : Vec R
  c3 : Vec R
  fails : Bool := false

namespace PolyAdjoint

variable {R : Type} [Scalar R]

/-- The operator at a point. -/
def operator (adj : PolyAdjoint R) (p : Point R) (α β : R) : Except ModelError (Matrix R) :=
  if adj.fails then .error .adjointJacobianFailed
  else
    let n := min (min adj.jacobian.rows adj.jacobian.cols) p.x.size
    let j := Matrix.ofFn adj.jacobian.rows adj.jacobian.cols fun r c =>
      if r = c ∧ r < n then
        let x := Poly.entry p.x r
        adj.jacobian.get r c + (2 * Poly.entry adj.c2 r * x + 3 * Poly.entry adj.c3 r * x * x)
      else adj.jacobian.get r c
    .ok (Matrix.ofFn j.rows j.cols fun r c => adj.mass.get r c * α + j.get r c * β)

/-- The adjoint model record. -/
def toAdjointModel (adj : PolyAdjoint R) : AdjointModel R where
  adjointJacobian := adj.operator

end PolyAdjoint

end SteadyAdjoint
