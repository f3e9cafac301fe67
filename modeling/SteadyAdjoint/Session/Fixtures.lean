import SteadyAdjoint.Session.Values
import SteadyAdjoint.Model.Cubic
import SteadyAdjoint.Model.Logistic
import SteadyAdjoint.Model.Reactor
import SteadyAdjoint.Model.Poly

/-!
# Models of a request

A request names its model by `kind`:

* `poly` (the default) is the polynomial model of any size, given by its matrices
  (`A`, and optionally `M`, `c2`, `c3`, `params`, `B`, `responses`, `fail`, `bad`); every
  matrix must have the shape that `A` and the parameter blocks imply (an empty parameter
  block also takes a matrix without rows, a model of size zero a `C` without rows, and a
  response's block without entries any matrix without entries), a null `A` or `C` is read
  and refused while other null members count as absent, and the fault switches are loose;
* `cubic`, `logistic` and `reactor` are the small models with their named rates, every rate
  required and no other field allowed.

An adjoint model is either the reactor's own (for a reactor) or a polynomial adjoint. The
polynomial adjoint's operator defaults to `Aᵀ` for a polynomial model, and its mass matrix
and coefficients to the model's own when the operator has the model's number of rows (to
ones on the diagonal and zeros otherwise), so that `{"kind": "poly"}` is the exact
transpose.
-/

namespace SteadyAdjoint.Session

open SteadyAdjoint.Document

/-- A model named by a request. -/
inductive Fixture where
  | poly (p : Poly Float)
  | cubic (c : Cubic Float)
  | logistic (l : Logistic Float)
  | reactor (r : Reactor Float)

/-- The model record of a fixture. -/
def Fixture.toModel : Fixture → ResidualModel Float
  | .poly p => p.toModel
  | .cubic c => c.toModel
  | .logistic l => l.toModel
  | .reactor r => r.toModel

/-- The cubic model's fields. -/
def cubicRecord : Record (Cubic Float) where
  name := "Cubic"
  fields := [Field.real "Source" fun _ x => { source := x }]
  defaults := none
  blank := { source := 0 }

/-- The logistic model's fields. -/
def logisticRecord : Record (Logistic Float) where
  name := "Logistic"
  fields := [
    Field.real "GrowthRate" fun m x => { m with growthRate := x },
    Field.real "CarryingCapacity" fun m x => { m with carryingCapacity := x },
    Field.real "Harvest" fun m x => { m with harvest := x }]
  defaults := none
  blank := { growthRate := 0, carryingCapacity := 0, harvest := 0 }

/-- The reactor model's fields. -/
def reactorRecord : Record (Reactor Float) where
  name := "Reactor"
  fields := [
    Field.real "InflowRate" fun m x => { m with inflowRate := x },
    Field.real "ForwardRate" fun m x => { m with forwardRate := x },
    Field.real "ReverseRate" fun m x => { m with reverseRate := x },
    Field.real "OutflowRate" fun m x => { m with outflowRate := x }]
  defaults := none
  blank := { inflowRate := 0, forwardRate := 0, reverseRate := 0, outflowRate := 0 }

/-- A size in messages: `2x3`. -/
def sizeText (r c : Nat) : String := toString r ++ "x" ++ toString c

/-- A matrix that must have a given shape. -/
def checkedMatrix (name : String) (r c : Nat) (m : Matrix Float) : Reading (Matrix Float) :=
  if m.shape = (r, c) then .ok m else .error (name ++ " must be " ++ sizeText r c)

/-- A matrix of a parameter block, `r × c`: a matrix without rows (`[]`, or a shape
`[0, k]` for any `k`) also serves for an empty block (`c = 0`), as its `r × 0` zeros. -/
def checkedBlock (name : String) (r c : Nat) (m : Matrix Float) : Reading (Matrix Float) :=
  if m.shape = (r, c) then .ok m
  else if m.rows = 0 ∧ c = 0 then .ok (Matrix.zeros r c)
  else .error (name ++ " must be " ++ sizeText r c)

/-- A response's matrix of a parameter block, `r × c`: any matrix without entries also
serves where `r × c` has none, as its zeros. -/
def checkedResponseBlock (name : String) (r c : Nat) (m : Matrix Float) :
    Reading (Matrix Float) :=
  if m.shape = (r, c) then .ok m
  else if m.rows * m.cols = 0 ∧ r * c = 0 then .ok (Matrix.zeros r c)
  else .error (name ++ " must be " ++ sizeText r c)

/-- A vector that must have a given length. -/
def checkedVector (name : String) (n : Nat) (v : Vec Float) : Reading (Vec Float) :=
  if v.size = n then .ok v else .error (name ++ " must have length " ++ toString n)

/-- One matrix per parameter block under `key`, each with `rows` rows and the block's length
in columns, checked by `check` (`blockName k` names block `k` in messages); zeros when
absent. All matrices are read before their number and shapes are checked. -/
def readBlocks (n : Node) (key : String) (blockName : Nat → String)
    (check : String → Nat → Nat → Matrix Float → Reading (Matrix Float)) (rows : Nat)
    (params : Array (Vec Float)) : Reading (Array (Matrix Float)) := do
  match given n key with
  | none => pure (params.map fun p => Matrix.zeros rows p.size)
  | some (.array items) =>
    let ms ← items.mapM readMatrix
    if ms.length ≠ params.size then
      throw (key ++ " needs one matrix per parameter block")
    let blocks ← (List.range ms.length).mapM fun k =>
      check (blockName k) rows (params.getD k #[]).size (ms.getD k (Matrix.zeros 0 0))
    pure blocks.toArray
  | some _ => throw (key ++ " must be a list")

/-- One response of the polynomial model: `C` with the model's size in columns (for a model
of size zero, any `C` without rows), which fixes the response's size, and `Q` and `D` of that
size. -/
def readResponse (n : Nat) (params : Array (Vec Float)) (v : Node) :
    Reading (PolyResponse Float) := do
  let c ← required v "C" "response needs C" readMatrix
  let c ← if c.cols = n then pure c
    else if c.rows = 0 ∧ n = 0 then pure (Matrix.zeros 0 0)
    else throw ("C must have " ++ toString n ++ " columns")
  let q ← withDefault v "Q" readVector (Vec.zeros c.rows)
  let q ← checkedVector "Q" c.rows q
  let d ← readBlocks v "D" (fun _ => "D") checkedResponseBlock c.rows params
  pure { c, q, d }

/-- The faults of the polynomial model: loose switches, and the bound on the state's norm. -/
def readFaults (v : Node) : Reading (PolyFaults Float) := do
  pure {
    residual := looseFlag v "residual"
    jacobian := looseFlag v "jacobian"
    parameterJacobian := looseFlag v "parameter_jacobian"
    response := looseFlag v "response"
    responseGradient := looseFlag v "response_gradient"
    residualAbove := ← present v "residual_above" readReal }

/-- The replaced operator shapes of the polynomial model. -/
def readShapes (v : Node) : Reading PolyShapes := do
  pure {
    jacobian := ← optional v "jacobian" readShape
    parameterJacobian := ← optional v "parameter_jacobian" readShape
    dgDx := ← optional v "dg_dx" readShape
    dgDp := ← optional v "dg_dp" readShape }

/-- The polynomial model. -/
def readPoly (v : Node) : Reading (Poly Float) := do
  let a ← required v "A" "poly model needs A" readMatrix
  let n := a.rows
  let a ← checkedMatrix "A" n n a
  let m ← optional v "M" readMatrix
  let m ← checkedMatrix "M" n n (m.getD (Matrix.identity n))
  let c2 ← withDefault v "c2" readVector (Vec.zeros n)
  let c2 ← checkedVector "c2" n c2
  let c3 ← withDefault v "c3" readVector (Vec.zeros n)
  let c3 ← checkedVector "c3" n c3
  let params ← (optional v "params" readParams).map (·.getD #[])
  let b ← readBlocks v "B" (fun k => "B[" ++ toString k ++ "]") checkedBlock n params
  let responses ← match given v "responses" with
    | none =>
      pure #[{ c := Matrix.ofFn 1 n fun _ _ => 1, q := Vec.zeros 1,
               d := params.map fun p => Matrix.zeros 1 p.size }]
    | some (.array items) => do
      let rs ← items.mapM (readResponse n params)
      pure rs.toArray
    | some _ => throw "responses must be a list"
  let faults ← readFaults ((given v "fail").getD .null)
  let shapes ← readShapes ((given v "bad").getD .null)
  pure { a, m, c2, c3, params, b, responses, faults, shapes }

/-- A table without its `kind` entry. -/
def withoutKind (v : Node) : Node :=
  match v with
  | .table entries => .table (entries.filter (·.1 ≠ "kind"))
  | other => other

/-- A model with named rates. -/
def readRates {α : Type} (r : Record α) (v : Node) : Reading α :=
  (r.decode .value (withoutKind v)).mapError fun e => "model: " ++ e.message

/-- The model of a request. -/
def readFixture (v : Node) : Reading Fixture := do
  match (looseName v "kind").getD "poly" with
  | "poly" => Fixture.poly <$> readPoly v
  | "cubic" => Fixture.cubic <$> readRates cubicRecord v
  | "logistic" => Fixture.logistic <$> readRates logisticRecord v
  | "reactor" => Fixture.reactor <$> readRates reactorRecord v
  | other => throw ("unknown model kind " ++ other)

/-- A matrix with ones on its diagonal, of any shape. -/
def diagonalOnes (r c : Nat) : Matrix Float := Matrix.ofFn r c fun i j => if i = j then 1 else 0

/-- A coefficient vector of the polynomial adjoint, of length `n`: the model's own `own` when
absent and the model has one, zeros when absent otherwise or null. -/
def adjointCoefficient (v : Node) (key : String) (own : Option (Vec Float)) (n : Nat) :
    Reading (Vec Float) :=
  match member v key, own with
  | none, some c => .ok c
  | _, _ => do checkedVector key n (← withDefault v key readVector (Vec.zeros n))

/-- The polynomial adjoint of a request, with its defaults taken from the model. -/
def readPolyAdjoint (v : Node) (forward : Fixture) : Reading (PolyAdjoint Float) := do
  let stated ← present v "jacobian" readMatrix
  let jacobian ← match stated, forward with
    | some j, _ => pure j
    | none, .poly p => pure p.a.transpose
    | none, _ => throw "adjoint jacobian required"
  let own : Option (Poly Float) := match forward with
    | .poly p => if p.a.rows = jacobian.rows then some p else none
    | _ => none
  let mass ← present v "mass" readMatrix
  let mass := mass.getD
    ((own.map (·.m.transpose)).getD (diagonalOnes jacobian.rows jacobian.cols))
  let c2 ← adjointCoefficient v "c2" (own.map (·.c2)) jacobian.rows
  let c3 ← adjointCoefficient v "c3" (own.map (·.c3)) jacobian.rows
  let fails := looseFlag v "fail"
  if mass.shape ≠ jacobian.shape then throw "adjoint mass and jacobian shapes differ"
  pure { jacobian, mass, c2, c3, fails }

/-- The adjoint model of a request. -/
def readAdjointModel (v : Node) (forward : Fixture) : Reading (AdjointModel Float) := do
  match (looseName v "kind").getD "poly", forward with
  | "reactor", .reactor _ => pure Reactor.adjoint
  | "reactor", _ => throw "reactor adjoint needs a reactor model"
  | "poly", _ => PolyAdjoint.toAdjointModel <$> readPolyAdjoint v forward
  | other, _ => throw ("unknown adjoint kind " ++ other)

end SteadyAdjoint.Session
