import SteadyAdjoint.Linear.Matrix

/-!
# LU factorisation with partial pivoting

`Matrix.factor` writes a square matrix as `P · A = L · U` in place: `U` on and above the
diagonal, the multipliers of `L` (whose diagonal is one) below it, and `P` as the list of row
swaps made. For column `i` the pivot is the first row at or below `i` whose entry has the
largest magnitude; a column without a nonzero entry there is left as it is. Multipliers are
the entries times the reciprocal of the pivot, and the rest of the rows is updated column by
column as `a[r][c] + (-u[i][c]) · l[r]`.

`Factors.solve` solves `A · X = B` for every column of `B`: the swaps, then forward
substitution with the unit diagonal, then back substitution from the last row up, each
unknown `b[i] / u[i][i]` removed from the rows above it. The system is singular, and the
solve fails, exactly when a diagonal entry of `U` equals zero; an infinite or NaN diagonal
entry is not singular. A system that cannot be posed at all (a matrix that is not square,
has another number of rows than `B`, or is empty while `B` has a column) is refused as
misshapen before anything is computed.
-/

namespace SteadyAdjoint

/-- A factorisation `P · A = L · U`: the combined factors, the row swaps in order, and the
shape of the factored matrix `A`. -/
structure Factors (R : Type) where
  lu : Matrix R
  swaps : List (Nat × Nat)
  shape : Nat × Nat

/-- Why a solve gives no solution. -/
inductive SolveFailure where
  /-- A diagonal entry of `U` is zero. -/
  | singular
  /-- The system cannot be posed: the factored matrix is not square, has another number of
  rows than the right-hand side, or is empty while a right-hand column is asked for. -/
  | misshapen
  deriving Repr, DecidableEq

variable {R : Type}

namespace Grid

/-- Replaces the entry at row `i`, column `j` of a row-major array of width `n`. -/
def write (a : Array R) (n i j : Nat) (x : R) : Array R :=
  a.setIfInBounds (i * n + j) x

theorem size_write (a : Array R) (n i j : Nat) (x : R) :
    (write a n i j x).size = a.size := by
  simp [write]

variable [Scalar R]

/-- The entry at row `i`, column `j` (zero outside the array). -/
def read (a : Array R) (n i j : Nat) : R := a.getD (i * n + j) 0

/-- Swaps rows `i` and `k` of a matrix with `n` columns. -/
def swapRows (a : Array R) (n i k : Nat) : Array R :=
  (List.range n).foldl (fun a j =>
    let x := read a n i j
    let y := read a n k j
    write (write a n i j y) n k j x) a

theorem size_swapRows (a : Array R) (n i k : Nat) : (swapRows a n i k).size = a.size := by
  unfold swapRows
  generalize List.range n = js
  induction js generalizing a with
  | nil => rfl
  | cons j js ih => simp only [List.foldl_cons]; rw [ih]; simp [size_write]

end Grid

open Grid

variable [Scalar R]

/-- The first row at or below `i` whose entry in column `i` has the largest magnitude. -/
def pivotRow (a : Array R) (n i : Nat) : Nat :=
  (List.range (n - i - 1)).foldl (fun best k =>
    let r := i + 1 + k
    if Scalar.abs (read a n best i) < Scalar.abs (read a n r i) then r else best) i

/-- One elimination step at column `i` of an `n × n` array whose pivot `diag` is nonzero:
scales the multipliers below the pivot, then updates the trailing columns one by one. -/
def eliminate (a : Array R) (n i : Nat) (diag : R) : Array R :=
  let inv := 1 / diag
  let below := (List.range (n - i - 1)).map (i + 1 + ·)
  let scaled := below.foldl (fun a r => write a n r i (read a n r i * inv)) a
  (List.range (n - i - 1)).foldl (fun a k =>
    let c := i + 1 + k
    let u := read a n i c
    below.foldl (fun a r => write a n r c ((-u) * read a n r i + read a n r c)) a) scaled

/-- The factorisation of a square matrix. -/
def Matrix.factor (m : Matrix R) : Factors R :=
  let n := m.rows
  let (data, swaps) := (List.range n).foldl (fun (acc : Array R × List (Nat × Nat)) i =>
    let (a, swaps) := acc
    let piv := pivotRow a n i
    let diag := read a n piv i
    if diag == 0 then (a, swaps)
    else if piv = i then (eliminate a n i diag, swaps)
    else (eliminate (swapRows a n i piv) n i diag, swaps ++ [(i, piv)])) (m.data, [])
  { lu := Matrix.ofFn n n fun i j => read data n i j, swaps, shape := m.shape }

/-- Forward substitution in one column: subtracts each unknown times the multipliers below
it (the diagonal of `L` is one). -/
def forwardColumn (lu : Matrix R) (b : Array R) : Array R :=
  let n := lu.rows
  (List.range (n - 1)).foldl (fun b i =>
    let coeff := b.getD i 0
    (List.range (n - i - 1)).foldl (fun b k =>
      let r := i + 1 + k
      b.setIfInBounds r ((-coeff) * lu.get r i + b.getD r 0)) b) b

/-- Back substitution in one column, from the last row up; `none` at a zero pivot. -/
def backColumn (lu : Matrix R) (b : Array R) : Option (Array R) :=
  let n := lu.rows
  (List.range n).foldl (fun ob k =>
    ob.bind fun b =>
      let i := n - 1 - k
      let diag := lu.get i i
      if diag == 0 then none
      else
        let coeff := b.getD i 0 / diag
        let b := b.setIfInBounds i coeff
        some ((List.range i).foldl (fun b r =>
          b.setIfInBounds r ((-coeff) * lu.get r i + b.getD r 0)) b)) (some b)

/-- Applies the row swaps in order to a column. -/
def permuteColumn (swaps : List (Nat × Nat)) (b : Array R) : Array R :=
  swaps.foldl (fun b (i, k) =>
    let x := b.getD i 0
    let y := b.getD k 0
    (b.setIfInBounds i y).setIfInBounds k x) b

/-- Whether `A · X = B` can be posed: `A` square with as many rows as `B`, and not empty
unless `B` has no column. -/
def Factors.fits (f : Factors R) (b : Matrix R) : Bool :=
  f.shape.1 == b.rows && f.shape.1 == f.shape.2 && (0 < f.shape.1 || b.cols == 0)

/-- Solves `A · X = B` column by column; fails if the system cannot be posed or a pivot of
`U` is zero. -/
def Factors.solve (f : Factors R) (b : Matrix R) : Except SolveFailure (Matrix R) :=
  if !f.fits b then .error .misshapen
  else
    let cols := (List.range b.cols).mapM fun j =>
      backColumn f.lu (forwardColumn f.lu (permuteColumn f.swaps (b.col j)))
    match cols with
    | none => .error .singular
    | some cs => .ok (Matrix.ofFn b.rows b.cols fun i j => (cs.getD j #[]).getD i 0)

end SteadyAdjoint
