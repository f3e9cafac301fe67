import SteadyAdjoint.Linear.Scalar

/-!
# Dense matrices

A `Matrix R` is a rectangular array of numbers stored row by row. States of the integrators
are matrices with one column per direction, operators are square matrices, and a `Vec R` is
a plain array of numbers (a state of a model, a parameter block, a response). The entries are
doubles when the solvers run, and any `Scalar` in statements about them.

Every operation fixes the order of its floating-point operations, because results are
compared bit for bit:

* a product `A · B` sums `A[i][k] · B[k][j]` over increasing `k`, starting from the first
  product, not from zero; an empty sum is `0`;
* a sum of squares is a `laneSum`: while eight or more terms remain, the next eight go one
  into each of eight partial sums, which are then added in the pairs `(0, 4)` to `(3, 7)`,
  and the terms left over follow one at a time; so a column of fewer than eight entries is
  summed from `0` in row order;
* the norm is the square root of the column sums of squares added in order;
* elementwise operations act on each entry once.

`get (ofFn r c f) i j = f i j` inside the shape is the one fact about storage that the rest
of the library needs. Beside the operations stand their shapes, their entries, and `ext_get`:
two matrices of one shape with the same entries are equal.
-/

namespace SteadyAdjoint

/-- A vector of numbers. -/
abbrev Vec (R : Type) := Array R

/-- A `rows × cols` matrix, stored row by row. -/
structure Matrix (R : Type) where
  rows : Nat
  cols : Nat
  data : Array R
  size_eq : data.size = rows * cols

namespace Matrix

variable {R : Type}

/-- The matrix whose entry `(i, j)` is `f i j`. -/
def ofFn (r c : Nat) (f : Nat → Nat → R) : Matrix R :=
  ⟨r, c, Array.ofFn (n := r * c) fun k => f (k.val / c) (k.val % c), Array.size_ofFn⟩

/-- The shape as a pair. -/
def shape (m : Matrix R) : Nat × Nat := (m.rows, m.cols)

@[simp] theorem rows_ofFn (r c : Nat) (f : Nat → Nat → R) : (ofFn r c f).rows = r := rfl

@[simp] theorem cols_ofFn (r c : Nat) (f : Nat → Nat → R) : (ofFn r c f).cols = c := rfl

theorem shape_ofFn (r c : Nat) (f : Nat → Nat → R) : (ofFn r c f).shape = (r, c) := rfl

variable [Scalar R]

/-- The entry in row `i` and column `j` (zero outside the shape). -/
def get (m : Matrix R) (i j : Nat) : R := m.data.getD (i * m.cols + j) 0

theorem get_ofFn {r c i j : Nat} (f : Nat → Nat → R) (hi : i < r) (hj : j < c) :
    (ofFn r c f).get i j = f i j := by
  have hk : i * c + j < r * c := by
    have : (i + 1) * c ≤ r * c := Nat.mul_le_mul_right c hi
    rw [Nat.succ_mul] at this
    omega
  have hc : 0 < c := Nat.lt_of_le_of_lt (Nat.zero_le j) hj
  simp only [get, ofFn, Array.getD_eq_getD_getElem?, Array.getElem?_ofFn]
  simp only [hk, ↓reduceDIte, Option.getD_some]
  have h1 : (i * c + j) / c = i := by
    rw [Nat.mul_comm, Nat.mul_add_div hc, Nat.div_eq_of_lt hj, Nat.add_zero]
  have h2 : (i * c + j) % c = j := by
    rw [Nat.mul_comm, Nat.mul_add_mod, Nat.mod_eq_of_lt hj]
  rw [h1, h2]

/-- The zero matrix. -/
def zeros (r c : Nat) : Matrix R := ofFn r c fun _ _ => 0

/-- The identity matrix. -/
def identity (n : Nat) : Matrix R := ofFn n n fun i j => if i = j then 1 else 0

/-- The rows of a matrix, top to bottom. -/
def toRows (m : Matrix R) : List (List R) :=
  (List.range m.rows).map fun i => (List.range m.cols).map fun j => m.get i j

/-- A matrix from rows of equal length; the first row fixes the width. -/
def ofRows (rows : List (List R)) : Matrix R :=
  let width := (rows.head?.map List.length).getD 0
  ofFn rows.length width fun i j => (rows.getD i []).getD j 0

/-- A vector as a single column. -/
def column (v : Vec R) : Matrix R := ofFn v.size 1 fun i _ => v.getD i 0

/-- The `j`-th column as a vector. -/
def col (m : Matrix R) (j : Nat) : Vec R := Array.ofFn (n := m.rows) fun i => m.get i.val j

/-- The transpose. -/
def transpose (m : Matrix R) : Matrix R := ofFn m.cols m.rows fun i j => m.get j i

/-- Applies `f` to every entry. -/
def map (f : R → R) (m : Matrix R) : Matrix R := ofFn m.rows m.cols fun i j => f (m.get i j)

/-- Combines two matrices entry by entry, in the shape of the first. -/
def zipWith (f : R → R → R) (a b : Matrix R) : Matrix R :=
  ofFn a.rows a.cols fun i j => f (a.get i j) (b.get i j)

instance : Add (Matrix R) := ⟨zipWith (· + ·)⟩
instance : Sub (Matrix R) := ⟨zipWith (· - ·)⟩
instance : Neg (Matrix R) := ⟨map (- ·)⟩

/-- Every entry times `s`. -/
def scale (m : Matrix R) (s : R) : Matrix R := m.map (· * s)

/-- Every entry divided by `s`. -/
def divide (m : Matrix R) (s : R) : Matrix R := m.map (· / s)

/-- The sum `Σ_k A[i][k] · B[k][j]` over increasing `k`, begun with the first product. -/
def dotEntry (a b : Matrix R) (i j : Nat) : R :=
  match a.cols with
  | 0 => 0
  | n + 1 =>
    (List.range n).foldl (fun acc k => acc + a.get i (k + 1) * b.get (k + 1) j)
      (a.get i 0 * b.get 0 j)

/-- The matrix product. -/
def mul (a b : Matrix R) : Matrix R := ofFn a.rows b.cols fun i j => dotEntry a b i j

instance : HMul (Matrix R) (Matrix R) (Matrix R) := ⟨mul⟩

/-- Adds the terms eight at a time into the eight partial sums, while eight remain; returns
the partial sums and the fewer than eight terms left over. -/
def laneBlocks : List R → List R → List R × List R
  | lanes, t0 :: t1 :: t2 :: t3 :: t4 :: t5 :: t6 :: t7 :: rest =>
    laneBlocks (List.zipWith (· + ·) lanes [t0, t1, t2, t3, t4, t5, t6, t7]) rest
  | lanes, rest => (lanes, rest)

/-- A sum in eight interleaved partial sums: term `8q + r` of the whole blocks of eight goes
into partial sum `r`, the partial sums are added from `0` in the pairs `(0, 4)`, `(1, 5)`,
`(2, 6)`, `(3, 7)`, and the terms after the last whole block are added one at a time. Below
eight terms this is the sum from `0` in order. -/
def laneSum (terms : List R) : R :=
  let (lanes, rest) := laneBlocks (List.replicate 8 0) terms
  let pairs := List.zipWith (· + ·) (lanes.take 4) (lanes.drop 4)
  rest.foldl (· + ·) (pairs.foldl (· + ·) 0)

/-- The sum of squares of column `j`, a `laneSum` in row order. -/
def columnSquares (m : Matrix R) (j : Nat) : R :=
  laneSum ((List.range m.rows).map fun i => m.get i j * m.get i j)

/-- The Frobenius norm: the square root of the column sums of squares added in order. -/
def norm (m : Matrix R) : R :=
  Scalar.sqrt ((List.range m.cols).foldl (fun acc j => acc + m.columnSquares j) 0)

/-! ## Shapes

Every operation is built by `ofFn`, so its shape is known without looking at an entry. -/

@[simp] theorem shape_zeros (r c : Nat) : (zeros r c : Matrix R).shape = (r, c) := rfl

@[simp] theorem shape_identity (n : Nat) : (identity n : Matrix R).shape = (n, n) := rfl

@[simp] theorem shape_column (v : Vec R) : (column v).shape = (v.size, 1) := rfl

@[simp] theorem size_col (m : Matrix R) (j : Nat) : (m.col j).size = m.rows := Array.size_ofFn

@[simp] theorem shape_transpose (m : Matrix R) : m.transpose.shape = (m.cols, m.rows) := rfl

@[simp] theorem shape_map (f : R → R) (m : Matrix R) : (m.map f).shape = m.shape := rfl

@[simp] theorem shape_add (a b : Matrix R) : (a + b).shape = a.shape := rfl

@[simp] theorem shape_sub (a b : Matrix R) : (a - b).shape = a.shape := rfl

@[simp] theorem shape_neg (m : Matrix R) : (-m).shape = m.shape := rfl

@[simp] theorem shape_scale (m : Matrix R) (s : R) : (m.scale s).shape = m.shape := rfl

@[simp] theorem shape_divide (m : Matrix R) (s : R) : (m.divide s).shape = m.shape := rfl

@[simp] theorem shape_mul (a b : Matrix R) : (a * b).shape = (a.rows, b.cols) := rfl

@[simp] theorem rows_zeros (r c : Nat) : (zeros r c : Matrix R).rows = r := rfl

@[simp] theorem cols_zeros (r c : Nat) : (zeros r c : Matrix R).cols = c := rfl

@[simp] theorem rows_identity (n : Nat) : (identity n : Matrix R).rows = n := rfl

@[simp] theorem cols_identity (n : Nat) : (identity n : Matrix R).cols = n := rfl

@[simp] theorem rows_transpose (m : Matrix R) : m.transpose.rows = m.cols := rfl

@[simp] theorem cols_transpose (m : Matrix R) : m.transpose.cols = m.rows := rfl

@[simp] theorem rows_map (f : R → R) (m : Matrix R) : (m.map f).rows = m.rows := rfl

@[simp] theorem cols_map (f : R → R) (m : Matrix R) : (m.map f).cols = m.cols := rfl

@[simp] theorem rows_add (a b : Matrix R) : (a + b).rows = a.rows := rfl

@[simp] theorem cols_add (a b : Matrix R) : (a + b).cols = a.cols := rfl

@[simp] theorem rows_sub (a b : Matrix R) : (a - b).rows = a.rows := rfl

@[simp] theorem cols_sub (a b : Matrix R) : (a - b).cols = a.cols := rfl

@[simp] theorem rows_neg (m : Matrix R) : (-m).rows = m.rows := rfl

@[simp] theorem cols_neg (m : Matrix R) : (-m).cols = m.cols := rfl

@[simp] theorem rows_scale (m : Matrix R) (s : R) : (m.scale s).rows = m.rows := rfl

@[simp] theorem cols_scale (m : Matrix R) (s : R) : (m.scale s).cols = m.cols := rfl

@[simp] theorem rows_divide (m : Matrix R) (s : R) : (m.divide s).rows = m.rows := rfl

@[simp] theorem cols_divide (m : Matrix R) (s : R) : (m.divide s).cols = m.cols := rfl

@[simp] theorem rows_mul (a b : Matrix R) : (a * b).rows = a.rows := rfl

@[simp] theorem cols_mul (a b : Matrix R) : (a * b).cols = b.cols := rfl

/-! ## Entries

A matrix is determined by its shape and its entries inside the shape (`ext_get`), and each
operation's entries are given by its defining formula. -/

theorem ext_get {a b : Matrix R} (hr : a.rows = b.rows) (hc : a.cols = b.cols)
    (h : ∀ i j, i < a.rows → j < a.cols → a.get i j = b.get i j) : a = b := by
  obtain ⟨r, c, da, ha⟩ := a
  obtain ⟨r', c', db, hb⟩ := b
  simp only at hr hc
  subst hr hc
  simp only [mk.injEq, true_and]
  apply Array.ext (by rw [ha, hb])
  intro k hka hkb
  have hk : k < r * c := ha ▸ hka
  have hc0 : 0 < c := Nat.pos_of_ne_zero fun h0 => by simp [h0] at hk
  have hi : k / c < r := Nat.div_lt_of_lt_mul (by rwa [Nat.mul_comm] at hk)
  have hj : k % c < c := Nat.mod_lt _ hc0
  have e := h (k / c) (k % c) hi hj
  simp only [get] at e
  rw [Nat.div_add_mod' k c] at e
  simpa [Array.getD_eq_getD_getElem?, hka, hkb] using e

theorem get_zeros {r c i j : Nat} (hi : i < r) (hj : j < c) :
    (zeros r c : Matrix R).get i j = 0 :=
  get_ofFn _ hi hj

theorem get_transpose (m : Matrix R) {i j : Nat} (hi : i < m.cols) (hj : j < m.rows) :
    m.transpose.get i j = m.get j i :=
  get_ofFn _ hi hj

theorem get_map (f : R → R) (m : Matrix R) {i j : Nat} (hi : i < m.rows) (hj : j < m.cols) :
    (m.map f).get i j = f (m.get i j) :=
  get_ofFn _ hi hj

theorem get_add (a b : Matrix R) {i j : Nat} (hi : i < a.rows) (hj : j < a.cols) :
    (a + b).get i j = a.get i j + b.get i j :=
  get_ofFn _ hi hj

theorem get_sub (a b : Matrix R) {i j : Nat} (hi : i < a.rows) (hj : j < a.cols) :
    (a - b).get i j = a.get i j - b.get i j :=
  get_ofFn _ hi hj

theorem get_neg (m : Matrix R) {i j : Nat} (hi : i < m.rows) (hj : j < m.cols) :
    (-m).get i j = -m.get i j :=
  get_ofFn _ hi hj

theorem get_scale (m : Matrix R) (s : R) {i j : Nat} (hi : i < m.rows) (hj : j < m.cols) :
    (m.scale s).get i j = m.get i j * s :=
  get_ofFn _ hi hj

theorem get_mul (a b : Matrix R) {i j : Nat} (hi : i < a.rows) (hj : j < b.cols) :
    (a * b).get i j = dotEntry a b i j :=
  get_ofFn _ hi hj

/-- Whether every entry is finite. -/
def allFinite (m : Matrix R) : Bool := m.data.all Scalar.isFinite

end Matrix

namespace Vec

variable {R : Type} [Scalar R]

/-- The sum of squares of the entries, a `laneSum` in order. -/
def dotSelf (v : Vec R) : R := Matrix.laneSum (v.toList.map fun x => x * x)

/-- The Euclidean norm. -/
def norm (v : Vec R) : R := Scalar.sqrt v.dotSelf

/-- A vector of zeros. -/
def zeros (n : Nat) : Vec R := Array.replicate n 0

/-- The product of a matrix and a vector. -/
def mulMatrix (a : Matrix R) (v : Vec R) : Vec R := (a * Matrix.column v).col 0

end Vec

end SteadyAdjoint
