import Mathlib
import SteadyAdjoint.Exact.Real
import SteadyAdjoint.Linear.Matrix

/-!
# Matrices in exact arithmetic

The operations of `Matrix` fix an order of evaluation so that doubles come out bit for bit.
Over the real numbers that order no longer matters, and the operations are the textbook ones:

* an entry of a product is the sum `Σ_k A[i][k] · B[k][j]` (`get_mul_real`);
* a `laneSum`, eight interleaved partial sums, is the plain sum of its terms (`laneSum_real`);
* the norm is the Frobenius norm `√(Σ_{i,j} m[i][j]²)` (`norm_real`).
-/

namespace SteadyAdjoint

open Finset

namespace Matrix

/-! ## §1 Sums written as folds -/

/-- A left fold that adds one term per index to a start value is the start plus the sum. -/
theorem foldl_range_add (f : ℕ → ℝ) (x : ℝ) (n : ℕ) :
    (List.range n).foldl (fun acc k => acc + f k) x = x + ∑ k ∈ range n, f k := by
  induction n with
  | zero => simp
  | succ n ih => rw [List.range_succ, List.foldl_append, ih, sum_range_succ]; simp [add_assoc]

/-- A left fold by addition is the start plus the sum of the list. -/
theorem foldl_add_eq (l : List ℝ) (x : ℝ) : l.foldl (· + ·) x = x + l.sum := by
  induction l generalizing x with
  | nil => simp
  | cons y l ih => rw [List.foldl_cons, ih, List.sum_cons, add_assoc]

/-- The sum of a list of values at `0, …, n - 1` is their `Finset` sum. -/
theorem sum_map_range (f : ℕ → ℝ) (n : ℕ) : ((List.range n).map f).sum = ∑ i ∈ range n, f i := by
  induction n with
  | zero => simp
  | succ n ih => rw [List.range_succ, List.map_append, List.sum_append, ih, sum_range_succ]; simp

/-! ## §2 Products -/

/-- An entry of a product, begun with the first term, is the whole sum. -/
theorem dotEntry_real (a b : Matrix ℝ) (i j : ℕ) :
    dotEntry a b i j = ∑ k ∈ range a.cols, a.get i k * b.get k j := by
  unfold dotEntry
  split
  · rename_i hCols
    simp [hCols]
  · rename_i n hCols
    rw [foldl_range_add (fun k => a.get i (k + 1) * b.get (k + 1) j), hCols, sum_range_succ' _ n,
      add_comm]

/-- **The entries of a product** are the sums `Σ_k A[i][k] · B[k][j]`. -/
theorem get_mul_real (a b : Matrix ℝ) {i j : ℕ} (hi : i < a.rows) (hj : j < b.cols) :
    (a * b).get i j = ∑ k ∈ range a.cols, a.get i k * b.get k j := by
  rw [get_mul a b hi hj, dotEntry_real]

/-- An entry of a product whose second factor's column is read off a function. -/
theorem get_mul_of (a b : Matrix ℝ) {i j : ℕ} (f : ℕ → ℝ) (hi : i < a.rows) (hj : j < b.cols)
    (hb : ∀ k, k < a.cols → b.get k j = f k) :
    (a * b).get i j = ∑ k ∈ range a.cols, a.get i k * f k := by
  rw [get_mul_real a b hi hj]
  exact sum_congr rfl fun k hk => by rw [hb k (mem_range.1 hk)]

theorem get_identity_real {n i j : ℕ} (hi : i < n) (hj : j < n) :
    (identity n : Matrix ℝ).get i j = if i = j then 1 else 0 := by
  rw [identity, get_ofFn _ hi hj]
  split_ifs <;> simp

/-- **The identity is a unit on the left.** -/
theorem identity_mul_real (m : Matrix ℝ) : (identity m.rows : Matrix ℝ) * m = m := by
  refine ext_get rfl rfl fun i j hi hj => ?_
  have hi' : i < m.rows := hi
  calc ((identity m.rows : Matrix ℝ) * m).get i j
      = ∑ k ∈ range m.rows, (identity m.rows : Matrix ℝ).get i k * m.get k j :=
        get_mul_real _ _ hi hj
    _ = ∑ k ∈ range m.rows, (if i = k then 1 else 0) * m.get k j :=
        sum_congr rfl fun k hk => by rw [get_identity_real hi' (mem_range.1 hk)]
    _ = m.get i j := by simp [hi']

/-- A product distributes over a sum of two matrices of one shape. -/
theorem mul_add_real (a b c : Matrix ℝ) (hb : a.cols = b.rows) (hc : c.shape = b.shape) :
    a * (b + c) = a * b + a * c := by
  obtain ⟨hcr, hcc⟩ := Prod.mk.inj hc
  refine ext_get rfl rfl fun i j hi hj => ?_
  have hj' : j < b.cols := hj
  rw [get_add (a * b) (a * c) hi hj, get_mul_real a (b + c) hi hj, get_mul_real a b hi hj',
    get_mul_real a c hi (by rwa [hcc]), ← sum_add_distrib]
  refine sum_congr rfl fun k hk => ?_
  rw [get_add _ _ (by rw [← hb]; exact mem_range.1 hk) hj', mul_add]

/-- A product with a quotient is the quotient of the product. -/
theorem mul_divide_real (a b : Matrix ℝ) (d : ℝ) (hb : a.cols = b.rows) :
    a * b.divide d = (a * b).divide d := by
  refine ext_get rfl rfl fun i j hi hj => ?_
  have hj' : j < b.cols := hj
  simp only [divide]
  rw [get_map _ (a * b) hi hj, get_mul_real a (b.map (· / d)) hi hj, get_mul_real a b hi hj',
    sum_div]
  refine sum_congr rfl fun k hk => ?_
  rw [get_map _ b (by rw [← hb]; exact mem_range.1 hk) hj', mul_div_assoc]

/-- A product with zeros is zero. -/
theorem get_mul_zeros (a : Matrix ℝ) {c i j : ℕ} (hi : i < a.rows) (hj : j < c) :
    (a * (zeros a.cols c : Matrix ℝ)).get i j = 0 := by
  rw [get_mul_of _ _ (fun _ => 0) hi hj fun k hk => (get_zeros hk hj).trans (by simp)]
  simp

/-! ## §3 The algebra of products

The laws hold where the inner sizes of the products agree; the outer sizes may be anything. -/

/-- **The identity is a unit on the right.** -/
theorem mul_identity_real (m : Matrix ℝ) : m * (identity m.cols : Matrix ℝ) = m := by
  refine ext_get rfl rfl fun i j hi hj => ?_
  have hj' : j < m.cols := hj
  calc (m * (identity m.cols : Matrix ℝ)).get i j
      = ∑ k ∈ range m.cols, m.get i k * (if k = j then 1 else 0) :=
        get_mul_of _ _ _ hi hj fun k hk => get_identity_real hk hj'
    _ = m.get i j := by simp [hj']

/-- **Products are associative** where the first two factors fit. -/
theorem mul_assoc_real (a b c : Matrix ℝ) (hab : a.cols = b.rows) : a * b * c = a * (b * c) := by
  refine ext_get rfl rfl fun i j hi hj => ?_
  have hi' : i < a.rows := hi
  have hj' : j < c.cols := hj
  -- both sides are the double sum `Σ_k Σ_l A[i][k] · B[k][l] · C[l][j]`
  rw [get_mul_real (a * b) c hi hj', get_mul_real a (b * c) hi' hj', cols_mul]
  calc ∑ l ∈ range b.cols, (a * b).get i l * c.get l j
      = ∑ l ∈ range b.cols, ∑ k ∈ range a.cols, a.get i k * b.get k l * c.get l j :=
        sum_congr rfl fun l hl => by
          rw [get_mul_real a b hi' (mem_range.1 hl), sum_mul]
    _ = ∑ k ∈ range a.cols, ∑ l ∈ range b.cols, a.get i k * b.get k l * c.get l j := sum_comm
    _ = ∑ k ∈ range a.cols, a.get i k * (b * c).get k j :=
        sum_congr rfl fun k hk => by
          rw [get_mul_real b c (by rw [← hab]; exact mem_range.1 hk) hj', mul_sum]
          exact sum_congr rfl fun l _ => mul_assoc _ _ _

@[simp] theorem transpose_transpose {R : Type} [Scalar R] (m : Matrix R) :
    m.transpose.transpose = m :=
  ext_get rfl rfl fun i j hi hj => by
    rw [get_transpose m.transpose hi hj, get_transpose m hj hi]

/-- **The transpose of a product** is the product of the transposes, in the other order. -/
theorem transpose_mul_real (a b : Matrix ℝ) (hab : a.cols = b.rows) :
    (a * b).transpose = b.transpose * a.transpose := by
  refine ext_get rfl rfl fun i j hi hj => ?_
  have hi' : i < b.cols := hi
  have hj' : j < a.rows := hj
  rw [get_transpose _ hi hj, get_mul_real a b hj' hi',
    get_mul_real b.transpose a.transpose hi' hj', cols_transpose, ← hab]
  refine sum_congr rfl fun k hk => ?_
  rw [get_transpose _ hi' (by rw [← hab]; exact mem_range.1 hk),
    get_transpose _ (mem_range.1 hk) hj', mul_comm]

/-- The transpose of a difference of matrices of one shape. -/
theorem transpose_sub_real (a b : Matrix ℝ) (h : a.shape = b.shape) :
    (a - b).transpose = a.transpose - b.transpose := by
  obtain ⟨hr, hc⟩ := Prod.mk.inj h
  refine ext_get rfl rfl fun i j hi hj => ?_
  have hi' : i < a.cols := hi
  have hj' : j < a.rows := hj
  rw [get_transpose _ hi hj, get_sub a b hj' hi', get_sub a.transpose b.transpose hi hj,
    get_transpose _ hi' hj',
    get_transpose _ (by rwa [← hc]) (by rwa [← hr])]

/-- A product distributes over a difference of two matrices of one shape on the left. -/
theorem sub_mul_real (a b c : Matrix ℝ) (h : a.shape = b.shape) : (a - b) * c = a * c - b * c := by
  obtain ⟨hr, hc⟩ := Prod.mk.inj h
  refine ext_get rfl rfl fun i j hi hj => ?_
  have hi' : i < a.rows := hi
  have hj' : j < c.cols := hj
  rw [get_sub (a * c) (b * c) hi hj, get_mul_real (a - b) c hi' hj', get_mul_real a c hi' hj',
    get_mul_real b c (by rwa [← hr]) hj', cols_sub, hc, ← sum_sub_distrib]
  refine sum_congr rfl fun k hk => ?_
  rw [get_sub a b hi' (by rw [hc]; exact mem_range.1 hk), sub_mul]

/-- From `Z + W = V`, with `W` of the shape of `Z`: `W = V - Z`. -/
theorem eq_sub_of_add_eq_real {z w v : Matrix ℝ} (h : z + w = v) (hw : w.shape = z.shape) :
    w = v - z := by
  obtain ⟨hr, hc⟩ := Prod.mk.inj hw
  subst h
  refine ext_get hr hc fun i j hi hj => ?_
  have hi' : i < z.rows := by rwa [← hr]
  have hj' : j < z.cols := by rwa [← hc]
  rw [get_sub (z + w) z hi' hj', get_add z w hi' hj', add_sub_cancel_left]

/-- Taking away a difference adds back what it takes away. -/
theorem sub_sub_real (d p q : Matrix ℝ) (hp : p.shape = d.shape) (hq : q.shape = p.shape) :
    d - (p - q) = d - p + q := by
  obtain ⟨hpr, hpc⟩ := Prod.mk.inj hp
  obtain ⟨hqr, hqc⟩ := Prod.mk.inj hq
  refine ext_get rfl rfl fun i j hi hj => ?_
  rw [get_sub d (p - q) hi hj, get_sub p q (by rwa [hpr]) (by rwa [hpc]),
    get_add (d - p) q hi hj, get_sub d p hi hj]
  ring

/-- A right inverse of `Aᵀ` recovers `yᵀ` from `(A · y)ᵀ`. -/
theorem transpose_eq_of_right_inverse {A y Jinv : Matrix ℝ} (hA : A.cols = y.rows)
    (hInv : A.transpose * Jinv = identity y.rows) :
    y.transpose = (A * y).transpose * Jinv :=
  calc y.transpose = y.transpose * (identity y.transpose.cols : Matrix ℝ) :=
        (mul_identity_real _).symm
    _ = y.transpose * (A.transpose * Jinv) := by rw [hInv, cols_transpose]
    _ = y.transpose * A.transpose * Jinv := (mul_assoc_real _ _ _ (by simp [hA])).symm
    _ = (A * y).transpose * Jinv := by rw [transpose_mul_real _ _ hA]

/-! ## §4 Sums of squares and the norm -/

/-- The blocks of eight keep eight partial sums, and together with the terms left over they
hold the sum of everything added. -/
theorem laneBlocks_real (lanes terms : List ℝ) (hLen : lanes.length = 8) :
    (laneBlocks lanes terms).1.length = 8 ∧
      (laneBlocks lanes terms).1.sum + (laneBlocks lanes terms).2.sum = lanes.sum + terms.sum := by
  fun_induction laneBlocks lanes terms with
  | case1 lanes t0 t1 t2 t3 t4 t5 t6 t7 rest ih =>
    -- eight lanes take the next eight terms, one each
    match lanes, hLen with
    | [l0, l1, l2, l3, l4, l5, l6, l7], _ =>
      obtain ⟨hLen', hSum⟩ := ih rfl
      refine ⟨hLen', ?_⟩
      rw [hSum]
      simp only [List.zipWith_cons_cons, List.zipWith_nil_left, List.sum_cons, List.sum_nil]
      ring
  | case2 lanes rest _ => exact ⟨hLen, rfl⟩

/-- **A `laneSum` is the sum of its terms.** -/
theorem laneSum_real (terms : List ℝ) : laneSum terms = terms.sum := by
  unfold laneSum
  simp only [Scalar.numeral_real, Nat.cast_zero]
  obtain ⟨hLen, hSum⟩ := laneBlocks_real (List.replicate 8 0) terms (by simp)
  generalize laneBlocks (List.replicate 8 0) terms = blocks at hLen hSum
  obtain ⟨lanes, rest⟩ := blocks
  -- the eight partial sums are added in four pairs, then the rest one at a time
  match lanes, hLen with
  | [l0, l1, l2, l3, l4, l5, l6, l7], _ =>
    simp only [List.sum_replicate, smul_zero, zero_add] at hSum
    rw [← hSum, foldl_add_eq, foldl_add_eq]
    simp only [List.take, List.drop, List.zipWith_cons_cons, List.zipWith_nil_left, List.sum_cons,
      List.sum_nil]
    ring

/-- The sum of squares of a column. -/
theorem columnSquares_real (m : Matrix ℝ) (j : ℕ) :
    m.columnSquares j = ∑ i ∈ range m.rows, m.get i j ^ 2 := by
  rw [columnSquares, laneSum_real, sum_map_range]
  simp only [sq]

/-- **The norm is the Frobenius norm.** -/
theorem norm_real (m : Matrix ℝ) :
    m.norm = Real.sqrt (∑ j ∈ range m.cols, ∑ i ∈ range m.rows, m.get i j ^ 2) := by
  rw [norm, foldl_range_add, Scalar.numeral_real, Nat.cast_zero, zero_add, Scalar.sqrt_real]
  simp only [columnSquares_real]

/-! ## §5 Matrices of one entry

A `1 × 1` matrix is its one entry, and each operation on such matrices acts on the entries.
These rewrite a computation on one-entry matrices down to the numbers. -/

section One

variable {R : Type} [Scalar R]

@[simp] theorem get_ofFn_one_one (f : ℕ → ℕ → R) : (ofFn 1 1 f).get 0 0 = f 0 0 :=
  get_ofFn f Nat.one_pos Nat.one_pos

/-- A matrix of one row and one column is its entry at `(0, 0)`. -/
theorem eq_ofFn_one_one {m : Matrix R} (hr : m.rows = 1) (hc : m.cols = 1) :
    m = ofFn 1 1 fun _ _ => m.get 0 0 :=
  ext_get hr hc fun i j hi hj => by
    obtain rfl : i = 0 := by omega
    obtain rfl : j = 0 := by omega
    rw [get_ofFn_one_one]

theorem ofFn_one_one (f : ℕ → ℕ → R) : ofFn 1 1 f = ofFn 1 1 fun _ _ => f 0 0 :=
  (eq_ofFn_one_one rfl rfl).trans (by rw [get_ofFn_one_one])

/-- Two one-entry matrices are equal when their entries are. -/
@[simp] theorem ofFn_one_one_inj (f g : ℕ → ℕ → R) :
    ofFn 1 1 f = ofFn 1 1 g ↔ f 0 0 = g 0 0 := by
  constructor
  · intro h
    simpa using congrArg (fun m : Matrix R => m.get 0 0) h
  · intro h
    rw [ofFn_one_one f, ofFn_one_one g, h]

@[simp] theorem ofFn_one_one_mul (f g : ℕ → ℕ → R) :
    ofFn 1 1 f * ofFn 1 1 g = ofFn 1 1 fun _ _ => f 0 0 * g 0 0 :=
  (eq_ofFn_one_one rfl rfl).trans (by rw [get_mul _ _ Nat.one_pos Nat.one_pos]; simp [dotEntry])

@[simp] theorem ofFn_one_one_add (f g : ℕ → ℕ → R) :
    ofFn 1 1 f + ofFn 1 1 g = ofFn 1 1 fun _ _ => f 0 0 + g 0 0 :=
  (eq_ofFn_one_one rfl rfl).trans (by rw [get_add _ _ Nat.one_pos Nat.one_pos]; simp)

@[simp] theorem ofFn_one_one_sub (f g : ℕ → ℕ → R) :
    ofFn 1 1 f - ofFn 1 1 g = ofFn 1 1 fun _ _ => f 0 0 - g 0 0 :=
  (eq_ofFn_one_one rfl rfl).trans (by rw [get_sub _ _ Nat.one_pos Nat.one_pos]; simp)

@[simp] theorem ofFn_one_one_neg (f : ℕ → ℕ → R) : -ofFn 1 1 f = ofFn 1 1 fun _ _ => -f 0 0 :=
  (eq_ofFn_one_one rfl rfl).trans (by rw [get_neg _ Nat.one_pos Nat.one_pos]; simp)

@[simp] theorem ofFn_one_one_scale (f : ℕ → ℕ → R) (a : R) :
    (ofFn 1 1 f).scale a = ofFn 1 1 fun _ _ => f 0 0 * a :=
  (eq_ofFn_one_one rfl rfl).trans (by rw [get_scale _ _ Nat.one_pos Nat.one_pos]; simp)

@[simp] theorem ofFn_one_one_transpose (f : ℕ → ℕ → R) :
    (ofFn 1 1 f).transpose = ofFn 1 1 fun _ _ => f 0 0 :=
  (eq_ofFn_one_one rfl rfl).trans (by rw [get_transpose _ Nat.one_pos Nat.one_pos]; simp)

@[simp] theorem col_ofFn_one_one (f : ℕ → ℕ → R) : (ofFn 1 1 f).col 0 = #[f 0 0] := by
  simp [col, Array.ofFn_succ]

theorem column_singleton (a : R) : column #[a] = ofFn 1 1 fun _ _ => a :=
  (eq_ofFn_one_one rfl rfl).trans (by rw [column, get_ofFn _ (by simp) Nat.one_pos]; simp)

@[simp] theorem zeros_one_one : (zeros 1 1 : Matrix R) = ofFn 1 1 fun _ _ => 0 := rfl

end One

@[simp] theorem identity_one : (identity 1 : Matrix ℝ) = ofFn 1 1 fun _ _ => 1 := by
  rw [identity, ofFn_one_one]
  simp

/-- The norm of a one-entry matrix is the entry's absolute value. -/
@[simp] theorem norm_ofFn_one_one (f : ℕ → ℕ → ℝ) : (ofFn 1 1 f).norm = |f 0 0| := by
  rw [norm_real]
  simp [Real.sqrt_sq_eq_abs]

/-- No real entry is infinite. -/
@[simp] theorem allFinite_real (m : Matrix ℝ) : m.allFinite = true := by
  simp [allFinite]

end Matrix

end SteadyAdjoint
