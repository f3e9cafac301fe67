import SteadyAdjoint.Proofs.Retained

/-!
# Backward Euler on affine problems

A problem declared linear is stepped by backward Euler with a single update: the iteration
matrix `J(1/dt, 1)` is factored once, and `X = X_n + LU \ -F(t + dt, X_n, 0)` is accepted
without a convergence test. This module shows that on a problem that is affine in
`(X, X_dot)`, with an iteration matrix that is exactly `α · ∂F/∂X_dot + β · ∂F/∂X`, this is
what Newton's method computes, in exact arithmetic:

* Newton's first update is the same solve with the same matrix, so both fail together or both
  reach the same iterate;
* at that iterate the residual vanishes (`ImplicitOde.Affine.residual_update`), so a second
  update solves with a zero right-hand side, which gives zero whenever the first solve
  succeeded (`Factors.solve_zero`): whether a solve succeeds depends on the pivots only;
* the rates agree, `u / dt` against `(X - X_n) · (1 / dt)`.

The adjoint problem of a frozen equation is affine (`AdjointEquation.toOde_affine`), which is
what makes its one-update path sound.

## Main statements

* `Factors.solve_zero`: a zero right-hand side solves to zero with factors that solved another.
* `ImplicitOde.Affine.residual_add_scale`: the affine law of an affine problem, and
  `ImplicitOde.Affine.residual_update`, an exact update zeroes the residual.
* `Sensitivity.AdjointEquation.toOde_affine`: the frozen adjoint problem is affine.
* `Integrator.Stepper.linearStep_agrees_with_newton`: the one-update step and Newton's method
  end alike on an affine problem.
-/

namespace SteadyAdjoint

open Finset

/-! ## §1 Zero right-hand sides

The swaps, forward and back substitution all keep a column of zeros zero, and back
substitution stops at a zero pivot whatever the column. -/

/-- An array that reads zero everywhere. -/
def AllZero (b : Array ℝ) : Prop := ∀ i, b.getD i 0 = 0

namespace AllZero

/-- Writing a zero keeps an array zero. -/
theorem setIfInBounds {b : Array ℝ} (hb : AllZero b) {r : ℕ} {v : ℝ} (hv : v = 0) :
    AllZero (b.setIfInBounds r v) := by
  intro i
  rw [Array.getD_eq_getD_getElem?, Array.getElem?_setIfInBounds]
  split_ifs
  · simp [hv]
  · simp
  · rw [← Array.getD_eq_getD_getElem?]
    exact hb i

/-- A fold of steps that each keep an array zero keeps it zero. -/
theorem foldl {β : Type} {f : Array ℝ → β → Array ℝ}
    (hf : ∀ a x, AllZero a → AllZero (f a x)) :
    ∀ (l : List β) {a : Array ℝ}, AllZero a → AllZero (l.foldl f a)
  | [], _, ha => ha
  | x :: l, _, ha => foldl hf l (hf _ x ha)

end AllZero

/-- Swapping entries of a zero column keeps it zero. -/
theorem permuteColumn_allZero (swaps : List (ℕ × ℕ)) {b : Array ℝ} (hb : AllZero b) :
    AllZero (permuteColumn swaps b) := by
  unfold permuteColumn
  simp only [Scalar.numeral_real, Nat.cast_zero]
  refine AllZero.foldl (fun a p ha => ?_) swaps hb
  obtain ⟨i, k⟩ := p
  exact (ha.setIfInBounds (ha k)).setIfInBounds (ha i)

/-- Forward substitution in a zero column leaves it zero. -/
theorem forwardColumn_allZero (lu : Matrix ℝ) {b : Array ℝ} (hb : AllZero b) :
    AllZero (forwardColumn lu b) := by
  unfold forwardColumn
  simp only [Scalar.numeral_real, Nat.cast_zero]
  refine AllZero.foldl (fun a i ha =>
    AllZero.foldl (fun a' k ha' => ha'.setIfInBounds ?_) _ ha) _ hb
  rw [ha' (i + 1 + k), ha i]
  simp

/-- Back substitution in a zero column succeeds wherever it succeeds in another column, and
gives zero. -/
theorem backColumn_allZero (lu : Matrix ℝ) {b b' : Array ℝ} (hb' : AllZero b')
    (h : (backColumn lu b).isSome) : ∃ v, backColumn lu b' = some v ∧ AllZero v := by
  unfold backColumn at h ⊢
  simp only [Scalar.numeral_real, Nat.cast_zero] at h ⊢
  have hSome : (some b).isSome → (some b').isSome := fun _ => rfl
  have hZero : ∀ v, some b' = some v → AllZero v := by
    rintro v ⟨⟩
    exact hb'
  generalize some b = ob at h hSome
  generalize some b' = ob' at hSome hZero ⊢
  generalize List.range lu.rows = l at h ⊢
  -- induction on the rows left to solve, carrying both partial results: the zero column's is
  -- defined wherever the other's is, and reads zero
  induction l generalizing ob ob' with
  | nil =>
    obtain ⟨v, hv⟩ := Option.isSome_iff_exists.1 (hSome h)
    exact ⟨v, hv, hZero v hv⟩
  | cons k l ih =>
    simp only [List.foldl_cons] at h ⊢
    refine ih _ _ (fun hk => ?_) (fun v hv => ?_) h
    · -- whether a row can be solved depends on its pivot only
      obtain ⟨a, rfl⟩ := Option.isSome_iff_exists.1 (Option.isSome_of_isSome_bind hk)
      obtain ⟨a', rfl⟩ := Option.isSome_iff_exists.1 (hSome rfl)
      by_cases hDiag : (lu.get (lu.rows - 1 - k) (lu.rows - 1 - k) == 0) = true
      · simp [hDiag] at hk
      · simp [hDiag]
    · obtain ⟨a, rfl, hSolved⟩ := Option.bind_eq_some_iff.1 hv
      have ha := hZero a rfl
      split_ifs at hSolved
      rw [← Option.some.inj hSolved]
      refine AllZero.foldl (fun b r hb => hb.setIfInBounds ?_) _ (ha.setIfInBounds ?_)
      · rw [ha, hb r]
        simp
      · rw [ha]
        simp

/-- A `mapM` that succeeds gives a `mapM` that succeeds for any function defined wherever the
first one is on the list, with every value of the second satisfying `P`. -/
theorem mapM_some_of_isSome {β γ : Type} {g : ℕ → Option β} {g' : ℕ → Option γ}
    (P : γ → Prop) :
    ∀ {l : List ℕ} {cs : List β}, (∀ j ∈ l, (g j).isSome → ∃ v, g' j = some v ∧ P v) →
      l.mapM g = some cs → ∃ cs', l.mapM g' = some cs' ∧ ∀ v ∈ cs', P v
  | [], _, _, _ => ⟨[], rfl, by simp⟩
  | a :: l, cs, hg, h => by
    rw [List.mapM_cons] at h
    simp only [bind, pure, Option.bind_eq_some_iff, Option.some.injEq] at h
    obtain ⟨x, hx, xs, hxs, rfl⟩ := h
    obtain ⟨v, hv, hP⟩ := hg a List.mem_cons_self (by simp [hx])
    obtain ⟨cs', hcs', hAll⟩ :=
      mapM_some_of_isSome P (fun j hj => hg j (List.mem_cons_of_mem a hj)) hxs
    refine ⟨v :: cs', ?_, ?_⟩
    · rw [List.mapM_cons]
      simp [hv, hcs']
    · simpa [hP] using hAll

/-- A column of a matrix that is zero on its shape is zero. -/
theorem col_allZero {m : Matrix ℝ} {j : ℕ} (hj : j < m.cols)
    (hZero : ∀ i j, i < m.rows → j < m.cols → m.get i j = 0) : AllZero (m.col j) := by
  intro i
  by_cases hi : i < m.rows
  · rw [getD_col m j hi, hZero i j hi hj]
  · simp [Matrix.col, Array.getD_eq_getD_getElem?, hi]

/-- **A zero right-hand side solves to zero**, with factors that solved a system of the same
shape: whether a solve succeeds depends on the pivots only. -/
theorem Factors.solve_zero {f : Factors ℝ} {b b' u : Matrix ℝ} (h : f.solve b = .ok u)
    (hShape : b'.shape = b.shape)
    (hZero : ∀ i j, i < b'.rows → j < b'.cols → b'.get i j = 0) :
    f.solve b' = .ok (Matrix.zeros b.rows b.cols) := by
  obtain ⟨hRows, hCols⟩ := Prod.mk.inj hShape
  unfold Factors.solve at h ⊢
  have hFits : f.fits b' = f.fits b := by
    simp only [Factors.fits, hRows, hCols]
  rw [hFits]
  split_ifs at h ⊢
  dsimp only at h ⊢
  split at h
  · cases h
  rename_i cs hSolved
  rw [hCols]
  obtain ⟨cs', hSolved', hAll⟩ := mapM_some_of_isSome AllZero (fun j hj hSome =>
    backColumn_allZero f.lu (forwardColumn_allZero f.lu (permuteColumn_allZero f.swaps
      (col_allZero (hCols ▸ List.mem_range.1 hj) hZero))) hSome) hSolved
  rw [hSolved', hRows]
  dsimp only
  -- every solved column reads zero, so the assembled matrix is the zero matrix
  congr 1
  unfold Matrix.zeros
  congr 1
  funext i j
  rw [List.getD_eq_getElem?_getD]
  cases hj : cs'[j]? with
  | none => rfl
  | some v => simpa using hAll v (List.mem_of_getElem? hj) i

/-! ## §2 Identities of matrices in exact arithmetic -/

namespace Matrix

/-- `(x + u) - x = u`, for `u` of the shape of `x`. -/
theorem add_sub_cancel_left_real {x u : Matrix ℝ} (h : u.shape = x.shape) : x + u - x = u := by
  obtain ⟨hr, hc⟩ := Prod.mk.inj h
  refine ext_get hr.symm hc.symm fun i j hi hj => ?_
  have hi' : i < x.rows := hi
  have hj' : j < x.cols := hj
  rw [get_sub (x + u) x hi hj, get_add x u hi' hj']
  ring

/-- Scaling by `1 / d` is dividing by `d`. -/
theorem scale_one_div_real (u : Matrix ℝ) (d : ℝ) : u.scale (1 / d) = u.divide d := by
  refine ext_get rfl rfl fun i j hi hj => ?_
  have hi' : i < u.rows := hi
  have hj' : j < u.cols := hj
  rw [get_scale u _ hi' hj']
  simp only [divide, get_map _ _ hi' hj']
  ring

/-- Adding zeros of its own shape leaves a matrix as it is. -/
theorem add_zeros_real {m : Matrix ℝ} {r c : ℕ} (h : m.shape = (r, c)) : m + zeros r c = m := by
  obtain ⟨hr, hc⟩ := Prod.mk.inj h
  refine ext_get rfl rfl fun i j hi hj => ?_
  have hi' : i < m.rows := hi
  have hj' : j < m.cols := hj
  rw [get_add m _ hi' hj', get_zeros (hr ▸ hi') (hc ▸ hj')]
  simp

/-- The zero matrix has norm zero. -/
theorem norm_zeros_real (r c : ℕ) : (zeros r c : Matrix ℝ).norm = 0 := by
  rw [norm_real, Real.sqrt_eq_zero']
  refine (sum_eq_zero fun j hj => sum_eq_zero fun i hi => ?_).le
  rw [get_zeros (by simpa using hi) (by simpa using hj)]
  simp

/-- Addition of matrices of one shape commutes. -/
theorem add_comm_real {a b : Matrix ℝ} (h : a.shape = b.shape) : a + b = b + a := by
  obtain ⟨hr, hc⟩ := Prod.mk.inj h
  refine ext_get hr hc fun i j hi hj => ?_
  have hi' : i < a.rows := hi
  have hj' : j < a.cols := hj
  rw [get_add a b hi' hj', get_add b a (hr ▸ hi') (hc ▸ hj'), add_comm]

/-- A norm is not negative. -/
theorem norm_nonneg_real (m : Matrix ℝ) : 0 ≤ m.norm := by
  rw [norm_real]
  exact Real.sqrt_nonneg _

/-- Scaling by one leaves a matrix as it is. -/
theorem scale_one_real (u : Matrix ℝ) : u.scale 1 = u := by
  refine ext_get rfl rfl fun i j hi hj => ?_
  rw [get_scale u _ hi hj, mul_one]

/-- Adding a negated matrix of the same shape subtracts it. -/
theorem add_neg_real {a b : Matrix ℝ} (h : b.shape = a.shape) : a + -b = a - b := by
  obtain ⟨hr, hc⟩ := Prod.mk.inj h
  refine ext_get rfl rfl fun i j hi hj => ?_
  rw [get_add a (-b) hi hj, get_sub a b hi hj, get_neg b (hr ▸ hi) (hc ▸ hj), sub_eq_add_neg]

/-- `(b - g) + a = (a + b) + -g`, for three matrices of one shape. -/
theorem sub_add_eq_add_add_neg_real {a b g : Matrix ℝ} (hab : a.shape = b.shape)
    (hgb : g.shape = b.shape) : b - g + a = a + b + -g := by
  obtain ⟨har, hac⟩ := Prod.mk.inj hab
  obtain ⟨hgr, hgc⟩ := Prod.mk.inj hgb
  refine ext_get har.symm hac.symm fun i j hi hj => ?_
  have hi' : i < b.rows := hi
  have hj' : j < b.cols := hj
  rw [get_add (b - g) a hi' hj', get_sub b g hi' hj', get_add (a + b) (-g) (har ▸ hi') (hac ▸ hj'),
    get_add a b (har ▸ hi') (hac ▸ hj'), get_neg g (hgr ▸ hi') (hgc ▸ hj')]
  ring

/-- A matrix plus its negation is zero. -/
theorem add_neg_cancel_real (m : Matrix ℝ) : m + -m = zeros m.rows m.cols := by
  refine ext_get rfl rfl fun i j hi hj => ?_
  have hi' : i < m.rows := hi
  have hj' : j < m.cols := hj
  rw [get_add m (-m) hi' hj', get_neg m hi' hj', get_zeros hi' hj']
  simp

end Matrix

/-! ## §3 Affine problems -/

namespace ImplicitOde

variable {ε : Type}

/-- A problem affine in `(X, X_dot)` with coefficients that do not depend on time: at every
state and rate of the state's shape, `F(t, X, X_dot) = A · X_dot + B · X + c(t)`, and the
iteration matrix is exactly `α · A + β · B`. -/
structure Affine (ode : ImplicitOde ℝ ε) (A B : Matrix ℝ) (c : ℝ → Matrix ℝ) : Prop where
  shape_rate : A.shape = (ode.dim, ode.dim)
  shape_state : B.shape = (ode.dim, ode.dim)
  residual : ∀ t x xDot, x.shape = ode.stateShape → xDot.shape = ode.stateShape →
    ode.residual t x xDot = .ok (A * xDot + B * x + c t)
  jacobian : ∀ t x xDot α β, x.shape = ode.stateShape → xDot.shape = ode.stateShape →
    ode.jacobian t x xDot α β = .ok (A.scale α + B.scale β)

namespace Affine

variable {ode : ImplicitOde ℝ ε} {A B : Matrix ℝ} {c : ℝ → Matrix ℝ}

/-- An entry of the iteration matrix. -/
theorem get_iteration (h : ode.Affine A B c) (α β : ℝ) {i k : ℕ} (hi : i < ode.dim)
    (hk : k < ode.dim) :
    (A.scale α + B.scale β).get i k = A.get i k * α + B.get i k * β := by
  obtain ⟨hAr, hAc⟩ := Prod.mk.inj h.shape_rate
  obtain ⟨hBr, hBc⟩ := Prod.mk.inj h.shape_state
  rw [Matrix.get_add _ _ (by simpa [hAr] using hi) (by simpa [hAc] using hk),
    Matrix.get_scale _ _ (hAr ▸ hi) (hAc ▸ hk), Matrix.get_scale _ _ (hBr ▸ hi) (hBc ▸ hk)]

/-- **The affine law.** Moving the state by `β · δ` and the rate by `α · δ` moves the residual
of an affine problem by the iteration matrix at `(α, β)` applied to `δ`, exactly. -/
theorem residual_add_scale (h : ode.Affine A B c) (t α β : ℝ) {x xDot δ : Matrix ℝ}
    (hx : x.shape = ode.stateShape) (hxDot : xDot.shape = ode.stateShape)
    (hδ : δ.shape = ode.stateShape) :
    ode.residual t (x + δ.scale β) (xDot + δ.scale α) =
      .ok (A * xDot + B * x + c t + (A.scale α + B.scale β) * δ) := by
  obtain ⟨hAr, hAc⟩ := Prod.mk.inj h.shape_rate
  obtain ⟨hBr, hBc⟩ := Prod.mk.inj h.shape_state
  obtain ⟨hxr, hxc⟩ : x.rows = ode.dim ∧ x.cols = ode.directions := Prod.mk.inj hx
  obtain ⟨hdr, hdc⟩ : xDot.rows = ode.dim ∧ xDot.cols = ode.directions := Prod.mk.inj hxDot
  obtain ⟨hδr, hδc⟩ : δ.rows = ode.dim ∧ δ.cols = ode.directions := Prod.mk.inj hδ
  rw [h.residual t _ _ (by simpa using hx) (by simpa using hxDot)]
  refine congrArg Except.ok ?_
  refine Matrix.ext_get (by simp) (by simp) fun i j hi hj => ?_
  have hi' : i < ode.dim := by simpa [hAr] using hi
  have hj' : j < ode.directions := by simpa [hdc] using hj
  -- every operand has `ode.dim` rows and `ode.directions` columns
  have hiA : i < A.rows := hAr ▸ hi'
  have hiB : i < B.rows := hBr ▸ hi'
  have hjd : j < xDot.cols := hdc ▸ hj'
  have hjx : j < x.cols := hxc ▸ hj'
  have hjδ : j < δ.cols := hδc ▸ hj'
  rw [Matrix.get_add (A * (xDot + δ.scale α) + B * (x + δ.scale β)) (c t) hiA hjd,
    Matrix.get_add (A * (xDot + δ.scale α)) (B * (x + δ.scale β)) hiA hjd,
    Matrix.get_mul_real A (xDot + δ.scale α) hiA hjd,
    Matrix.get_mul_real B (x + δ.scale β) hiB hjx,
    Matrix.get_add (A * xDot + B * x + c t) ((A.scale α + B.scale β) * δ) hiA hjd,
    Matrix.get_add (A * xDot + B * x) (c t) hiA hjd, Matrix.get_add (A * xDot) (B * x) hiA hjd,
    Matrix.get_mul_real A xDot hiA hjd, Matrix.get_mul_real B x hiB hjx,
    Matrix.get_mul_real (A.scale α + B.scale β) δ hiA hjδ]
  simp only [Matrix.cols_add, Matrix.cols_scale, hAc, hBc]
  -- row `i` against column `j`, term by term: the moves add `α · A + β · B` times `δ`
  have hRate : ∀ k ∈ range ode.dim, A.get i k * (xDot + δ.scale α).get k j =
      A.get i k * xDot.get k j + α * (A.get i k * δ.get k j) := fun k hk => by
    have hk' := mem_range.1 hk
    rw [Matrix.get_add _ _ (hdr ▸ hk') hjd, Matrix.get_scale _ _ (hδr ▸ hk') hjδ]
    ring
  have hState : ∀ k ∈ range ode.dim, B.get i k * (x + δ.scale β).get k j =
      B.get i k * x.get k j + β * (B.get i k * δ.get k j) := fun k hk => by
    have hk' := mem_range.1 hk
    rw [Matrix.get_add _ _ (hxr ▸ hk') hjx, Matrix.get_scale _ _ (hδr ▸ hk') hjδ]
    ring
  have hMove : ∀ k ∈ range ode.dim, (A.scale α + B.scale β).get i k * δ.get k j =
      α * (A.get i k * δ.get k j) + β * (B.get i k * δ.get k j) := fun k hk => by
    rw [h.get_iteration α β hi' (mem_range.1 hk)]
    ring
  rw [sum_congr rfl hRate, sum_congr rfl hState, sum_congr rfl hMove]
  simp only [sum_add_distrib, ← mul_sum]
  ring

/-- **An exact update zeroes the residual.** If `u` solves `(α · A + B) · u = -F(t, x, 0)`,
the residual at `x + u` with the rate `α · u` vanishes: one Newton update of an affine problem
lands on its root. -/
theorem residual_update (h : ode.Affine A B c) {t α : ℝ} {x u : Matrix ℝ}
    (hx : x.shape = ode.stateShape) (hu : u.shape = ode.stateShape)
    (hSolve : (A.scale α + B.scale 1) * u =
      -(A * (Matrix.zeros ode.dim ode.directions : Matrix ℝ) + B * x + c t)) :
    ode.residual t (x + u) (u.scale α) =
      .ok (Matrix.zeros ode.dim ode.directions : Matrix ℝ) := by
  obtain ⟨hAr, -⟩ := Prod.mk.inj h.shape_rate
  have hRest : (Matrix.zeros ode.dim ode.directions : Matrix ℝ).shape = ode.stateShape := rfl
  -- the update moves the state by `1 · u` and the rate, from rest, by `α · u`
  have hMove := h.residual_add_scale t α 1 hx hRest hu
  rw [hSolve, Matrix.add_neg_cancel_real, Matrix.scale_one_real,
    Matrix.add_comm_real (a := Matrix.zeros ode.dim ode.directions) (b := u.scale α)
      (hRest.trans hu.symm), Matrix.add_zeros_real (m := u.scale α) hu] at hMove
  simpa [hAr] using hMove

end Affine

end ImplicitOde

namespace Sensitivity.AdjointEquation

variable {eq : AdjointEquation ℝ} {fr : Frozen ℝ}

/-- **The adjoint equation is affine.** Frozen coefficients of the right shapes make the
adjoint problem `E* · y_dot + J* · y - (∂g/∂x)ᵀ`, with its iteration matrix exactly
`α · E* + β · J*`: what declaring the problem linear promises. -/
theorem toOde_affine (hFrozen : eq.frozen = some fr)
    (hw : fr.operators.WellFormed eq.massIdentity eq.model.stateDim
      (eq.model.responseDim eq.responseIndex)) :
    eq.toOde.Affine (fr.operators.massMatrix eq.model.stateDim) fr.operators.jacobian
      fun _ => -fr.operators.responseGradient where
  shape_rate := hw.massMatrix_shape
  shape_state := hw.jacobian
  residual t y yDot hy hyDot := by
    obtain ⟨hJr, -⟩ := Prod.mk.inj hw.jacobian
    obtain ⟨hMr, -⟩ := Prod.mk.inj hw.massMatrix_shape
    obtain ⟨-, hyc⟩ : y.rows = eq.model.stateDim ∧
        y.cols = eq.model.responseDim eq.responseIndex := Prod.mk.inj hy
    obtain ⟨hdr, hdc⟩ : yDot.rows = eq.model.stateDim ∧
        yDot.cols = eq.model.responseDim eq.responseIndex := Prod.mk.inj hyDot
    -- both checks of the residual pass: the state and the rate have the gradient's shape
    have hEval : eq.residual y yDot = .ok (fr.operators.residual y yDot) := by
      have hy' : y.shape = (eq.model.stateDim, eq.model.responseDim eq.responseIndex) := hy
      have hyDot' : yDot.shape = (eq.model.stateDim, eq.model.responseDim eq.responseIndex) :=
        hyDot
      simp only [AdjointEquation.residual, operators_of_frozen hFrozen, checkShape, bind,
        Except.bind, pure, Except.pure, hw.gradient, hy', hyDot', if_true]
    show eq.residual y yDot = _
    rw [hEval, Operators.residual_eq y yDot hdr]
    congr 1
    -- `E* · y_dot`, `J* · y` and the gradient all have the shape of `y`
    exact Matrix.sub_add_eq_add_add_neg_real (by simp [Matrix.shape, hMr, hJr, hyc, hdc])
      (by rw [hw.gradient]; simp [Matrix.shape, hJr, hyc])
  jacobian t y yDot α β _ _ := by
    show eq.jacobian α β = _
    rw [jacobian_of_frozen hFrozen, hw.iteration_eq, Matrix.add_comm_real]
    rw [Matrix.shape_scale, Matrix.shape_scale, hw.jacobian, hw.massMatrix_shape]

end Sensitivity.AdjointEquation

/-! ## §4 The two backward Euler steps -/

/-- A solve refused as misshapen is one that cannot be posed. -/
theorem Factors.fits_of_solve_misshapen {R : Type} [Scalar R] {f : Factors R} {b : Matrix R}
    (h : f.solve b = .error .misshapen) : f.fits b = false := by
  unfold Factors.solve at h
  split_ifs at h with hFits
  · simpa using hFits
  dsimp only at h
  split at h <;> cases h

namespace Integrator.Stepper

variable {R : Type} [Scalar R] {ε : Type} {ode : ImplicitOde R ε}

section Iterations

variable {newton : NewtonSettings R} {t α : R} {xStart x xDot r j u : Matrix R}
  (hr : ode.residual t x xDot = .ok r) (hj : ode.jacobian t x xDot α 1 = .ok j)
include hr hj

/-- A Newton iteration whose update is solved and finite stops at the updated iterate when the
update is small, and goes on from it otherwise. -/
theorem newtonIterate_succ_of_solve (hu : j.factor.solve (-r) = .ok u)
    (hFinite : u.allFinite = true) (left iter : ℕ) :
    newtonIterate newton ode t α xStart (left + 1) iter x xDot =
      if u.norm ≤ newton.absTol + newton.relTol * (x + u).norm then
        .ok { x := x + u, xDot := (x + u - xStart).scale α, newtonIters := iter + 1 }
      else newtonIterate newton ode t α xStart left (iter + 1) (x + u)
        ((x + u - xStart).scale α) := by
  simp [newtonIterate, evaluate, solveWith, hr, hj, hu, hFinite, Except.mapError, bind,
    Except.bind, pure, Except.pure]

/-- A Newton iteration whose solve fails fails with it. -/
theorem newtonIterate_succ_of_solve_error {e : SolveFailure} (hu : j.factor.solve (-r) = .error e)
    (left iter : ℕ) :
    newtonIterate newton ode t α xStart (left + 1) iter x xDot = .error (StepError.ofSolve e) := by
  simp [newtonIterate, evaluate, solveWith, hr, hj, hu, Except.mapError, bind, Except.bind]

end Iterations

section Linear

variable {current : SolutionState R} {dt : R} {M r : Matrix R}
  (hM : ode.jacobian (current.time + dt) current.x
    (Matrix.zeros current.x.rows current.x.cols) (1 / dt) 1 = .ok M)
  (hr : ode.residual (current.time + dt) current.x
    (Matrix.zeros current.x.rows current.x.cols) = .ok r)
include hM hr

/-- The one-update step from scratch, once its solve has succeeded. -/
theorem linearStep_none_of_solve {u : Matrix R} (hu : M.factor.solve (-r) = .ok u) :
    (linearStep none ode current dt).2 =
      .ok { x := current.x + u, xDot := u.divide dt, newtonIters := 1 } := by
  simp [linearStep, hM, hr, hu, Except.map]

/-- The one-update step from scratch fails with its solve. -/
theorem linearStep_none_of_solve_error {e : SolveFailure} (hu : M.factor.solve (-r) = .error e) :
    (linearStep none ode current dt).2 = .error (StepError.ofSolve e) := by
  simp [linearStep, hM, hr, hu, Except.map]

end Linear

section Affine

variable {ode : ImplicitOde ℝ ε} {A B : Matrix ℝ} {c : ℝ → Matrix ℝ} (hAffine : ode.Affine A B c)
  {current : SolutionState ℝ} (hx : current.x.shape = ode.stateShape) {dt : ℝ}
include hAffine hx

omit hx in
/-- The iteration matrix both steps ask for, `J(1/dt, 1)`, at any state and rate of the
state's shape: the solvers' numeral `1` is the real `1`. -/
theorem affine_iteration {t : ℝ} {x xDot : Matrix ℝ} (hx : x.shape = ode.stateShape)
    (hxDot : xDot.shape = ode.stateShape) :
    ode.jacobian t x xDot (Scalar.ofNat 1 / dt) (Scalar.ofNat 1) =
      .ok (A.scale (1 / dt) + B.scale 1) := by
  rw [hAffine.jacobian _ _ _ _ _ hx hxDot, Scalar.ofNat_real, Nat.cast_one]

/-- The residual both steps evaluate first: at the current state, at rest. -/
theorem affine_residual_at_rest (t : ℝ) :
    (Matrix.zeros current.x.rows current.x.cols : Matrix ℝ).shape = ode.stateShape ∧
      ode.residual t current.x (Matrix.zeros current.x.rows current.x.cols) =
        .ok (A * (Matrix.zeros current.x.rows current.x.cols : Matrix ℝ) + B * current.x +
          c t) := by
  obtain ⟨hxr, hxc⟩ : current.x.rows = ode.dim ∧ current.x.cols = ode.directions :=
    Prod.mk.inj hx
  have hzShape : (Matrix.zeros current.x.rows current.x.cols : Matrix ℝ).shape =
      ode.stateShape := by
    rw [Matrix.shape_zeros, hxr, hxc]
    rfl
  exact ⟨hzShape, hAffine.residual _ _ _ hx hzShape⟩

/-- **The one update lands on the root.** When `J(1/dt, 1) · u = -F(t + dt, X_n, 0)` is
solved, `X_n + u` with the rate `u / dt` zeroes the residual. -/
theorem affine_root_of_solve {u : Matrix ℝ}
    (hSolve : (A.scale (1 / dt) + B.scale 1).factor.solve (-(A * (Matrix.zeros current.x.rows
      current.x.cols : Matrix ℝ) + B * current.x + c (current.time + dt))) = .ok u) :
    u.shape = ode.stateShape ∧ ode.residual (current.time + dt) (current.x + u) (u.divide dt) =
      .ok (Matrix.zeros ode.dim ode.directions) := by
  obtain ⟨hxr, hxc⟩ : current.x.rows = ode.dim ∧ current.x.cols = ode.directions :=
    Prod.mk.inj hx
  obtain ⟨hAr, -⟩ := Prod.mk.inj hAffine.shape_rate
  have hu : u.shape = ode.stateShape := by
    rw [Factors.shape_solve hSolve]
    simp [Matrix.shape, hAr, hxc, ImplicitOde.stateShape]
  refine ⟨hu, ?_⟩
  rw [← Matrix.scale_one_div_real]
  refine hAffine.residual_update hx hu ?_
  rw [Factors.mul_solve hSolve, hxr, hxc]

/-- **Newton's method stops at the one update.** From the same first update, a second, when
the first is not yet small enough, solves with a zero residual and so changes nothing; it is
then small enough whatever the tolerances, as long as they are not negative. -/
theorem newtonStep_of_affine_solve {newton : NewtonSettings ℝ} (hIters : 2 ≤ newton.maxIters)
    (hAbs : 0 ≤ newton.absTol) (hRel : 0 ≤ newton.relTol) {u : Matrix ℝ}
    (hSolve : (A.scale (1 / dt) + B.scale 1).factor.solve (-(A * (Matrix.zeros current.x.rows
      current.x.cols : Matrix ℝ) + B * current.x + c (current.time + dt))) = .ok u) :
    ∃ n, newtonStep newton ode current dt =
      .ok { x := current.x + u, xDot := u.divide dt, newtonIters := n } := by
  obtain ⟨hzShape, hResidual⟩ := affine_residual_at_rest hAffine hx (current.time + dt)
  obtain ⟨hu, hRoot⟩ := affine_root_of_solve hAffine hx hSolve
  set r := A * (Matrix.zeros current.x.rows current.x.cols : Matrix ℝ) + B * current.x +
    c (current.time + dt)
  have hrShape : r.shape = ode.stateShape := (Factors.shape_solve hSolve).symm.trans hu
  obtain ⟨m, hm⟩ : ∃ m, newton.maxIters = m + 1 + 1 := ⟨newton.maxIters - 2, by omega⟩
  have hRate : (current.x + u - current.x).scale (Scalar.ofNat 1 / dt) = u.divide dt := by
    rw [Matrix.add_sub_cancel_left_real (hu.trans hx.symm), Scalar.ofNat_real, Nat.cast_one,
      Matrix.scale_one_div_real]
  -- the second update solves the same matrix against the zero residual
  have hSolve' : (A.scale (1 / dt) + B.scale 1).factor.solve
      (-Matrix.zeros ode.dim ode.directions) = .ok (Matrix.zeros (-r).rows (-r).cols) := by
    refine Factors.solve_zero hSolve ?_ fun i j hi hj => ?_
    · rw [Matrix.shape_neg, Matrix.shape_neg, hrShape]
      rfl
    · rw [Matrix.get_neg (Matrix.zeros ode.dim ode.directions) hi hj,
        Matrix.get_zeros (by simpa using hi) (by simpa using hj)]
      simp
  have hStay : current.x + u + Matrix.zeros (-r).rows (-r).cols = current.x + u :=
    Matrix.add_zeros_real (by rw [Matrix.shape_add, hx, ← hrShape]; rfl)
  have hConverged : (Matrix.zeros (-r).rows (-r).cols : Matrix ℝ).norm ≤
      newton.absTol + newton.relTol * (current.x + u).norm := by
    rw [Matrix.norm_zeros_real]
    exact add_nonneg hAbs (mul_nonneg hRel (Matrix.norm_nonneg_real _))
  -- the solvers' `1 / dt`, written as the real numeral `1` over `dt`
  rw [newtonStep, hm]
  show ∃ n, newtonIterate newton ode (current.time + dt) (Scalar.ofNat 1 / dt) current.x
    (m + 1 + 1) 0 current.x (Matrix.zeros current.x.rows current.x.cols) = _
  rw [newtonIterate_succ_of_solve hResidual (affine_iteration hAffine hx hzShape) hSolve
    (Matrix.allFinite_real u), hRate]
  split_ifs
  · exact ⟨1, rfl⟩
  · rw [newtonIterate_succ_of_solve hRoot (affine_iteration hAffine
        ((Matrix.shape_add _ _).trans hx) ((Matrix.shape_divide _ _).trans hu))
      hSolve' (Matrix.allFinite_real _), hStay, hRate, if_pos hConverged]
    exact ⟨2, rfl⟩

end Affine

/-- **On an affine problem the one-update step is Newton's method.** For every state of the
problem's shape and every step size, backward Euler's single exact update from scratch and
Newton's method with room for two iterations and tolerances that are not negative end alike:
both find the iteration matrix singular; or, for a problem without state components but with
a direction, both cannot pose the solve; or both accept the same state and rate, and the state
solves the backward Euler equation `F(t + dt, X, (X - X_n) / dt) = 0` exactly. -/
theorem linearStep_agrees_with_newton {ode : ImplicitOde ℝ ε} {A B : Matrix ℝ}
    {c : ℝ → Matrix ℝ} (hAffine : ode.Affine A B c) {newton : NewtonSettings ℝ}
    (hIters : 2 ≤ newton.maxIters) (hAbs : 0 ≤ newton.absTol) (hRel : 0 ≤ newton.relTol)
    {current : SolutionState ℝ} (hx : current.x.shape = ode.stateShape) (dt : ℝ) :
    ((linearStep none ode current dt).2 = .error (.failure .singularMatrix) ∧
        newtonStep newton ode current dt = .error (.failure .singularMatrix)) ∨
      (ode.dim = 0 ∧ 0 < ode.directions ∧ (linearStep none ode current dt).2 = .error .breach ∧
        newtonStep newton ode current dt = .error .breach) ∨
      ∃ step step', (linearStep none ode current dt).2 = .ok step ∧
        newtonStep newton ode current dt = .ok step' ∧ step.x = step'.x ∧
        step.xDot = step'.xDot ∧
        ode.residual (current.time + dt) step.x ((step.x - current.x).divide dt) =
          .ok (Matrix.zeros ode.dim ode.directions) := by
  -- both steps evaluate the same iteration matrix and residual at the current state, at rest
  obtain ⟨hzShape, hResidual⟩ := affine_residual_at_rest hAffine hx (current.time + dt)
  have hJacobian : ode.jacobian (current.time + dt) current.x
      (Matrix.zeros current.x.rows current.x.cols) (Scalar.ofNat 1 / dt) (Scalar.ofNat 1) =
        .ok (A.scale (1 / dt) + B.scale 1) :=
    affine_iteration hAffine hx hzShape
  rcases hSolve : (A.scale (1 / dt) + B.scale 1).factor.solve
    (-(A * (Matrix.zeros current.x.rows current.x.cols : Matrix ℝ) + B * current.x +
      c (current.time + dt))) with e | u
  · -- the first solve fails, in both steps alike
    have hLinear := linearStep_none_of_solve_error hJacobian hResidual hSolve
    obtain ⟨m, hm⟩ : ∃ m, newton.maxIters = m + 1 := ⟨newton.maxIters - 1, by omega⟩
    have hFirst : newtonStep newton ode current dt = .error (StepError.ofSolve e) := by
      rw [newtonStep, hm]
      exact newtonIterate_succ_of_solve_error hResidual hJacobian hSolve _ _
    cases e with
    | singular => exact .inl ⟨hLinear, hFirst⟩
    | misshapen =>
      -- a solve refused as misshapen: the square matrix is empty, the residual is not
      obtain ⟨hxr, hxc⟩ : current.x.rows = ode.dim ∧ current.x.cols = ode.directions :=
        Prod.mk.inj hx
      obtain ⟨hAr, hAc⟩ := Prod.mk.inj hAffine.shape_rate
      have hFits := Factors.fits_of_solve_misshapen hSolve
      simp [Factors.fits, Matrix.factor, Matrix.shape, hAr, hAc, hxr, hxc] at hFits
      exact .inr (.inl ⟨hFits.1, Nat.pos_of_ne_zero hFits.2, hLinear, hFirst⟩)
  · -- the first solve succeeds: the same state, the same rate, and the root
    obtain ⟨hu, hRoot⟩ := affine_root_of_solve hAffine hx hSolve
    obtain ⟨n, hNewton⟩ := newtonStep_of_affine_solve hAffine hx hIters hAbs hRel hSolve
    refine .inr (.inr ⟨_, _, linearStep_none_of_solve hJacobian hResidual hSolve, hNewton, rfl,
      rfl, ?_⟩)
    rw [Matrix.add_sub_cancel_left_real (hu.trans hx.symm)]
    exact hRoot

end Integrator.Stepper

namespace Sensitivity

open Integrator Stepper

/-- The adjoint problem of the logistic model frozen with `J* = 2` and `(∂g/∂x)ᵀ = 1` under an
identity mass: its one-update step from `y = 1` is Newton's method with no tolerance. -/
theorem frozen_adjoint_linearStep_agrees_with_newton :
    let ops : Operators ℝ :=
      { jacobian := Matrix.ofFn 1 1 fun _ _ => 2, mass := none,
        responseGradient := Matrix.ofFn 1 1 fun _ _ => 1, dgDp := Matrix.zeros 1 3 }
    let state : SolutionState ℝ :=
      { time := 0, index := 0, dt := 0, x := Matrix.ofFn 1 1 fun _ _ => 1,
        xDot := Matrix.ofFn 1 1 fun _ _ => 0, xDotDot := none }
    let eq : AdjointEquation ℝ :=
      { model := Logistic.toModel ⟨1, 2, 0⟩, adjointModel := none, parameterIndex := 0,
        responseIndex := 0, massIdentity := true, frozen := some ⟨state, #[], ops⟩ }
    let newton : NewtonSettings ℝ := { maxIters := 2, absTol := 0, relTol := 0 }
    eq.toOde.Affine (ops.massMatrix 1) ops.jacobian (fun _ => -ops.responseGradient) ∧
      2 ≤ newton.maxIters ∧ 0 ≤ newton.absTol ∧ 0 ≤ newton.relTol ∧
      state.x.shape = eq.toOde.stateShape ∧
      (((linearStep none eq.toOde state 1).2 = .error (.failure .singularMatrix) ∧
          newtonStep newton eq.toOde state 1 = .error (.failure .singularMatrix)) ∨
        (eq.toOde.dim = 0 ∧ 0 < eq.toOde.directions ∧
          (linearStep none eq.toOde state 1).2 = .error .breach ∧
          newtonStep newton eq.toOde state 1 = .error .breach) ∨
        ∃ step step', (linearStep none eq.toOde state 1).2 = .ok step ∧
          newtonStep newton eq.toOde state 1 = .ok step' ∧ step.x = step'.x ∧
          step.xDot = step'.xDot ∧
          eq.toOde.residual (state.time + 1) step.x ((step.x - state.x).divide 1) =
            .ok (Matrix.zeros eq.toOde.dim eq.toOde.directions)) := by
  intro ops state eq newton
  have hw : ops.WellFormed true 1 1 :=
    ⟨rfl, (fun _ hE => nomatch hE), iff_of_true rfl rfl, rfl⟩
  have hAffine := @AdjointEquation.toOde_affine eq ⟨state, #[], ops⟩ rfl hw
  exact ⟨hAffine, le_rfl, le_rfl, le_rfl, rfl,
    linearStep_agrees_with_newton hAffine le_rfl le_rfl le_rfl rfl 1⟩

end Sensitivity

end SteadyAdjoint
