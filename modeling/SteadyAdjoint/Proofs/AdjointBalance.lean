import SteadyAdjoint.Proofs.Elimination
import SteadyAdjoint.Proofs.Cache
import SteadyAdjoint.Sensitivity.Equation

/-!
# Accepted adjoint steps balance the adjoint equation

In exact arithmetic an accepted step of the frozen adjoint equation ends at a state that
satisfies the equation exactly:

  `E* · y_dot + J* · y = (∂g/∂x)ᵀ`,

where `J* = (∂f/∂x)ᵀ` and `E* = (∂f/∂x_dot)ᵀ` are the frozen coefficients, `E*` the identity
when the mass matrix is declared to be one. For the linear backward Euler step this is its one
solve `(J* + E* / dt) · Δ = -(J* · y_n - (∂g/∂x)ᵀ)` read back with `y = y_n + Δ` and
`y_dot = Δ / dt`. For forward Euler it is the rate `y_dot = -E*⁻¹ · (J* · y - (∂g/∂x)ᵀ)`, which
the step evaluates again at the state it reaches. Neither depends on the step size, on the
state stepped from, or on the rate the step moved along.

## Main statements

* `Operators.WellFormed.iteration_eq`, `Operators.residual_eq`: the iteration matrix and the
  residual in terms of `J*` and `E*`.
* `linearStep_balanced`, `explicitStep_balanced`: each scheme's step balances the equation.
* `takeStep_balanced`: so does every accepted step of a stepper that keeps no factorisation.
* `stepLaws_real`: the real numbers satisfy the laws the kept factorisation relies on.
* `AdjointEquation.freezeAt_eq_ok`: a freeze that succeeds holds the coefficients of the models
  at the frozen point, well formed.
-/

namespace SteadyAdjoint

open Finset Integrator

/-! ## §1 Evaluations that succeed -/

/-- A computation followed by another succeeds only if both do. -/
theorem bind_eq_ok {ε α β : Type} {x : Except ε α} {f : α → Except ε β} {b : β}
    (h : x >>= f = .ok b) : ∃ a, x = .ok a ∧ f a = .ok b := by
  cases x with
  | error e => cases h
  | ok a => exact ⟨a, rfl, h⟩

theorem mapError_eq_ok {ε ε' α : Type} {x : Except ε α} {g : ε → ε'} {a : α}
    (h : x.mapError g = .ok a) : x = .ok a := by
  cases x with
  | error e => cases h
  | ok a' => cases h; rfl

/-- A solve keeps the shape of the right-hand side. -/
theorem Factors.shape_solve {R : Type} [Scalar R] {f : Factors R} {b x : Matrix R}
    (h : f.solve b = .ok x) : x.shape = b.shape := by
  unfold Factors.solve at h
  split_ifs at h
  dsimp only at h
  split at h
  · cases h
  · cases h
    rfl

/-- The real numbers satisfy the laws of the step sizes: nothing is NaN, and `==` is
equality. -/
theorem stepLaws_real : StepLaws ℝ where
  not_isNaN_of_isFinite _ _ := rfl
  pos_of_not_le_zero _ _ h := lt_of_not_ge h
  admissible_of_not_lt _ _ hlo h := .inl (lt_of_lt_of_le hlo (le_of_not_gt h))
  admissible_sub a b h := .inl (by simpa using lt_of_not_ge h)
  inv_eq_of_beq a b _ h := by rw [beq_iff_eq.1 h]

/-! ## §2 The steps of a stepper that keeps no factorisation -/

namespace Integrator.Stepper

variable {R : Type} [Scalar R] {ε : Type} {ode : ImplicitOde R ε} {current : SolutionState R}
  {dt : R} {step : Step R}

/-- The one-update backward Euler step from scratch: the iteration matrix at `1 / dt`, the
residual at the current state with rate zero, one solve. -/
theorem linearStep_eq_ok (h : (linearStep none ode current dt).2 = .ok step) :
    ∃ M r u, ode.jacobian (current.time + dt) current.x
        (Matrix.zeros current.x.rows current.x.cols) (1 / dt) 1 = .ok M ∧
      ode.residual (current.time + dt) current.x
        (Matrix.zeros current.x.rows current.x.cols) = .ok r ∧
      M.factor.solve (-r) = .ok u ∧
      step = { x := current.x + u, xDot := u.divide dt, newtonIters := 1 } := by
  unfold linearStep at h
  dsimp only at h
  rcases hM : ode.jacobian (current.time + dt) current.x
    (Matrix.zeros current.x.rows current.x.cols) (1 / dt) 1 with e | M
  · simp [hM, Except.map] at h
  rcases hr : ode.residual (current.time + dt) current.x
    (Matrix.zeros current.x.rows current.x.cols) with e | r
  · simp [hM, hr, Except.map] at h
  rcases hu : M.factor.solve (-r) with e | u
  · simp [hM, hr, hu, Except.map] at h
  simp only [hM, hr, hu, Except.map, Except.ok.injEq] at h
  exact ⟨M, r, u, rfl, rfl, hu, h.symm⟩

/-- `-M⁻¹ F` evaluated: the residual, and with a mass factorisation one solve. -/
theorem explicitRate_eq_ok {mass : Option (Factors R)} {t : R} {x zero xDot : Matrix R}
    (h : explicitRate ode mass t x zero = .ok xDot) :
    ∃ r, ode.residual t x zero = .ok r ∧
      (mass = none ∧ xDot = -r ∨ ∃ f, mass = some f ∧ f.solve (-r) = .ok xDot) := by
  obtain ⟨r, hr, hRate⟩ := bind_eq_ok h
  refine ⟨r, mapError_eq_ok hr, ?_⟩
  cases mass with
  | none => exact .inl ⟨rfl, by cases hRate; rfl⟩
  | some f => exact .inr ⟨f, rfl, mapError_eq_ok hRate⟩

/-- The forward Euler step as three evaluations in a row: the mass factorisation unless the
mass matrix is the identity, the rate to move along, and the rate at the state reached. -/
theorem explicitStep_eq_bind :
    explicitStep ode current dt =
      ((if ode.massIsIdentity then pure none else
          (some ∘ Matrix.factor) <$> evaluate (ode.jacobian current.time current.x
            (Matrix.zeros current.x.rows current.x.cols) 1 0)) >>= fun mass =>
        (if 0 < current.index then pure current.xDot else
          explicitRate ode mass current.time current.x
            (Matrix.zeros current.x.rows current.x.cols)) >>= fun rate =>
        explicitRate ode mass (current.time + dt) (current.x + rate.scale dt)
          (Matrix.zeros current.x.rows current.x.cols) >>= fun xDot =>
        pure { x := current.x + rate.scale dt, xDot, newtonIters := 0 }) := by
  unfold explicitStep
  by_cases hm : ode.massIsIdentity = true <;> by_cases hi : 0 < current.index <;>
    simp only [hm, hi, if_true, if_false, Bool.false_eq_true]

/-- The forward Euler step: the mass factorisation unless the mass matrix is the identity,
a move along some rate, and the rate evaluated again at the state reached. -/
theorem explicitStep_eq_ok (h : explicitStep ode current dt = .ok step) :
    ∃ (mass : Option (Factors R)) (rate : Matrix R),
      (ode.massIsIdentity = true ∧ mass = none ∨ ode.massIsIdentity = false ∧
        ∃ M, ode.jacobian current.time current.x
          (Matrix.zeros current.x.rows current.x.cols) 1 0 = .ok M ∧ mass = some M.factor) ∧
      step.x = current.x + rate.scale dt ∧
      explicitRate ode mass (current.time + dt) step.x
        (Matrix.zeros current.x.rows current.x.cols) = .ok step.xDot := by
  rw [explicitStep_eq_bind] at h
  obtain ⟨mass, hMass, h⟩ := bind_eq_ok h
  obtain ⟨rate, -, h⟩ := bind_eq_ok h
  obtain ⟨xDot, hxDot, h⟩ := bind_eq_ok h
  cases h
  refine ⟨mass, rate, ?_, rfl, hxDot⟩
  cases hId : ode.massIsIdentity with
  | true =>
    simp only [hId, if_true, pure, Except.pure, Except.ok.injEq] at hMass
    exact .inl ⟨rfl, hMass.symm⟩
  | false =>
    simp only [hId, Bool.false_eq_true, if_false] at hMass
    obtain ⟨M, hM, hEq⟩ := bind_eq_ok hMass
    cases hEq
    exact .inr ⟨rfl, M, mapError_eq_ok hM, rfl⟩

/-- The first forward Euler step with an identity mass: along `-F` at the current state, with
the rate `-F` at the state reached. -/
theorem explicitStep_first (hIdentity : ode.massIsIdentity = true) (hIndex : current.index = 0)
    {r₀ r₁ : Matrix R}
    (h₀ : ode.residual current.time current.x
      (Matrix.zeros current.x.rows current.x.cols) = .ok r₀)
    (h₁ : ode.residual (current.time + dt) (current.x + (-r₀).scale dt)
      (Matrix.zeros current.x.rows current.x.cols) = .ok r₁) :
    explicitStep ode current dt =
      .ok { x := current.x + (-r₀).scale dt, xDot := -r₁, newtonIters := 0 } := by
  rw [explicitStep_eq_bind]
  simp [hIdentity, hIndex, explicitRate, evaluate, h₀, h₁, bind, Except.bind, pure, Except.pure,
    Except.mapError]

/-- A forward Euler stepper takes the forward Euler step, once its states are finite. -/
theorem takeStep_forwardEuler {s : Stepper R} (hKind : s.kind = .forwardEuler)
    (h : explicitStep ode current dt = .ok step)
    (hFinite : step.x.allFinite = true ∧ step.xDot.allFinite = true) :
    s.takeStep ode current dt = (s, .ok step) := by
  simp [takeStep, hKind, h, hFinite, Except.bind]

/-- An accepted step of a stepper that keeps no factorisation is the step of its scheme: the
one-update step for a linear problem, Newton's otherwise, or forward Euler. -/
theorem reset_takeStep_eq_ok {s : Stepper R} (h : (s.reset.takeStep ode current dt).2 = .ok step) :
    (s.kind = .backwardEuler ∧ ode.isLinear = true ∧
        (linearStep none ode current dt).2 = .ok step) ∨
      (s.kind = .backwardEuler ∧ ode.isLinear = false ∧
        newtonStep s.newton ode current dt = .ok step) ∨
      (s.kind = .forwardEuler ∧ explicitStep ode current dt = .ok step) := by
  rw [takeStep_eq] at h
  -- the finiteness check passes an accepted step through unchanged
  obtain ⟨step', hAttempt, hCheck⟩ := bind_eq_ok h
  have hSame : step' = step := by
    split_ifs at hCheck
    cases hCheck
    rfl
  subst hSame
  have hKind : s.reset.kind = s.kind := rfl
  have hNewton : s.reset.newton = s.newton := rfl
  unfold attempt at hAttempt
  rw [hKind] at hAttempt
  cases hk : s.kind with
  | backwardEuler =>
    rw [hk] at hAttempt
    cases hLin : ode.isLinear with
    | true => exact .inl ⟨rfl, rfl, by simpa [hLin, reset] using hAttempt⟩
    | false => exact .inr (.inl ⟨rfl, rfl, by simpa [hLin, hNewton] using hAttempt⟩)
  | forwardEuler =>
    rw [hk] at hAttempt
    exact .inr (.inr ⟨rfl, hAttempt⟩)

end Integrator.Stepper

namespace Sensitivity

/-! ## §3 The coefficients as matrices -/

namespace Operators

variable {R : Type} [Scalar R]

/-- `E*`, the coefficient of `y_dot`: the frozen mass coefficient, or the identity of size
`n` when the mass matrix is declared the identity. -/
def massMatrix (ops : Operators R) (n : ℕ) : Matrix R := ops.mass.getD (Matrix.identity n)

/-- Coefficients frozen for states of `n` rows and `m` columns: `J*` and `E*` are `n × n`,
`(∂g/∂x)ᵀ` is `n × m`, and a mass coefficient is kept exactly when the mass matrix is not
declared the identity. -/
structure WellFormed (ops : Operators R) (identity : Bool) (n m : ℕ) : Prop where
  jacobian : ops.jacobian.shape = (n, n)
  mass : ∀ E, ops.mass = some E → E.shape = (n, n)
  mass_none : ops.mass = none ↔ identity = true
  gradient : ops.responseGradient.shape = (n, m)

/-- The adjoint equation `E* · y_dot + J* · y = (∂g/∂x)ᵀ` holds at `(y, y_dot)`. -/
def Balanced (ops : Operators R) (n : ℕ) (y yDot : Matrix R) : Prop :=
  ops.massMatrix n * yDot + ops.jacobian * y = ops.responseGradient

end Operators

namespace AdjointEquation

variable {R : Type} [Scalar R] {eq : AdjointEquation R} {fr : Frozen R}

omit [Scalar R] in
theorem operators_of_frozen (h : eq.frozen = some fr) : eq.operators = .ok fr.operators := by
  simp [operators, h]

/-- The iteration matrix of a frozen equation is that of its coefficients. -/
theorem jacobian_of_frozen (h : eq.frozen = some fr) (α β : R) :
    eq.jacobian α β = .ok (fr.operators.iteration α β) := by
  simp [jacobian, operators_of_frozen h, bind, Except.bind, pure, Except.pure]

/-- A residual of a frozen equation that is evaluated is the residual of its coefficients, at
a state and a rate of the shape of the right-hand side. -/
theorem residual_eq_ok (h : eq.frozen = some fr) {y yDot r : Matrix R}
    (hr : eq.residual y yDot = .ok r) :
    y.shape = fr.operators.responseGradient.shape ∧
      yDot.shape = fr.operators.responseGradient.shape ∧ r = fr.operators.residual y yDot := by
  simp only [residual, operators_of_frozen h, checkShape, bind, Except.bind, pure,
    Except.pure] at hr
  split_ifs at hr with hy hyDot
  cases hr
  exact ⟨hy.symm, hyDot.symm, rfl⟩

end AdjointEquation

/-! ## §4 The balance in exact arithmetic -/

namespace Operators

variable {ops : Operators ℝ} {identity : Bool} {n m : ℕ}

/-- **The residual is `J* · y - (∂g/∂x)ᵀ + E* · y_dot`**, also when `E*` is the identity. -/
theorem residual_eq (y yDot : Matrix ℝ) (hyDot : yDot.rows = n) :
    ops.residual y yDot = ops.jacobian * y - ops.responseGradient + ops.massMatrix n * yDot := by
  cases hm : ops.mass with
  | some E => simp [residual, massMatrix, hm]
  | none =>
    simp only [residual, massMatrix, hm, Option.getD_none]
    rw [← hyDot, Matrix.identity_mul_real]

namespace WellFormed

theorem massMatrix_shape (h : ops.WellFormed identity n m) :
    (ops.massMatrix n).shape = (n, n) := by
  cases hm : ops.mass with
  | none => simp [massMatrix, hm]
  | some E => simpa [massMatrix, hm] using h.mass E hm

/-- **The iteration matrix is `β · J* + α · E*`**, also when `E*` is the identity. -/
theorem iteration_eq (h : ops.WellFormed identity n m) (α β : ℝ) :
    ops.iteration α β = ops.jacobian.scale β + (ops.massMatrix n).scale α := by
  cases hm : ops.mass with
  | some E => simp [iteration, massMatrix, hm]
  | none =>
    -- an identity mass adds `α` on the diagonal
    obtain ⟨hr, hc⟩ := Prod.mk.inj h.jacobian
    simp only [iteration, massMatrix, hm, Option.getD_none]
    refine Matrix.ext_get rfl rfl fun i j hi hj => ?_
    have hi1 : i < (ops.jacobian.scale β).rows := hi
    have hj1 : j < (ops.jacobian.scale β).cols := hj
    have hi' : i < n := by simpa [hr] using hi1
    have hj' : j < n := by simpa [hc] using hj1
    rw [Matrix.get_ofFn _ hi1 hj1,
      Matrix.get_add (ops.jacobian.scale β) ((Matrix.identity n).scale α) hi1 hj1,
      Matrix.get_scale ops.jacobian β (by simpa using hi1) (by simpa using hj1),
      Matrix.get_scale (Matrix.identity n) α (by simpa using hi') (by simpa using hj'),
      Matrix.get_identity_real hi' hj']
    split_ifs <;> simp

/-- An entry of the iteration matrix times `u`: `β · (J* · u) + α · (E* · u)`. -/
theorem get_iteration_mul (h : ops.WellFormed identity n m) (α β : ℝ) (u : Matrix ℝ)
    {i j : ℕ} (hi : i < n) (hj : j < u.cols) :
    (ops.iteration α β * u).get i j =
      β * (ops.jacobian * u).get i j + α * (ops.massMatrix n * u).get i j := by
  obtain ⟨hr, hc⟩ := Prod.mk.inj h.jacobian
  obtain ⟨hEr, hEc⟩ := Prod.mk.inj h.massMatrix_shape
  rw [h.iteration_eq,
    Matrix.get_mul_real (ops.jacobian.scale β + (ops.massMatrix n).scale α) u
      (by simpa [hr] using hi) hj,
    Matrix.get_mul_real ops.jacobian u (by rwa [hr]) hj,
    Matrix.get_mul_real (ops.massMatrix n) u (by rwa [hEr]) hj, mul_sum, mul_sum]
  simp only [Matrix.cols_add, Matrix.cols_scale, hc, hEc]
  rw [← sum_add_distrib]
  refine sum_congr rfl fun k hk => ?_
  have hk' := mem_range.1 hk
  rw [Matrix.get_add (ops.jacobian.scale β) ((ops.massMatrix n).scale α)
      (by simpa [hr] using hi) (by simpa [hc] using hk'),
    Matrix.get_scale ops.jacobian β (by rwa [hr]) (by rwa [hc]),
    Matrix.get_scale (ops.massMatrix n) α (by rwa [hEr]) (by rwa [hEc])]
  ring

/-- The residual with rate zero, entry by entry: `J* · y - (∂g/∂x)ᵀ`. -/
theorem get_residual_zeros (h : ops.WellFormed identity n m) (y : Matrix ℝ) {i j : ℕ}
    (hi : i < n) (hj : j < m) (hy : y.cols = m) :
    (ops.residual y (Matrix.zeros n m)).get i j =
      (ops.jacobian * y).get i j - ops.responseGradient.get i j := by
  obtain ⟨hr, -⟩ := Prod.mk.inj h.jacobian
  obtain ⟨hEr, hEc⟩ := Prod.mk.inj h.massMatrix_shape
  have hZero : (ops.massMatrix n * (Matrix.zeros n m : Matrix ℝ)).get i j = 0 := by
    have hz := Matrix.get_mul_zeros (ops.massMatrix n) (c := m) (by rwa [hEr]) hj
    rwa [hEc] at hz
  rw [residual_eq (n := n) y _ rfl,
    Matrix.get_add (ops.jacobian * y - ops.responseGradient)
      (ops.massMatrix n * (Matrix.zeros n m : Matrix ℝ))
      (by simpa [hr] using hi) (by simpa [hy] using hj),
    Matrix.get_sub (ops.jacobian * y) ops.responseGradient (by simpa [hr] using hi)
      (by simpa [hy] using hj), hZero, add_zero]

/-- The shape of the residual with rate zero. -/
theorem shape_residual_zeros (h : ops.WellFormed identity n m) {y : Matrix ℝ}
    (hy : y.shape = (n, m)) : (ops.residual y (Matrix.zeros n m)).shape = (n, m) := by
  obtain ⟨hr, -⟩ := Prod.mk.inj h.jacobian
  obtain ⟨-, hyc⟩ := Prod.mk.inj hy
  rw [residual_eq (n := n) y _ rfl]
  simp [Matrix.shape, hr, hyc]

/-- The balance, entry by entry. -/
theorem balanced_of_get (h : ops.WellFormed identity n m) {y yDot : Matrix ℝ}
    (hyDot : yDot.cols = m)
    (hGet : ∀ i j, i < n → j < m →
      (ops.massMatrix n * yDot).get i j + (ops.jacobian * y).get i j =
        ops.responseGradient.get i j) :
    ops.Balanced n y yDot := by
  obtain ⟨hGr, hGc⟩ := Prod.mk.inj h.gradient
  obtain ⟨hEr, -⟩ := Prod.mk.inj h.massMatrix_shape
  refine Matrix.ext_get (by simp [hEr, hGr]) (by simp [hyDot, hGc]) fun i j hi hj => ?_
  have hi' : i < n := by simpa [hEr] using hi
  have hj' : j < m := by simpa [hyDot] using hj
  rw [Matrix.get_add (ops.massMatrix n * yDot) (ops.jacobian * y) (by simpa [hEr] using hi')
    (by simpa [hyDot] using hj')]
  exact hGet i j hi' hj'

end WellFormed

end Operators

variable {eq : AdjointEquation ℝ} {fr : Frozen ℝ} {n m : ℕ} {current : SolutionState ℝ}
  {dt : ℝ} {step : Step ℝ}

/-- The iteration matrix the adjoint problem evaluates is that of the frozen coefficients. -/
theorem toOde_jacobian_eq_ok (hFrozen : eq.frozen = some fr) {t α β : ℝ} {x xDot M : Matrix ℝ}
    (h : eq.toOde.jacobian t x xDot α β = .ok M) : M = fr.operators.iteration α β := by
  have hJac : eq.jacobian α β = .ok M := h
  rw [AdjointEquation.jacobian_of_frozen hFrozen] at hJac
  cases hJac
  rfl

/-- **The one-update backward Euler step balances the adjoint equation.** -/
theorem linearStep_balanced (hFrozen : eq.frozen = some fr)
    (hw : fr.operators.WellFormed eq.massIdentity n m)
    (h : (Stepper.linearStep none eq.toOde current dt).2 = .ok step) :
    fr.operators.Balanced n step.x step.xDot := by
  obtain ⟨M, r, u, hM, hr, hu, rfl⟩ := Stepper.linearStep_eq_ok h
  obtain ⟨hy, -, rfl⟩ := AdjointEquation.residual_eq_ok hFrozen hr
  obtain rfl := toOde_jacobian_eq_ok hFrozen hM
  obtain ⟨hr, hc⟩ := Prod.mk.inj hw.jacobian
  obtain ⟨hEr, hEc⟩ := Prod.mk.inj hw.massMatrix_shape
  have hx := hy.trans hw.gradient
  obtain ⟨hxr, hxc⟩ := Prod.mk.inj hx
  rw [hxr, hxc] at hu
  -- the solve: `(J* + E* / dt) · Δ = -(J* · y_n - (∂g/∂x)ᵀ)`
  have hRes := hw.shape_residual_zeros hx
  obtain ⟨hRr, hRc⟩ := Prod.mk.inj hRes
  obtain ⟨hur, huc⟩ := Prod.mk.inj ((Factors.shape_solve hu).trans (by simpa using hRes))
  refine hw.balanced_of_get (by simpa using huc) fun i j hi hj => ?_
  have hKey := congrArg (fun A => A.get i j) (Factors.mul_solve hu)
  rw [hw.get_iteration_mul _ _ u hi (by rwa [huc]),
    Matrix.get_neg _ (by rwa [hRr]) (by rwa [hRc]), hw.get_residual_zeros _ hi hj hxc] at hKey
  -- the state and the rate read back: `y = y_n + Δ`, `y_dot = Δ / dt`
  rw [Matrix.mul_divide_real (fr.operators.massMatrix n) u dt (by rw [hEc, hur]),
    Matrix.mul_add_real fr.operators.jacobian current.x u (by rw [hc, hxr])
      (by simp [Matrix.shape, hur, huc, hxr, hxc]),
    Matrix.divide, Matrix.get_map _ (fr.operators.massMatrix n * u) (by simpa [hEr] using hi)
      (by simpa [huc] using hj),
    Matrix.get_add (fr.operators.jacobian * current.x) (fr.operators.jacobian * u)
      (by simpa [hr] using hi) (by simpa [hxc] using hj)]
  simp only [Scalar.numeral_real, Nat.cast_one] at hKey
  linear_combination hKey

/-- **The forward Euler step balances the adjoint equation**: its rate is evaluated again at
the state it reaches. -/
theorem explicitStep_balanced (hFrozen : eq.frozen = some fr)
    (hw : fr.operators.WellFormed eq.massIdentity n m)
    (h : Stepper.explicitStep eq.toOde current dt = .ok step) :
    fr.operators.Balanced n step.x step.xDot := by
  obtain ⟨mass, rate, hMass, -, hRate⟩ := Stepper.explicitStep_eq_ok h
  obtain ⟨r, hr, hSolve⟩ := Stepper.explicitRate_eq_ok hRate
  obtain ⟨hy, hz, rfl⟩ := AdjointEquation.residual_eq_ok hFrozen hr
  obtain ⟨hr, hc⟩ := Prod.mk.inj hw.jacobian
  obtain ⟨hEr, hEc⟩ := Prod.mk.inj hw.massMatrix_shape
  have hx := hy.trans hw.gradient
  obtain ⟨hxr, hxc⟩ := Prod.mk.inj hx
  obtain ⟨hzr, hzc⟩ := Prod.mk.inj (hz.trans hw.gradient)
  simp only [Matrix.rows_zeros, Matrix.cols_zeros] at hzr hzc
  rw [hzr, hzc] at hSolve
  have hRes := hw.shape_residual_zeros hx
  obtain ⟨hRr, hRc⟩ := Prod.mk.inj hRes
  rcases hMass with ⟨hId, rfl⟩ | ⟨hId, M, hM, rfl⟩
  · -- the identity mass: `y_dot = -(J* · y - (∂g/∂x)ᵀ)`
    obtain ⟨-, hxDot⟩ | ⟨f, hf, -⟩ := hSolve
    · have hE : fr.operators.massMatrix n = Matrix.identity n := by
        simp [Operators.massMatrix, hw.mass_none.2 hId]
      have hxDotr : step.xDot.rows = n := by rw [hxDot]; simpa using hRr
      refine hw.balanced_of_get (by rw [hxDot]; simpa using hRc) fun i j hi hj => ?_
      have hI := Matrix.identity_mul_real step.xDot
      rw [hxDotr] at hI
      rw [hE, hI, hxDot, Matrix.get_neg _ (by rwa [hRr]) (by rwa [hRc]),
        hw.get_residual_zeros _ hi hj hxc]
      ring
    · cases hf
  · -- a mass factorisation: `E* · y_dot = -(J* · y - (∂g/∂x)ᵀ)`
    obtain ⟨hNone, -⟩ | ⟨f, hf, hxDot⟩ := hSolve
    · cases hNone
    · cases hf
      obtain rfl := toOde_jacobian_eq_ok hFrozen hM
      obtain ⟨hur, huc⟩ := Prod.mk.inj ((Factors.shape_solve hxDot).trans (by simpa using hRes))
      refine hw.balanced_of_get (by simpa using huc) fun i j hi hj => ?_
      have hKey := congrArg (fun A => A.get i j) (Factors.mul_solve hxDot)
      rw [hw.get_iteration_mul _ _ _ hi (by rwa [huc]),
        Matrix.get_neg _ (by rwa [hRr]) (by rwa [hRc]), hw.get_residual_zeros _ hi hj hxc] at hKey
      simp only [Scalar.numeral_real, Nat.cast_one, Nat.cast_zero] at hKey
      linear_combination hKey

/-- **Every accepted step of a stepper that keeps no factorisation balances the adjoint
equation**, whichever its scheme. -/
theorem takeStep_balanced (hFrozen : eq.frozen = some fr)
    (hw : fr.operators.WellFormed eq.massIdentity n m) {s : Stepper ℝ}
    (h : (s.reset.takeStep eq.toOde current dt).2 = .ok step) :
    fr.operators.Balanced n step.x step.xDot := by
  rcases Stepper.reset_takeStep_eq_ok h with ⟨-, -, hLinear⟩ | ⟨-, hNonlinear, -⟩ | ⟨-, hExplicit⟩
  · exact linearStep_balanced hFrozen hw hLinear
  · cases hNonlinear
  · exact explicitStep_balanced hFrozen hw hExplicit

/-! ## §5 What a freeze holds -/

namespace AdjointEquation

variable {R : Type} [Scalar R] {eq : AdjointEquation R}

/-- `E*` at a point: the identity of the state's size when the mass matrix is declared the
identity, else the adjoint operator at `(α, β) = (1, 0)`. -/
def massOperator (eq : AdjointEquation R) (p : Point R) : Except AdjointError (Matrix R) :=
  if eq.massIdentity then .ok (Matrix.identity eq.model.stateDim) else eq.adjointOperator p 1 0

theorem checkShape_eq_ok {name : String} {expected actual : ℕ × ℕ} {u : Unit}
    (h : checkShape name expected actual = .ok u) : expected = actual := by
  unfold checkShape at h
  split_ifs at h with he
  exact he

/-- A freeze as a chain of evaluations and checks: the state's shape, its rate's columns,
`J*`, the mass coefficient unless the mass matrix is the identity, and the response
gradients. -/
theorem freezeAt_eq_bind (state : SolutionState R) (params : Array (Vec R)) :
    eq.freezeAt state params =
      (checkShape "frozen state" (eq.model.stateDim, 1) state.x.shape >>= fun _ =>
      (if state.xDot.cols = 0 then throw .breach else pure ()) >>= fun _ =>
      eq.adjointOperator (pointAt state params) 0 1 >>= fun jacobian =>
      checkShape "df/dx" (eq.model.stateDim, eq.model.stateDim) jacobian.shape >>= fun _ =>
      (if eq.massIdentity then pure none else
        eq.adjointOperator (pointAt state params) 1 0 >>= fun mass =>
        checkShape "df/dx_dot" (eq.model.stateDim, eq.model.stateDim) mass.shape >>= fun _ =>
        pure (some mass)) >>= fun mass =>
      (eq.model.responseGradient eq.responseIndex eq.parameterIndex
        (pointAt state params)).mapError .model >>= fun gradient =>
      checkShape "dg/dx" (eq.model.responseDim eq.responseIndex, eq.model.stateDim)
        gradient.dgDx.shape >>= fun _ =>
      checkShape "dg/dp" (eq.model.responseDim eq.responseIndex,
        eq.model.parameterDim eq.parameterIndex) gradient.dgDp.shape >>= fun _ =>
      pure { state, params,
             operators := { jacobian, mass, responseGradient := gradient.dgDx.transpose,
                            dgDp := gradient.dgDp } }) := by
  unfold freezeAt
  by_cases hb : state.xDot.cols = 0 <;> by_cases hm : eq.massIdentity = true <;>
    simp only [hb, hm, if_true, if_false, Bool.false_eq_true, pure_bind, bind_assoc]

/-- The mass coefficient a freeze keeps: none when the mass matrix is declared the identity,
else `E*` at the point, square of the state's size. -/
theorem freeze_mass_eq_ok {p : Point R} {mass : Option (Matrix R)}
    (h : (if eq.massIdentity then pure none else
      eq.adjointOperator p 1 0 >>= fun mass =>
      checkShape "df/dx_dot" (eq.model.stateDim, eq.model.stateDim) mass.shape >>= fun _ =>
      pure (some mass)) = Except.ok mass) :
    eq.massIdentity = true ∧ mass = none ∨
      eq.massIdentity = false ∧ ∃ E, eq.adjointOperator p 1 0 = .ok E ∧
        E.shape = (eq.model.stateDim, eq.model.stateDim) ∧ mass = some E := by
  cases hI : eq.massIdentity with
  | true =>
    simp only [hI, if_true, pure, Except.pure, Except.ok.injEq] at h
    exact .inl ⟨rfl, h.symm⟩
  | false =>
    simp only [hI, Bool.false_eq_true, if_false] at h
    obtain ⟨E, hE, h⟩ := bind_eq_ok h
    obtain ⟨_, hEs, h⟩ := bind_eq_ok h
    cases h
    exact .inr ⟨rfl, E, hE, (checkShape_eq_ok hEs).symm, rfl⟩

/-- **A freeze that succeeds** keeps the state and the parameter blocks, and holds the
coefficients of the models at their point, well formed for states of the model's size with
one column per response component, and `∂g/∂p` with one row per response component. -/
theorem freezeAt_eq_ok {state : SolutionState R} {params : Array (Vec R)} {fr : Frozen R}
    (h : eq.freezeAt state params = .ok fr) :
    fr.state = state ∧ fr.params = params ∧
      eq.adjointOperator (pointAt state params) 0 1 = .ok fr.operators.jacobian ∧
      eq.massOperator (pointAt state params) = .ok (fr.operators.massMatrix eq.model.stateDim) ∧
      (∃ gradient, eq.model.responseGradient eq.responseIndex eq.parameterIndex
          (pointAt state params) = .ok gradient ∧
        fr.operators.responseGradient = gradient.dgDx.transpose ∧
        fr.operators.dgDp = gradient.dgDp) ∧
      fr.operators.WellFormed eq.massIdentity eq.model.stateDim
        (eq.model.responseDim eq.responseIndex) ∧
      fr.operators.dgDp.rows = eq.model.responseDim eq.responseIndex := by
  rw [freezeAt_eq_bind] at h
  obtain ⟨_, -, h⟩ := bind_eq_ok h
  obtain ⟨_, -, h⟩ := bind_eq_ok h
  obtain ⟨J, hJ, h⟩ := bind_eq_ok h
  obtain ⟨_, hJs, h⟩ := bind_eq_ok h
  obtain ⟨mass, hMass, h⟩ := bind_eq_ok h
  obtain ⟨gradient, hGradient, h⟩ := bind_eq_ok h
  obtain ⟨_, hgx, h⟩ := bind_eq_ok h
  obtain ⟨_, hgp, h⟩ := bind_eq_ok h
  cases h
  have hgx' := checkShape_eq_ok hgx
  refine ⟨rfl, rfl, hJ, ?_, ⟨gradient, mapError_eq_ok hGradient, rfl, rfl⟩,
    ⟨(checkShape_eq_ok hJs).symm, ?_, ?_, ?_⟩, (Prod.mk.inj (checkShape_eq_ok hgp)).1.symm⟩
  · rcases freeze_mass_eq_ok hMass with ⟨hI, rfl⟩ | ⟨hI, E, hE, -, rfl⟩
    · simp [massOperator, hI, Operators.massMatrix]
    · simp [massOperator, hI, Operators.massMatrix, hE]
  · intro E hE
    rcases freeze_mass_eq_ok hMass with ⟨-, rfl⟩ | ⟨-, E', -, hE's, rfl⟩
    · cases hE
    · cases hE
      exact hE's
  · rcases freeze_mass_eq_ok hMass with ⟨hI, rfl⟩ | ⟨hI, E, -, -, rfl⟩ <;> simp [hI]
  · simp [Matrix.shape] at hgx' ⊢
    exact ⟨hgx'.2.symm, hgx'.1.symm⟩

end AdjointEquation

end Sensitivity

end SteadyAdjoint
