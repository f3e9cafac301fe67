import SteadyAdjoint.Proofs.AffineStep

/-!
# The frozen adjoint equation

`AdjointEquation.freeze` evaluates the transposed operators of the model at a forward state and
checks five shapes before it keeps anything; the adjoint phase then evaluates the frozen
equation as an implicit problem. This module says what a freeze leaves and what the frozen
equation computes, for a model with `n` states, `ng` components of the response and `np`
parameters in the block:

* a freeze of a state whose rate has the state's shape either succeeds, keeping the state and
  coefficients of the shapes the model declares, or fails with the error of a check or of a
  model evaluation and leaves the equation unfrozen, whatever was frozen before;
* a freeze checks the shape of the state but not that of its rate, which it reads at the first
  column only: a rate of two columns freezes as its first column would, and a rate without
  columns is a breach;
* the frozen equation evaluates its iteration matrix, `n × n`, at every `(α, β)`; its residual
  fails exactly on a state or a rate that is not `n × ng`, naming it, and is `n × ng`
  otherwise; its sensitivity of an `n × ng` state is `ng × np` unless `∂f/∂p` fails to
  evaluate or has the wrong shape; and every product and sum of these evaluations has operands
  of the sizes the arithmetic needs;
* in exact arithmetic the residual is `E* · y_dot + J* · y - (∂g/∂x)ᵀ` at every time, and it
  is affine in `(y, y_dot)` with the iteration matrix as its exact derivative,
  `F(τ, y + β · δ, y_dot + α · δ) = F(τ, y, y_dot) + W(α, β) · δ`.

## Main statements

* `Operators.Shaped`, `AdjointEquation.Evaluates`: the shapes of the coefficients, and what an
  equation frozen with them evaluates.
* `AdjointEquation.freezeAt_error_cases`: the errors of a freeze.
* `AdjointEquation.freeze_outcome`: the two outcomes of a freeze.
* `AdjointEquation.freeze_checks_state_not_rate`: what a freeze checks of a state and its rate,
  and `freeze_accepts_rate_of_two_columns`, a rate of the wrong shape that passes.
* `AdjointEquation.frozen_residual_affine`: the frozen adjoint problem obeys it.
-/

namespace SteadyAdjoint

open Finset Integrator

/-! ## §1 The sizes of the arithmetic -/

namespace Sensitivity

namespace Operators

variable {R : Type} [Scalar R]

/-- Coefficients of the shapes a freeze checks: `J*` and `E*` of `n × n`, `(∂g/∂x)ᵀ` of
`n × ng`, a mass coefficient exactly when the mass matrix is not declared the identity, and
`∂g/∂p` of `ng × np`. -/
structure Shaped (ops : Operators R) (identity : Bool) (n ng np : ℕ) : Prop where
  wellFormed : ops.WellFormed identity n ng
  dgDp : ops.dgDp.shape = (ng, np)

/-- The sizes the residual's arithmetic needs at `(y, y_dot)`: `J* · y` multiplies matching
inner sizes into the shape of `(∂g/∂x)ᵀ`, and so does the mass term `E* · y_dot`, or, for an
identity mass, `y_dot` itself has that shape. -/
def ResidualSized (ops : Operators R) (y yDot : Matrix R) : Prop :=
  ops.jacobian.cols = y.rows ∧ (ops.jacobian * y).shape = ops.responseGradient.shape ∧
    match ops.mass with
    | some E => E.cols = yDot.rows ∧ (E * yDot).shape = ops.responseGradient.shape
    | none => yDot.shape = ops.responseGradient.shape

/-- The sizes the iteration matrix needs: a mass coefficient of the shape of `J*`, or, for an
identity mass, a square `J*` whose diagonal takes `α`. -/
def IterationSized (ops : Operators R) : Prop :=
  match ops.mass with
  | some E => E.shape = ops.jacobian.shape
  | none => ops.jacobian.rows = ops.jacobian.cols

namespace Shaped

variable {ops : Operators R} {identity : Bool} {n ng np : ℕ}

omit [Scalar R] in
theorem iterationSized (h : ops.Shaped identity n ng np) : ops.IterationSized := by
  obtain ⟨hr, hc⟩ := Prod.mk.inj h.wellFormed.jacobian
  unfold IterationSized
  cases hm : ops.mass with
  | some E => exact (h.wellFormed.mass E hm).trans h.wellFormed.jacobian.symm
  | none => exact hr.trans hc.symm

theorem residualSized (h : ops.Shaped identity n ng np) {y yDot : Matrix R}
    (hy : y.shape = (n, ng)) (hyDot : yDot.shape = (n, ng)) : ops.ResidualSized y yDot := by
  obtain ⟨hJr, hJc⟩ := Prod.mk.inj h.wellFormed.jacobian
  obtain ⟨hyr, hyc⟩ := Prod.mk.inj hy
  obtain ⟨hdr, hdc⟩ := Prod.mk.inj hyDot
  refine ⟨by rw [hJc, hyr], by rw [Matrix.shape_mul, hJr, hyc, h.wellFormed.gradient], ?_⟩
  cases hm : ops.mass with
  | some E =>
    obtain ⟨hEr, hEc⟩ := Prod.mk.inj (h.wellFormed.mass E hm)
    exact ⟨by rw [hEc, hdr], by rw [Matrix.shape_mul, hEr, hdc, h.wellFormed.gradient]⟩
  | none => rw [hyDot, h.wellFormed.gradient]

/-- The iteration matrix of shaped coefficients is `n × n`, whatever `(α, β)`. -/
theorem shape_iteration (h : ops.Shaped identity n ng np) (α β : R) :
    (ops.iteration α β).shape = (n, n) := by
  unfold iteration
  -- a mass coefficient is added in the shape of `J*`; an identity mass keeps it
  cases ops.mass <;> simpa [Matrix.shape] using h.wellFormed.jacobian

/-- The residual of shaped coefficients at a state of `ng` columns is `n × ng`. -/
theorem shape_residual (h : ops.Shaped identity n ng np) {y yDot : Matrix R} (hy : y.cols = ng) :
    (ops.residual y yDot).shape = (n, ng) := by
  obtain ⟨hJr, -⟩ := Prod.mk.inj h.wellFormed.jacobian
  unfold residual
  cases ops.mass <;> simp [Matrix.shape, hJr, hy]

end Shaped

end Operators

/-! ## §2 Freezes -/

namespace AdjointEquation

variable {R : Type} [Scalar R] {eq : AdjointEquation R} {state : SolutionState R}
  {params : Array (Vec R)}

omit [Scalar R] in
/-- A check that fails names what it checked, with the shape expected and the one found. -/
theorem checkShape_eq_error {name : String} {expected actual : ℕ × ℕ} {e : AdjointError}
    (h : checkShape name expected actual = .error e) :
    expected ≠ actual ∧ e = .dimensionMismatch name expected actual := by
  unfold checkShape at h
  split_ifs at h with he
  cases h
  exact ⟨he, rfl⟩

/-- A failed evaluation of an adjoint operator is a failed evaluation of a model. -/
theorem adjointOperator_eq_error {p : Point R} {α β : R} {e : AdjointError}
    (h : eq.adjointOperator p α β = .error e) :
    (∃ m, e = .adjointModel m) ∨ ∃ m, e = .model m := by
  unfold adjointOperator at h
  split at h
  · rename_i adj _
    rcases hA : adj.adjointJacobian p α β with m | M <;> simp [hA, Except.mapError] at h
    exact .inl ⟨m, h.symm⟩
  · rcases hJ : eq.model.jacobian p α β with m | M <;>
      simp [hJ, Except.mapError, Except.map] at h
    exact .inr ⟨m, h.symm⟩

/-- An error of a chain is the error of one of its stages. -/
theorem bind_eq_error {ε α β : Type} {x : Except ε α} {f : α → Except ε β} {e : ε}
    (h : x >>= f = .error e) : x = .error e ∨ ∃ a, x = .ok a ∧ f a = .error e := by
  cases x with
  | error e' =>
    cases h
    exact .inl rfl
  | ok a => exact .inr ⟨a, rfl, h⟩

/-- **The errors of a freeze**: a check of a shape, naming it; a failed evaluation of the model
or of the adjoint model; or a breach, when the rate has no column for the model to read. -/
theorem freezeAt_error_cases {e : AdjointError} (h : eq.freezeAt state params = .error e) :
    (∃ name expected actual, e = .dimensionMismatch name expected actual) ∨
      (∃ m, e = .model m) ∨ (∃ m, e = .adjointModel m) ∨
      (e = .breach ∧ state.x.shape = (eq.model.stateDim, 1) ∧ state.xDot.cols = 0) := by
  have hCheck : ∀ {name expected actual}, checkShape name expected actual = .error e →
      ∃ name expected actual, e = .dimensionMismatch name expected actual :=
    fun hc => ⟨_, _, _, (checkShape_eq_error hc).2⟩
  have hOperator : ∀ {p α β}, eq.adjointOperator p α β = .error e →
      (∃ m, e = .model m) ∨ (∃ m, e = .adjointModel m) :=
    fun ho => (adjointOperator_eq_error ho).symm
  rw [freezeAt_eq_bind] at h
  -- the chain's stages in order: the state's shape, the rate's columns, `J*` and its shape,
  -- the mass coefficient, the response gradients and their two shapes
  rcases bind_eq_error h with h | ⟨_, hx, h⟩
  · exact .inl (hCheck h)
  rcases bind_eq_error h with h | ⟨_, -, h⟩
  · split_ifs at h with hCols
    · cases h
      exact .inr (.inr (.inr ⟨rfl, (checkShape_eq_ok hx).symm, hCols⟩))
    · cases h
  rcases bind_eq_error h with h | ⟨_, -, h⟩
  · exact .inr ((hOperator h).imp_right .inl)
  rcases bind_eq_error h with h | ⟨_, -, h⟩
  · exact .inl (hCheck h)
  rcases bind_eq_error h with h | ⟨_, -, h⟩
  · split_ifs at h
    · cases h
    rcases bind_eq_error h with h | ⟨_, -, h⟩
    · exact .inr ((hOperator h).imp_right .inl)
    rcases bind_eq_error h with h | ⟨_, -, h⟩
    · exact .inl (hCheck h)
    · cases h
  rcases bind_eq_error h with h | ⟨_, -, h⟩
  · rcases hG : eq.model.responseGradient eq.responseIndex eq.parameterIndex
        (pointAt state params) with m | G <;>
      simp [hG, Except.mapError] at h
    exact .inr (.inl ⟨m, h.symm⟩)
  rcases bind_eq_error h with h | ⟨_, -, h⟩
  · exact .inl (hCheck h)
  rcases bind_eq_error h with h | ⟨_, -, h⟩
  · exact .inl (hCheck h)
  · cases h

/-- A freeze that succeeds has passed its first and last checks: the state is a single column
of the model's size, and `∂g/∂p` has a row per response component and a column per
parameter. -/
theorem freezeAt_checks {fr : Frozen R} (h : eq.freezeAt state params = .ok fr) :
    state.x.shape = (eq.model.stateDim, 1) ∧
      fr.operators.dgDp.shape =
        (eq.model.responseDim eq.responseIndex, eq.model.parameterDim eq.parameterIndex) := by
  rw [freezeAt_eq_bind] at h
  obtain ⟨_, hx, h⟩ := bind_eq_ok h
  obtain ⟨_, -, h⟩ := bind_eq_ok h
  obtain ⟨_, -, h⟩ := bind_eq_ok h
  obtain ⟨_, -, h⟩ := bind_eq_ok h
  obtain ⟨_, -, h⟩ := bind_eq_ok h
  obtain ⟨_, -, h⟩ := bind_eq_ok h
  obtain ⟨_, -, h⟩ := bind_eq_ok h
  obtain ⟨_, hgp, h⟩ := bind_eq_ok h
  cases h
  exact ⟨(checkShape_eq_ok hx).symm, (checkShape_eq_ok hgp).symm⟩

/-- **A freeze that succeeds** keeps the state, with coefficients of the model's shapes. -/
theorem freezeAt_shaped {fr : Frozen R} (h : eq.freezeAt state params = .ok fr) :
    fr.state = state ∧ state.x.rows = eq.model.stateDim ∧
      fr.operators.Shaped eq.massIdentity eq.model.stateDim
        (eq.model.responseDim eq.responseIndex) (eq.model.parameterDim eq.parameterIndex) := by
  obtain ⟨hState, -, -, -, -, hw, -⟩ := freezeAt_eq_ok h
  obtain ⟨hx, hgp⟩ := freezeAt_checks h
  exact ⟨hState, (Prod.mk.inj hx).1, ⟨hw, hgp⟩⟩

/-- A freeze keeps what its evaluation gives: the frozen coefficients, or nothing. -/
theorem freeze_cases (eq : AdjointEquation R) (state : SolutionState R) (params : Array (Vec R)) :
    (∃ fr, eq.freezeAt state params = .ok fr ∧
        eq.freeze state params = ({ eq with frozen := some fr }, .ok ())) ∨
      ∃ e, eq.freezeAt state params = .error e ∧
        eq.freeze state params = ({ eq with frozen := none }, .error e) := by
  unfold freeze
  cases eq.freezeAt state params with
  | ok fr => exact .inl ⟨fr, rfl, rfl⟩
  | error e => exact .inr ⟨e, rfl, rfl⟩

/-! ## §3 What a frozen equation evaluates -/

/-- What an equation frozen with `fr` evaluates, for `n` states, `ng` components of the
response and `np` parameters: the iteration matrix at every `(α, β)`, `n × n`; the residual
exactly at a state and a rate of shape `n × ng`, of that shape, and otherwise the error naming
the first one that is not; and the sensitivity of an `n × ng` state, `ng × np`, unless `∂f/∂p`
fails to evaluate or has the wrong shape. Every product and sum they form has operands of the
sizes the arithmetic needs. -/
structure Evaluates (eq : AdjointEquation R) (fr : Frozen R) (n ng np : ℕ) : Prop where
  iteration : ∀ α β, eq.jacobian α β = .ok (fr.operators.iteration α β) ∧
    (fr.operators.iteration α β).shape = (n, n)
  iterationSized : fr.operators.IterationSized
  residual : ∀ y yDot, y.shape = (n, ng) → yDot.shape = (n, ng) →
    eq.residual y yDot = .ok (fr.operators.residual y yDot) ∧
      (fr.operators.residual y yDot).shape = (n, ng) ∧ fr.operators.ResidualSized y yDot
  residual_error : ∀ y yDot e, eq.residual y yDot = .error e →
    (y.shape ≠ (n, ng) ∧ e = .dimensionMismatch "y" (n, ng) y.shape) ∨
      (y.shape = (n, ng) ∧ yDot.shape ≠ (n, ng) ∧
        e = .dimensionMismatch "y_dot" (n, ng) yDot.shape)
  sensitivity : ∀ y, y.shape = (n, ng) →
    (∃ dfDp, eq.model.parameterJacobian eq.parameterIndex (pointAt fr.state fr.params) =
        .ok dfDp ∧ y.rows = dfDp.rows ∧ (y.transpose * dfDp).shape = fr.operators.dgDp.shape ∧
      eq.sensitivity y = .ok (fr.operators.dgDp - y.transpose * dfDp) ∧
      (fr.operators.dgDp - y.transpose * dfDp).shape = (ng, np)) ∨
    (∃ m, eq.sensitivity y = .error (.model m)) ∨
    (∃ actual, eq.sensitivity y = .error (.dimensionMismatch "df/dp" (n, np) actual))

variable {fr : Frozen R} {n ng np : ℕ}

/-- The residual of a frozen equation: the two checks, then the coefficients' residual. -/
theorem residual_of_frozen (hFrozen : eq.frozen = some fr) (y yDot : Matrix R) :
    eq.residual y yDot =
      if fr.operators.responseGradient.shape = y.shape then
        if fr.operators.responseGradient.shape = yDot.shape then
          .ok (fr.operators.residual y yDot)
        else .error (.dimensionMismatch "y_dot" fr.operators.responseGradient.shape yDot.shape)
      else .error (.dimensionMismatch "y" fr.operators.responseGradient.shape y.shape) := by
  simp only [residual, operators_of_frozen hFrozen, checkShape, bind, Except.bind, pure,
    Except.pure]
  split_ifs <;> rfl

/-- The sensitivity of a frozen equation at a state of the gradient's shape: `∂f/∂p` at the
frozen point, its check, and `∂g/∂p - yᵀ · ∂f/∂p`. -/
theorem sensitivity_of_frozen (hFrozen : eq.frozen = some fr) {y : Matrix R}
    (hy : y.shape = fr.operators.responseGradient.shape) :
    eq.sensitivity y =
      match eq.model.parameterJacobian eq.parameterIndex (pointAt fr.state fr.params) with
      | .error m => .error (.model m)
      | .ok dfDp =>
        if ((pointAt fr.state fr.params).x.size, fr.operators.dgDp.cols) = dfDp.shape then
          .ok (fr.operators.dgDp - y.transpose * dfDp)
        else .error (.dimensionMismatch "df/dp"
          ((pointAt fr.state fr.params).x.size, fr.operators.dgDp.cols) dfDp.shape) := by
  rcases hB : eq.model.parameterJacobian eq.parameterIndex (pointAt fr.state fr.params) with
    m | dfDp
  · simp [sensitivity, hFrozen, checkShape, hy, hB, bind, Except.bind, pure, Except.pure,
      Except.mapError]
  · simp only [sensitivity, hFrozen, checkShape, hy, hB, if_true, bind, Except.bind, pure,
      Except.pure, Except.mapError]
    split_ifs <;> rfl

/-- **An equation frozen with shaped coefficients evaluates** as `Evaluates` says, at a frozen
state of the model's size. -/
theorem evaluates_of_frozen (hFrozen : eq.frozen = some fr)
    (hShaped : fr.operators.Shaped eq.massIdentity n ng np) (hState : fr.state.x.rows = n) :
    eq.Evaluates fr n ng np where
  iteration α β := ⟨jacobian_of_frozen hFrozen α β, hShaped.shape_iteration α β⟩
  iterationSized := hShaped.iterationSized
  residual y yDot hy hyDot := by
    have hG := hShaped.wellFormed.gradient
    refine ⟨?_, hShaped.shape_residual (Prod.mk.inj hy).2, hShaped.residualSized hy hyDot⟩
    rw [residual_of_frozen hFrozen, hG, hy, hyDot, if_pos rfl, if_pos rfl]
  residual_error y yDot e he := by
    rw [residual_of_frozen hFrozen, hShaped.wellFormed.gradient] at he
    -- the state is checked first, then the rate
    split_ifs at he with hy hyDot
    · cases he
      exact .inr ⟨hy.symm, Ne.symm hyDot, rfl⟩
    · cases he
      exact .inl ⟨Ne.symm hy, rfl⟩
  sensitivity y hy := by
    obtain ⟨hDr, hDc⟩ := Prod.mk.inj hShaped.dgDp
    have hSize : (pointAt fr.state fr.params).x.size = n := by
      simp [pointAt, hState]
    rw [sensitivity_of_frozen hFrozen (by rw [hy, hShaped.wellFormed.gradient])]
    rcases hB : eq.model.parameterJacobian eq.parameterIndex (pointAt fr.state fr.params) with
      m | dfDp
    · exact .inr (.inl ⟨m, rfl⟩)
    simp only [hSize, hDc]
    split_ifs with hCheck
    · -- `yᵀ` is `ng × n` and `∂f/∂p` is `n × np`: the product has the shape of `∂g/∂p`
      obtain ⟨hBr, hBc⟩ := Prod.mk.inj hCheck
      obtain ⟨hyr, hyc⟩ := Prod.mk.inj hy
      refine .inl ⟨dfDp, rfl, by rw [hyr, ← hBr], ?_, rfl, by simp [Matrix.shape, hDr, hDc]⟩
      simp [Matrix.shape, hyc, hDr, hDc, ← hBc]
    · exact .inr (.inr ⟨dfDp.shape, rfl⟩)

/-- **The two outcomes of a freeze.** For a state whose rate has the state's shape, a freeze
either succeeds, and the equation is frozen at that state with coefficients of the model's
shapes, evaluating as `Evaluates` says; or it fails, with an error of a check or of a model
evaluation but never a breach, and leaves the equation unfrozen, whatever was frozen
before. -/
theorem freeze_outcome (eq : AdjointEquation R) (state : SolutionState R)
    (params : Array (Vec R)) (hRate : state.xDot.shape = state.x.shape) :
    (∃ fr, (eq.freeze state params).2 = .ok () ∧ (eq.freeze state params).1.frozen = some fr ∧
      fr.state = state ∧
      fr.operators.Shaped eq.massIdentity eq.model.stateDim
        (eq.model.responseDim eq.responseIndex) (eq.model.parameterDim eq.parameterIndex) ∧
      (eq.freeze state params).1.Evaluates fr eq.model.stateDim
        (eq.model.responseDim eq.responseIndex) (eq.model.parameterDim eq.parameterIndex)) ∨
    (∃ e, (eq.freeze state params).2 = .error e ∧ e ≠ .breach ∧
      (eq.freeze state params).1.isFrozen = false) := by
  rcases freeze_cases eq state params with ⟨fr, hAt, hFreeze⟩ | ⟨e, hAt, hFreeze⟩
  · obtain ⟨hState, hRows, hShaped⟩ := freezeAt_shaped hAt
    have hFrozen : ({ eq with frozen := some fr } : AdjointEquation R).frozen = some fr := rfl
    rw [hFreeze]
    exact .inl ⟨fr, rfl, rfl, hState, hShaped,
      evaluates_of_frozen hFrozen hShaped (hState ▸ hRows)⟩
  · rw [hFreeze]
    refine .inr ⟨e, rfl, ?_, rfl⟩
    -- a breach needs a rate without columns, and the rate has the state's single column
    rintro rfl
    rcases freezeAt_error_cases hAt with
      ⟨_, _, _, he⟩ | ⟨_, he⟩ | ⟨_, he⟩ | ⟨-, hx, hCols⟩
    · cases he
    · cases he
    · cases he
    · have hOne : state.xDot.cols = 1 := congrArg Prod.snd (hRate.trans hx)
      omega

/-- The relaxation equation, frozen at its forward steady state: a state and a rate of one
entry each, so the freeze may not breach. -/
theorem relaxation_freeze_outcome :
    relaxationSteady.xDot.shape = relaxationSteady.x.shape ∧
    let eq := relaxationSolver.equation
    let frozen := eq.freeze relaxationSteady relaxationPoly.params
    ((∃ fr, frozen.2 = .ok () ∧ frozen.1.frozen = some fr ∧ fr.state = relaxationSteady ∧
      fr.operators.Shaped eq.massIdentity eq.model.stateDim
        (eq.model.responseDim eq.responseIndex) (eq.model.parameterDim eq.parameterIndex) ∧
      frozen.1.Evaluates fr eq.model.stateDim
        (eq.model.responseDim eq.responseIndex) (eq.model.parameterDim eq.parameterIndex)) ∨
    (∃ e, frozen.2 = .error e ∧ e ≠ .breach ∧ frozen.1.isFrozen = false)) :=
  ⟨rfl, freeze_outcome relaxationSolver.equation relaxationSteady relaxationPoly.params rfl⟩

/-! ## §4 The rate of a frozen state

A freeze checks that the state is one column of the model's size, but never checks its rate:
the models are evaluated at the rate's first column, so a rate with more columns, or whose first
column has another length, freezes as that column alone would. A rate without any column
leaves nothing to read there, and the freeze breaches. -/

section Rate

variable {R : Type} [Scalar R] {eq : AdjointEquation R} {params : Array (Vec R)}
  {state state' : SolutionState R}

/-- The point of a state reads its time, its state and the first column of its rate. -/
theorem pointAt_congr (hTime : state'.time = state.time) (hx : state'.x = state.x)
    (hRate : state'.xDot.col 0 = state.xDot.col 0) :
    pointAt state' params = pointAt state params := by
  simp only [pointAt, hTime, hx, hRate]

/-- **A freeze reads the rate at its first column only**: two states with the same time and
state, whose rates have a column and the same first one, freeze to the same coefficients or
fail with the same error. -/
theorem freezeAt_congr_rate (hTime : state'.time = state.time) (hx : state'.x = state.x)
    (hRate : state'.xDot.col 0 = state.xDot.col 0) (hCols : 0 < state.xDot.cols)
    (hCols' : 0 < state'.xDot.cols) :
    (·.operators) <$> eq.freezeAt state' params = (·.operators) <$> eq.freezeAt state params := by
  rw [freezeAt_eq_bind, freezeAt_eq_bind, pointAt_congr hTime hx hRate, hx,
    if_neg hCols.ne', if_neg hCols'.ne']
  simp only [map_bind, map_pure]

/-- Two freezes whose evaluations agree but for the state they keep have the same outcome and
keep the same coefficients. -/
theorem freeze_congr_of_operators
    (h : (·.operators) <$> eq.freezeAt state' params = (·.operators) <$> eq.freezeAt state params) :
    (eq.freeze state' params).2 = (eq.freeze state params).2 ∧
      (eq.freeze state' params).1.frozen.map (·.operators) =
        (eq.freeze state params).1.frozen.map (·.operators) := by
  unfold freeze
  cases h₁ : eq.freezeAt state' params <;> cases h₂ : eq.freezeAt state params <;>
    simp_all [Functor.map, Except.map]

/-- **A freeze breaches exactly at a rate without columns**, once the state has passed its
check. -/
theorem freeze_eq_breach_iff (eq : AdjointEquation R) (state : SolutionState R)
    (params : Array (Vec R)) :
    (eq.freeze state params).2 = .error .breach ↔
      state.x.shape = (eq.model.stateDim, 1) ∧ state.xDot.cols = 0 := by
  constructor
  · intro h
    rcases freeze_cases eq state params with ⟨fr, -, hFreeze⟩ | ⟨e, hAt, hFreeze⟩
    · rw [hFreeze] at h
      cases h
    · rw [hFreeze] at h
      cases h
      -- the only breach of the chain is the rate's
      rcases freezeAt_error_cases hAt with ⟨_, _, _, he⟩ | ⟨_, he⟩ | ⟨_, he⟩ | ⟨-, hx, hCols⟩
      · cases he
      · cases he
      · cases he
      · exact ⟨hx, hCols⟩
  · rintro ⟨hx, hCols⟩
    have hAt : eq.freezeAt state params = .error .breach := by
      rw [freezeAt_eq_bind]
      simp [checkShape, hx, hCols, bind, Except.bind, throw, throwThe, MonadExceptOf.throw]
    simp [freeze, hAt]

/-- A state that is not one column of the model's size fails the first check, which names
it, and the equation is left unfrozen. -/
theorem freeze_of_state_misshapen (hx : state.x.shape ≠ (eq.model.stateDim, 1)) :
    eq.freeze state params = ({ eq with frozen := none },
      .error (.dimensionMismatch "frozen state" (eq.model.stateDim, 1) state.x.shape)) := by
  have hAt : eq.freezeAt state params =
      .error (.dimensionMismatch "frozen state" (eq.model.stateDim, 1) state.x.shape) := by
    rw [freezeAt_eq_bind]
    simp [checkShape, Ne.symm hx, bind, Except.bind]
  simp [freeze, hAt]

/-- A freeze that succeeds keeps the state it was given, and its rate has a column. -/
theorem freezeAt_rate_pos {fr : Frozen R} (h : eq.freezeAt state params = .ok fr) :
    fr.state = state ∧ 0 < state.xDot.cols := by
  refine ⟨(freezeAt_shaped h).1, Nat.pos_of_ne_zero fun hCols => ?_⟩
  rw [freezeAt_eq_bind] at h
  obtain ⟨_, -, h⟩ := bind_eq_ok h
  obtain ⟨_, hRate, -⟩ := bind_eq_ok h
  simp [hCols, throw, throwThe, MonadExceptOf.throw] at hRate

/-- **What a freeze checks of a state, and what it does not.** A freeze breaches exactly when
the state is one column of the model's size and its rate has no column. A state that is not
one column of the model's size is rejected with `DimensionMismatch`, naming it, and leaves the
equation unfrozen. The rate is never checked: two states with the same time and state, whose
rates have a column and the same first one, have the same outcome and keep the same
coefficients, so a rate of any other shape freezes as its first column alone would. A freeze
that succeeds keeps a state whose rate has a column, which the sensitivity reads again. -/
theorem freeze_checks_state_not_rate (eq : AdjointEquation R) (state : SolutionState R)
    (params : Array (Vec R)) :
    ((eq.freeze state params).2 = .error .breach ↔
        state.x.shape = (eq.model.stateDim, 1) ∧ state.xDot.cols = 0) ∧
    (state.x.shape ≠ (eq.model.stateDim, 1) →
      eq.freeze state params = ({ eq with frozen := none },
        .error (.dimensionMismatch "frozen state" (eq.model.stateDim, 1) state.x.shape))) ∧
    (∀ state' : SolutionState R, state'.time = state.time → state'.x = state.x →
      state'.xDot.col 0 = state.xDot.col 0 → 0 < state.xDot.cols → 0 < state'.xDot.cols →
      (eq.freeze state' params).2 = (eq.freeze state params).2 ∧
        (eq.freeze state' params).1.frozen.map (·.operators) =
          (eq.freeze state params).1.frozen.map (·.operators)) ∧
    ((eq.freeze state params).2 = .ok () →
      ∃ fr, (eq.freeze state params).1.frozen = some fr ∧ fr.state = state ∧
        0 < fr.state.xDot.cols) := by
  refine ⟨freeze_eq_breach_iff eq state params, freeze_of_state_misshapen,
    fun state' hTime hx hRate hCols hCols' =>
      freeze_congr_of_operators (freezeAt_congr_rate hTime hx hRate hCols hCols'), ?_⟩
  intro hOk
  rcases freeze_cases eq state params with ⟨fr, hAt, hFreeze⟩ | ⟨e, -, hFreeze⟩
  · obtain ⟨rfl, hCols⟩ := freezeAt_rate_pos hAt
    rw [hFreeze]
    exact ⟨fr, rfl, rfl, hCols⟩
  · rw [hFreeze] at hOk
    cases hOk

end Rate

/-- The relaxation's forward steady state with a rate of two columns, both zero. -/
noncomputable def relaxationWideRate : SolutionState ℝ :=
  { relaxationSteady with xDot := Matrix.ofFn 1 2 fun _ _ => 0 }

theorem relaxationWideRate_col : relaxationWideRate.xDot.col 0 = relaxationSteady.xDot.col 0 := by
  simp [relaxationWideRate, relaxationSteady, Matrix.col, Array.ofFn_succ,
    Matrix.get_ofFn _ Nat.one_pos]

/-- The relaxation equation frozen at its forward steady state, and at the same state with a
rate of two columns: the two freezes end alike. -/
theorem relaxation_freeze_checks_state_not_rate :
    (relaxationSolver.equation.freeze relaxationWideRate relaxationPoly.params).2 =
        (relaxationSolver.equation.freeze relaxationSteady relaxationPoly.params).2 ∧
      (relaxationSolver.equation.freeze relaxationWideRate relaxationPoly.params).1.frozen.map
          (·.operators) =
        (relaxationSolver.equation.freeze relaxationSteady relaxationPoly.params).1.frozen.map
          (·.operators) :=
  (freeze_checks_state_not_rate relaxationSolver.equation relaxationSteady
    relaxationPoly.params).2.2.1 relaxationWideRate rfl rfl relaxationWideRate_col
    (by simp [relaxationSteady]) (by simp [relaxationWideRate])

/-- **A rate of two columns is frozen.** The relaxation's steady state with a rate of shape
`1 × 2` passes the freeze, although its rate is not one column of the model's size. -/
theorem freeze_accepts_rate_of_two_columns :
    relaxationWideRate.xDot.shape ≠ (relaxationSolver.equation.model.stateDim, 1) ∧
      (relaxationSolver.equation.freeze relaxationWideRate relaxationPoly.params).2 = .ok () := by
  refine ⟨by simp [relaxationWideRate, relaxationSolver, Matrix.shape], ?_⟩
  -- the wide rate freezes as the steady state's own rate, its first column, does
  have hRate : (·.operators) <$> relaxationSolver.equation.freezeAt relaxationWideRate
        relaxationPoly.params =
      (·.operators) <$> relaxationSolver.equation.freezeAt relaxationSteady relaxationPoly.params :=
    freezeAt_congr_rate rfl rfl relaxationWideRate_col (by simp [relaxationSteady])
      (by simp [relaxationWideRate])
  rw [(freeze_congr_of_operators hRate).1]
  simp only [freeze, @relaxation_freezeAt relaxationSteady 0 0 rfl rfl]

end AdjointEquation

end Sensitivity

/-! ## §5 The affine law of the frozen equation -/

namespace Sensitivity.AdjointEquation

/-- **The frozen adjoint problem is affine, with an exact iteration matrix.** After a freeze
that succeeds, take states `y`, rates `y_dot` and moves `δ` with one row per state and one
column per response component. At every time `τ` and all `(α, β)`, in exact arithmetic, the
residual is `E* · y_dot + J* · y - (∂g/∂x)ᵀ`, the iteration matrix is `α · E* + β · J*`
whatever the state and the rate, and

  `F(τ, y + β · δ, y_dot + α · δ) = F(τ, y, y_dot) + W(τ, y, y_dot, α, β) · δ`.

`E*` is the frozen mass coefficient, or the identity when the mass matrix is declared one, and
the coefficients come from the adjoint model when there is one, else from the model's Jacobian
transposed. -/
theorem frozen_residual_affine {eq : AdjointEquation ℝ} {state : SolutionState ℝ}
    {params : Array (Vec ℝ)} (hFreeze : (eq.freeze state params).2 = .ok ()) :
    ∃ fr, (eq.freeze state params).1.frozen = some fr ∧
      ∀ (τ α β : ℝ) (y yDot δ : Matrix ℝ),
        y.shape = (eq.model.stateDim, eq.model.responseDim eq.responseIndex) →
        yDot.shape = (eq.model.stateDim, eq.model.responseDim eq.responseIndex) →
        δ.shape = (eq.model.stateDim, eq.model.responseDim eq.responseIndex) →
        (eq.freeze state params).1.toOde.residual τ y yDot =
            .ok (fr.operators.massMatrix eq.model.stateDim * yDot + fr.operators.jacobian * y -
              fr.operators.responseGradient) ∧
          (eq.freeze state params).1.toOde.jacobian τ y yDot α β =
            .ok ((fr.operators.massMatrix eq.model.stateDim).scale α +
              fr.operators.jacobian.scale β) ∧
          (eq.freeze state params).1.toOde.residual τ (y + δ.scale β) (yDot + δ.scale α) =
            (do
              let r ← (eq.freeze state params).1.toOde.residual τ y yDot
              let W ← (eq.freeze state params).1.toOde.jacobian τ y yDot α β
              pure (r + W * δ)) := by
  rcases freeze_cases eq state params with ⟨fr, hAt, hEq⟩ | ⟨e, -, hEq⟩
  swap
  · rw [hEq] at hFreeze
    cases hFreeze
  have hw := (freezeAt_shaped hAt).2.2.wellFormed
  rw [hEq]
  -- the frozen problem is affine in `(y, y_dot)`, with coefficients `E*` and `J*`
  have hFrozen : ({ eq with frozen := some fr } : AdjointEquation ℝ).frozen = some fr := rfl
  have hAffine := toOde_affine hFrozen hw
  refine ⟨fr, rfl, fun τ α β y yDot δ hy hyDot hδ => ?_⟩
  have hr := hAffine.residual τ y yDot hy hyDot
  have hW := hAffine.jacobian τ y yDot α β hy hyDot
  refine ⟨?_, hW, ?_⟩
  · obtain ⟨hEr, -⟩ := Prod.mk.inj hw.massMatrix_shape
    rw [hr, Matrix.add_neg_real]
    rw [Matrix.shape_add, Matrix.shape_mul, hEr, hw.gradient, (Prod.mk.inj hyDot).2]
  · rw [hAffine.residual_add_scale τ α β hy hyDot hδ, hr, hW]
    rfl

/-- The relaxation's adjoint equation, frozen at its forward steady state, is affine. -/
theorem relaxation_frozen_residual_affine :
    let eq := relaxationSolver.equation
    let frozen := (eq.freeze relaxationSteady relaxationPoly.params).1
    (eq.freeze relaxationSteady relaxationPoly.params).2 = .ok () ∧
    ∃ fr, frozen.frozen = some fr ∧
      ∀ (τ α β : ℝ) (y yDot δ : Matrix ℝ),
        y.shape = (eq.model.stateDim, eq.model.responseDim eq.responseIndex) →
        yDot.shape = (eq.model.stateDim, eq.model.responseDim eq.responseIndex) →
        δ.shape = (eq.model.stateDim, eq.model.responseDim eq.responseIndex) →
        frozen.toOde.residual τ y yDot =
            .ok (fr.operators.massMatrix eq.model.stateDim * yDot + fr.operators.jacobian * y -
              fr.operators.responseGradient) ∧
          frozen.toOde.jacobian τ y yDot α β =
            .ok ((fr.operators.massMatrix eq.model.stateDim).scale α +
              fr.operators.jacobian.scale β) ∧
          frozen.toOde.residual τ (y + δ.scale β) (yDot + δ.scale α) =
            (do
              let r ← frozen.toOde.residual τ y yDot
              let W ← frozen.toOde.jacobian τ y yDot α β
              pure (r + W * δ)) := by
  intro eq frozen
  have hFreeze : (eq.freeze relaxationSteady relaxationPoly.params).2 = .ok () := by
    simp only [eq, AdjointEquation.freeze, @relaxation_freezeAt relaxationSteady 0 0 rfl rfl]
  exact ⟨hFreeze, frozen_residual_affine hFreeze⟩

end Sensitivity.AdjointEquation

end SteadyAdjoint
