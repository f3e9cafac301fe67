import SteadyAdjoint.Proofs.Observers

/-!
# Norms that overflow

In binary64 a state whose entries are all finite can have an infinite Frobenius norm: the
squares of entries above about `1.3e154` overflow. A step is screened for finite entries
only, so such states are accepted, and two tests of the integrator read their norms: the
steady-state test `|x_dot| ≤ abs + rel · |x|`, and switched evolution relaxation, which
scales the step size by the ratio of consecutive rate norms. This module says exactly what
the two tests still guarantee, and shows by runs of a relaxation `x_dot + x = p` that the
overflow reaches both.

## Main statements

* `Continuation.Reachable.passed_rate_norm_below_threshold`: a run passes only at a state
  whose rate norm passes the binary64 test, and that rate norm has not overflowed unless the
  threshold has.
* `passes_with_overflowed_norms`: a run that passes with both norms `+∞`.
* `Continuation.nextTimeStep_dt_within_bounds_or_nan`: the step size proposed after an
  accepted step lies between the bounds unless it is NaN.
* `Continuation.nextTimeStep_isNaN_of_infinite_rates`: it is NaN after two overflowed rates.
* `time_step_nan_after_overflowed_rates`: a run whose step size becomes NaN.
-/

namespace SteadyAdjoint

open Integrator

/-! ## §1 Doubles at the edge of the range -/

namespace Binary64.Double

/-- A double at most a finite one is neither NaN nor `+∞`. -/
theorem not_overflowed_of_le {x y : Double} (h : x ≤ y) (hy : y.isFinite = true) :
    x.isNaN = false ∧ x.value ≠ .infinite false := by
  obtain ⟨hx, -, hKey⟩ := le_iff.mp h
  refine ⟨hx, fun hInf => ?_⟩
  unfold isFinite at hy
  cases hv : y.value with
  | finite s m e =>
    have hBelow := (key_finite_bounds hv).2
    rw [hInf, hv] at hKey
    exact absurd (lt_of_le_of_lt hKey hBelow) (lt_irrefl _)
  | nan => simp [hv] at hy
  | infinite negative => simp [hv] at hy

/-- A NaN product: any double times NaN. -/
theorem mul_isNaN_right (x : Double) {y : Double} (hy : y.isNaN = true) :
    (x * y).isNaN = true := by
  have hv : y.value = .nan := by
    unfold isNaN at hy
    split at hy <;> simp_all
  have hNaN : nan.isNaN = true := by decide
  show (mul x y).isNaN = true
  unfold mul
  rw [hv]
  cases x.value <;> exact hNaN

/-- **Limiting a NaN leaves it NaN**: both comparisons of `clampTo` fail. -/
theorem clampTo_of_isNaN {x lo hi : Double} (hx : x.isNaN = true) : clampTo x lo hi = x := by
  have hLo : ¬ x < lo := fun h => by simp [(lt_iff.mp h).1] at hx
  have hHi : ¬ hi < x := fun h => by simp [(lt_iff.mp h).2.1] at hx
  simp only [clampTo, if_neg hLo, if_neg hHi]

/-- **Limiting a number lands between the bounds**, when they are in order. -/
theorem clampTo_mem {x lo hi : Double} (hx : x.isNaN = false) (hle : lo ≤ hi) :
    lo ≤ clampTo x lo hi ∧ clampTo x lo hi ≤ hi := by
  obtain ⟨hlo, hhi, -⟩ := le_iff.mp hle
  -- the lower limit first: a number not below `lo`
  have hLower : lo ≤ (if x < lo then lo else x) ∧ (if x < lo then lo else x).isNaN = false := by
    split_ifs with hxlo
    · exact ⟨le_iff.mpr ⟨hlo, hlo, le_rfl⟩, hlo⟩
    · exact ⟨le_iff.mpr ⟨hlo, hx, le_of_not_gt fun hlt => hxlo (lt_iff.mpr ⟨hx, hlo, hlt⟩)⟩,
        hx⟩
  unfold clampTo
  dsimp only
  generalize (if x < lo then lo else x) = y at hLower
  obtain ⟨hy, hyNaN⟩ := hLower
  split_ifs with hhiy
  · exact ⟨hle, le_iff.mpr ⟨hhi, hhi, le_rfl⟩⟩
  · exact ⟨hy, le_iff.mpr ⟨hyNaN, hhi,
      le_of_not_gt fun hlt => hhiy (lt_iff.mpr ⟨hhi, hyNaN, hlt⟩)⟩⟩

end Binary64.Double

/-! ## §2 Runs of a relaxation -/

namespace Integrator

open Binary64 Double

/-- The relaxation `x_dot + x = p` of one state component towards `p`, with `g = x`. -/
def relaxationTowards (p : Double) : Poly Double where
  a := Matrix.ofFn 1 1 fun _ _ => 1
  m := Matrix.ofFn 1 1 fun _ _ => 1
  c2 := #[0]
  c3 := #[0]
  params := #[#[p]]
  b := #[Matrix.ofFn 1 1 fun _ _ => 1]
  responses := #[⟨Matrix.ofFn 1 1 fun _ _ => 1, #[0], #[Matrix.zeros 1 1]⟩]

/-- One forward Euler step at the default settings otherwise. -/
def forwardOneStep : Config Double := { stepper := .forwardEuler, maxSteps := 1 }

/-- Two forward Euler steps, the first of size `1e-12`. -/
def forwardTinySteps : Config Double :=
  { stepper := .forwardEuler, maxSteps := 2, timeStepControl := { initialTimeStep := 1e-12 } }

/-! ## §3 The steady-state test -/

namespace Continuation

/-- **A passed run's rate norm passes the binary64 test, and has not overflowed when the
threshold has not.** The steady-state test compares `|x_dot|` with `abs + rel · |x|` as
computed; a rate norm of `+∞` passes it only against a threshold of `+∞`. -/
theorem Reachable.passed_rate_norm_below_threshold {ε : Type} {ode : ImplicitOde Double ε}
    {c : Continuation Double} (hc : Continuation.Reachable ode c) (hPassed : c.status = .passed) :
    ∃ s, c.history.current = some s ∧
      s.xDot.norm ≤ c.config.steadyState.absTol + c.config.steadyState.relTol * s.x.norm ∧
      ((c.config.steadyState.absTol + c.config.steadyState.relTol * s.x.norm).isFinite = true →
        s.xDot.norm.isNaN = false ∧ s.xDot.norm.value ≠ .infinite false) := by
  have hAgrees := (Reachable.statusAgrees hc).1
  obtain ⟨s, hs, hTest⟩ := hAgrees.steady (hAgrees.passed_iff.mp hPassed)
  exact ⟨s, hs, hTest, fun hFinite => not_overflowed_of_le hTest hFinite⟩

/-- The relaxation at rest passes after one step, at a finite threshold. -/
theorem relaxation_at_rest_passed_rate_norm :
    match Continuation.create forwardOneStep with
    | .ok created =>
      match created.start (ε := ModelError) (1, 1) 0 (Matrix.column #[0]) none none with
      | .ok c =>
        let ode := (Poly.toModel (relaxationTowards 0)).forwardProblem true
        let o := (c.advance ode 1e12 fun _ _ => false).1
        Continuation.Reachable ode o ∧ o.status = .passed ∧ ∃ s, o.history.current = some s ∧
          s.xDot.norm ≤ o.config.steadyState.absTol + o.config.steadyState.relTol * s.x.norm ∧
          ((o.config.steadyState.absTol + o.config.steadyState.relTol * s.x.norm).isFinite =
              true → s.xDot.norm.isNaN = false ∧ s.xDot.norm.value ≠ .infinite false)
      | .error _ => False
    | .error _ => False := by
  have hRun : ((Continuation.create forwardOneStep).toOption.bind fun created =>
      (created.start (ε := ModelError) (1, 1) 0 (Matrix.column #[0]) none none).toOption).map
      (fun c => (c.advanceFor ((Poly.toModel (relaxationTowards 0)).forwardProblem true) 1e12
        (fun _ _ => false) 3).map fun o => decide (o.1.status = .passed)) = some (some true) := by
    decide +kernel
  rcases hCreate : Continuation.create forwardOneStep with e | created
  · simp [hCreate, Except.toOption] at hRun
  rcases hStart : created.start (ε := ModelError) (1, 1) 0 (Matrix.column #[0]) none none with
    e | c
  · simp [hCreate, hStart, Except.toOption] at hRun
  simp only [hCreate, hStart, Except.toOption, Option.bind_some, Option.map_some,
    Option.some.injEq, Option.map_eq_some_iff, decide_eq_true_eq] at hRun
  obtain ⟨o, hO, hPassed⟩ := hRun
  dsimp only
  rw [hStart]
  dsimp only
  have hCreated : Continuation.Reachable
      ((Poly.toModel (relaxationTowards 0)).forwardProblem true) created := .create hCreate
  have hReach : Continuation.Reachable ((Poly.toModel (relaxationTowards 0)).forwardProblem true)
      (c.advance ((Poly.toModel (relaxationTowards 0)).forwardProblem true) 1e12
        fun _ _ => false).1 :=
    .advance (.start hCreated hStart) 1e12 _
  rw [Continuation.advance_eq_of_advanceFor hO] at hReach ⊢
  exact ⟨hReach, hPassed, Reachable.passed_rate_norm_below_threshold hReach hPassed⟩

/-- **A run passes on overflowed norms.** The relaxation towards `1e200` takes one forward
Euler step to `x = 1e198` at the rate `9.9e199`: every entry is finite, but both norms are
`+∞`, and the test `∞ ≤ abs + rel · ∞` passes. -/
theorem passes_with_overflowed_norms :
    match Continuation.create forwardOneStep with
    | .ok created =>
      match created.start (ε := ModelError) (1, 1) 0 (Matrix.column #[0]) none none with
      | .ok c =>
        let o := (c.advance ((Poly.toModel (relaxationTowards 1e200)).forwardProblem true) 1e12
          fun _ _ => false).1
        o.status = .passed ∧ ∃ s, o.history.current = some s ∧ s.x.allFinite = true ∧
          s.xDot.allFinite = true ∧ s.x.norm.value = .infinite false ∧
          s.xDot.norm.value = .infinite false
      | .error _ => False
    | .error _ => False := by
  have hRun : ((Continuation.create forwardOneStep).toOption.bind fun created =>
      (created.start (ε := ModelError) (1, 1) 0 (Matrix.column #[0]) none none).toOption).map
      (fun c => (c.advanceFor ((Poly.toModel (relaxationTowards 1e200)).forwardProblem true) 1e12
        (fun _ _ => false) 3).map fun o => (decide (o.1.status = .passed),
          o.1.history.current.map fun s => [s.x.allFinite, s.xDot.allFinite,
            decide (s.x.norm.value = .infinite false),
            decide (s.xDot.norm.value = .infinite false)])) =
      some (some (true, some [true, true, true, true])) := by
    decide +kernel
  rcases hCreate : Continuation.create forwardOneStep with e | created
  · simp [hCreate, Except.toOption] at hRun
  rcases hStart : created.start (ε := ModelError) (1, 1) 0 (Matrix.column #[0]) none none with
    e | c
  · simp [hCreate, hStart, Except.toOption] at hRun
  simp only [hCreate, hStart, Except.toOption, Option.bind_some, Option.map_some,
    Option.some.injEq, Option.map_eq_some_iff, Prod.mk.injEq, decide_eq_true_eq] at hRun
  obtain ⟨o, hO, hPassed, s, hs, hView⟩ := hRun
  simp only [List.cons.injEq, decide_eq_true_eq, and_true] at hView
  dsimp only
  rw [hStart]
  dsimp only
  rw [Continuation.advance_eq_of_advanceFor hO]
  exact ⟨hPassed, s, hs, hView⟩

end Continuation

/-! ## §4 The step size -/

/-- Validated settings have validated step bounds. -/
theorem Config.stepControl_valid {R : Type} [Scalar R] {config : Config R}
    (h : config.validate = .ok ()) : config.timeStepControl.validate = .ok () := by
  unfold Config.validate at h
  simp only [bind, Except.bind, pure, Except.pure, throw, throwThe, MonadExceptOf.throw] at h
  split at h
  · cases h
  split at h
  · cases h
  split at h
  · cases h
  split at h
  · cases h
  · assumption

/-- Validated binary64 step bounds are in order: `min ≤ initial ≤ max`. -/
theorem StepControl.min_le_max {control : StepControl Double} (h : control.validate = .ok ()) :
    control.minTimeStep ≤ control.maxTimeStep := by
  unfold StepControl.validate at h
  dsimp only at h
  split at h
  · cases h
  rename_i hFinite
  split at h
  · cases h
  rename_i hBounds
  simp only [Bool.not_and, Bool.or_eq_true, Bool.not_eq_eq_eq_not, Bool.not_true, not_or,
    Bool.not_eq_false, decide_eq_true_eq] at hFinite hBounds
  obtain ⟨⟨hMinFinite, hInitialFinite⟩, hMaxFinite⟩ := hFinite
  obtain ⟨⟨-, hInitial⟩, hMax⟩ := hBounds
  have hMin := isNaN_of_isFinite hMinFinite
  have hInit := isNaN_of_isFinite hInitialFinite
  have hMx := isNaN_of_isFinite hMaxFinite
  -- in keys: the minimum is not above the initial step, nor that above the maximum
  have hLower : control.minTimeStep.value.key ≤ control.initialTimeStep.value.key :=
    le_of_not_gt fun hlt => hInitial (lt_iff.mpr ⟨hInit, hMin, hlt⟩)
  have hUpper : control.initialTimeStep.value.key ≤ control.maxTimeStep.value.key :=
    le_of_not_gt fun hlt => hMax (lt_iff.mpr ⟨hMx, hInit, hlt⟩)
  exact le_iff.mpr ⟨hMin, hMx, hLower.trans hUpper⟩

namespace Continuation

/-- **The step size after an accepted step lies between the bounds, unless it is NaN.**
Whatever the rate, the proposed step is limited to `[min, max]`; only a NaN proposal passes
through the limit unchanged. -/
theorem nextTimeStep_dt_within_bounds_or_nan {c : Continuation Double}
    (h : c.config.validate = .ok ()) (rate : Double) :
    (c.config.timeStepControl.minTimeStep ≤ (c.nextTimeStep rate).dt ∧
        (c.nextTimeStep rate).dt ≤ c.config.timeStepControl.maxTimeStep) ∨
      (c.nextTimeStep rate).dt.isNaN = true := by
  obtain ⟨p, hp⟩ : ∃ p, (c.nextTimeStep rate).dt =
      clampTo p c.config.timeStepControl.minTimeStep c.config.timeStepControl.maxTimeStep :=
    ⟨_, rfl⟩
  rw [hp]
  cases hNaN : p.isNaN
  · exact .inl (clampTo_mem hNaN (StepControl.min_le_max (Config.stepControl_valid h)))
  · exact .inr (by rw [clampTo_of_isNaN hNaN]; exact hNaN)

/-- From tiny forward Euler steps, the step size proposed after an accepted step of rate one
lies between the bounds. -/
theorem tiny_steps_next_dt_within_bounds :
    match Continuation.create forwardTinySteps with
    | .ok c => c.config.validate = .ok () ∧
        ((c.config.timeStepControl.minTimeStep ≤ (c.nextTimeStep 1).dt ∧
            (c.nextTimeStep 1).dt ≤ c.config.timeStepControl.maxTimeStep) ∨
          (c.nextTimeStep 1).dt.isNaN = true)
    | .error _ => False := by
  rcases hCreate : Continuation.create forwardTinySteps with e | c
  · have hOk : (Continuation.create forwardTinySteps).isOk = true := by decide +kernel
    simp [hCreate, Except.isOk, Except.toBool] at hOk
  · have hValid : c.config.validate = .ok () := by
      obtain ⟨hValid, rfl⟩ := Continuation.create_eq_ok hCreate
      exact hValid
    exact ⟨hValid, nextTimeStep_dt_within_bounds_or_nan hValid 1⟩

/-- **Two overflowed rates in a row give a NaN step size.** Switched evolution relaxation
scales the step by `∞ / ∞`, which is NaN, and the limits let it through. -/
theorem nextTimeStep_isNaN_of_infinite_rates {c : Continuation Double}
    (hSer : c.config.timeStepControl.strategy = .ser)
    (hPrev : c.prevRate = some (Double.infinity false)) :
    (c.nextTimeStep (Double.infinity false)).dt.isNaN = true := by
  have hRatio : (Double.infinity false / Double.infinity false).isNaN = true := by decide
  have hClamped : (clampTo (Double.infinity false / Double.infinity false)
      (1 / c.config.timeStepControl.maxGrowthFactor)
      c.config.timeStepControl.maxGrowthFactor).isNaN = true := by
    rw [clampTo_of_isNaN hRatio]
    exact hRatio
  have hProposed := mul_isNaN_right c.dt hClamped
  simp only [nextTimeStep, hSer, hPrev, if_pos infinity_pos]
  rw [clampTo_of_isNaN hProposed]
  exact hProposed

/-- **The step size of a run can become NaN.** From a step of `1e-12`, the relaxation towards
`1e155` takes two forward Euler steps whose entries are finite but whose rate norms are `+∞`;
the step size proposed after the second is NaN. -/
theorem time_step_nan_after_overflowed_rates :
    match Continuation.create forwardTinySteps with
    | .ok created =>
      match created.start (ε := ModelError) (1, 1) 0 (Matrix.column #[0]) none none with
      | .ok c =>
        let o := (c.advance ((Poly.toModel (relaxationTowards 1e155)).forwardProblem true) 1e12
          fun _ _ => false).1
        o.termination = some .maxSteps ∧ o.dt.isNaN = true ∧ ∃ s, o.history.current = some s ∧
          s.index = 2 ∧ s.x.allFinite = true ∧ s.xDot.allFinite = true
      | .error _ => False
    | .error _ => False := by
  have hRun : ((Continuation.create forwardTinySteps).toOption.bind fun created =>
      (created.start (ε := ModelError) (1, 1) 0 (Matrix.column #[0]) none none).toOption).map
      (fun c => (c.advanceFor ((Poly.toModel (relaxationTowards 1e155)).forwardProblem true) 1e12
        (fun _ _ => false) 4).map fun o => o.1.history.current.map fun s =>
          [decide (o.1.termination = some .maxSteps), o.1.dt.isNaN, decide (s.index = 2),
            s.x.allFinite, s.xDot.allFinite]) =
      some (some (some [true, true, true, true, true])) := by
    decide +kernel
  rcases hCreate : Continuation.create forwardTinySteps with e | created
  · simp [hCreate, Except.toOption] at hRun
  rcases hStart : created.start (ε := ModelError) (1, 1) 0 (Matrix.column #[0]) none none with
    e | c
  · simp [hCreate, hStart, Except.toOption] at hRun
  simp only [hCreate, hStart, Except.toOption, Option.bind_some, Option.map_some,
    Option.some.injEq, Option.map_eq_some_iff, List.cons.injEq, decide_eq_true_eq,
    and_true] at hRun
  obtain ⟨o, hO, s, hs, hMaxSteps, hNaN, hIndex, hx, hxDot⟩ := hRun
  dsimp only
  rw [hStart]
  dsimp only
  rw [Continuation.advance_eq_of_advanceFor hO]
  exact ⟨hMaxSteps, hNaN, s, hs, hIndex, hx, hxDot⟩

end Continuation

end Integrator

end SteadyAdjoint
