import SteadyAdjoint.Proofs.DoubleLaws
import SteadyAdjoint.Sensitivity.Settings

/-!
# Which settings are valid, in binary64

`Config.validate` and `Settings.validate` make their checks one after the other and report the
first one that fails. Several of them are written as the condition under which a setting is
rejected: the step bounds when `min ≤ 0 || initial < min || max < initial`, the growth factor
when `g < 1`. In binary64 a NaN makes every comparison false, so a rejection written as a
comparison lets a NaN through, where a requirement written as one keeps it out.

This module states each requirement positively, in the order it is checked and with the error
that reports it (`Config.checks`, `Settings.checks`), and shows that over every double, NaN
and both infinities included, validation accepts exactly the settings that meet them all and
otherwise reports the first one that fails. The rejections written negatively are sound
because the step bounds are checked to be finite first and the growth factor in the same
test, and two doubles that are not NaN always compare one way or the other
(`Double.not_le_iff_lt`); the reduction factor is required positively by the code itself.

## Main statements

* `firstFailure_eq_ok_iff`, `firstFailure_eq_error_iff`: the first failed check of a list.
* `Double.not_le_iff_lt`, `Double.not_lt_iff_le`: doubles that are not NaN are totally ordered.
* `Config.validate_eq_firstFailure`: integrator settings fail at their first failed check.
* `Settings.validate_reports_first_failed_check`: sensitivity settings are accepted exactly
  when every check holds, and otherwise rejected with the error of the first that fails.
-/

namespace SteadyAdjoint

/-! ## §1 The first failed check -/

section FirstFailure

variable {ε ε' : Type}

/-- The outcome of a list of checks, each given as whether it holds and the error that
reports it: the error of the first that fails, if any does. -/
def firstFailure : List (Bool × ε) → Except ε Unit
  | [] => .ok ()
  | (holds, e) :: rest => if holds then firstFailure rest else .error e

/-- Checks made one list after another fail at the first failed check of both. -/
theorem firstFailure_append (l₁ l₂ : List (Bool × ε)) :
    firstFailure (l₁ ++ l₂) = (firstFailure l₁).bind fun _ => firstFailure l₂ := by
  induction l₁ with
  | nil => rfl
  | cons c rest ih =>
    obtain ⟨holds, e⟩ := c
    cases holds <;> simp [firstFailure, ih, Except.bind]

/-- Checks whose errors are relabelled fail with the relabelled error. -/
theorem firstFailure_map (f : ε → ε') (l : List (Bool × ε)) :
    firstFailure (l.map (Prod.map id f)) = (firstFailure l).mapError f := by
  induction l with
  | nil => rfl
  | cons c rest ih =>
    obtain ⟨holds, e⟩ := c
    cases holds <;> simp [firstFailure, ih, Except.mapError]

/-- **A list of checks passes exactly when every check holds.** -/
theorem firstFailure_eq_ok_iff (l : List (Bool × ε)) :
    firstFailure l = .ok () ↔ ∀ c ∈ l, c.1 = true := by
  induction l with
  | nil => simp [firstFailure]
  | cons c rest ih =>
    obtain ⟨holds, e⟩ := c
    cases holds <;> simp [firstFailure, ih]

/-- **A list of checks fails with the error of its first failed check**: a check that fails
with that error, after checks that all hold. -/
theorem firstFailure_eq_error_iff (l : List (Bool × ε)) (e : ε) :
    firstFailure l = .error e ↔
      ∃ pre rest, l = pre ++ (false, e) :: rest ∧ ∀ c ∈ pre, c.1 = true := by
  induction l with
  | nil => simp [firstFailure]
  | cons c l ih =>
    obtain ⟨holds, e'⟩ := c
    cases holds with
    | false =>
      -- the first check fails, so it is the one reported, with nothing before it
      simp only [firstFailure, Bool.false_eq_true, if_false, Except.error.injEq]
      constructor
      · rintro rfl
        exact ⟨[], l, rfl, by simp⟩
      · rintro ⟨pre, rest, hl, hPre⟩
        cases pre with
        | nil => exact (Prod.mk.inj (List.cons.inj hl).1).2
        | cons p pre =>
          obtain ⟨rfl, -⟩ := List.cons.inj hl
          simp at hPre
    | true =>
      -- the first check holds, so the failure lies further on
      simp only [firstFailure, if_true, ih]
      constructor
      · rintro ⟨pre, rest, rfl, hPre⟩
        exact ⟨(true, e') :: pre, rest, rfl, by simpa using hPre⟩
      · rintro ⟨pre, rest, hl, hPre⟩
        cases pre with
        | nil => simp at hl
        | cons p pre =>
          obtain ⟨-, rfl⟩ := List.cons.inj hl
          exact ⟨pre, rest, rfl, fun c hc => hPre c (List.mem_cons_of_mem p hc)⟩

end FirstFailure

/-! ## §2 Comparisons of doubles that are not NaN -/

namespace Binary64.Double

/-- Of two doubles that are not NaN, the first is not at most the second exactly when it lies
above it. -/
theorem not_le_iff_lt {x y : Double} (hx : x.isNaN = false) (hy : y.isNaN = false) :
    ¬ x ≤ y ↔ y < x := by
  rw [le_iff, lt_iff]
  simp [hx, hy]

/-- Of two doubles that are not NaN, the first is not below the second exactly when it lies
at or above it. -/
theorem not_lt_iff_le {x y : Double} (hx : x.isNaN = false) (hy : y.isNaN = false) :
    ¬ x < y ↔ y ≤ x := by
  rw [lt_iff, le_iff]
  simp [hx, hy]

theorem one_isNaN : (1 : Double).isNaN = false := by decide

end Binary64.Double

/-! ## §3 The requirements on integrator settings -/

namespace Integrator

open Binary64 Double

/-- A tolerance that is finite and not below zero. -/
def toleranceHolds (t : Double) : Bool := t.isFinite && decide (0 ≤ t)

/-- The requirements on the step bounds and factors, in the order they are checked: finite
bounds with `0 < min ≤ initial ≤ max`, a finite growth factor of at least one, and a
reduction factor strictly between zero and one. -/
def StepControl.checks (c : StepControl Double) : List (Bool × ConfigError) :=
  [(c.minTimeStep.isFinite && c.initialTimeStep.isFinite && c.maxTimeStep.isFinite &&
      decide (0 < c.minTimeStep ∧ c.minTimeStep ≤ c.initialTimeStep ∧
        c.initialTimeStep ≤ c.maxTimeStep), .timeStepBounds),
    (c.maxGrowthFactor.isFinite && decide (1 ≤ c.maxGrowthFactor), .growthFactor),
    (decide (0 < c.failureReductionFactor ∧ c.failureReductionFactor < 1), .reductionFactor)]

/-- The requirements on integrator settings, in the order they are checked: a final time that
is not NaN, a step budget of at least one, a storage limit of at least two if any, the step
control's requirements, at least one Newton iteration, and finite, non-negative Newton and
steady-state tolerances. -/
def Config.checks (c : Config Double) : List (Bool × ConfigError) :=
  [(!c.finalTime.isNaN, .finalTime),
    (decide (1 ≤ c.maxSteps), .maxSteps),
    (c.storageLimit.all fun l => decide (2 ≤ l), .storageLimit)] ++
  c.timeStepControl.checks ++
  [(decide (1 ≤ c.newton.maxIters), .newtonIters),
    (toleranceHolds c.newton.absTol && toleranceHolds c.newton.relTol, .newtonTolerance),
    (toleranceHolds c.steadyState.absTol && toleranceHolds c.steadyState.relTol,
      .steadyStateTolerance)]

/-- Finite bounds in order, as the step control rejects them: none at most zero and none below
the one before. -/
theorem StepControl.bounds_rejected_iff {min initial max : Double}
    (hMin : min.isFinite = true) (hInitial : initial.isFinite = true)
    (hMax : max.isFinite = true) :
    (decide (min ≤ 0) || decide (initial < min) || decide (max < initial)) =
      !decide (0 < min ∧ min ≤ initial ∧ initial ≤ max) := by
  have hMin' := isNaN_of_isFinite hMin
  have hInitial' := isNaN_of_isFinite hInitial
  have hMax' := isNaN_of_isFinite hMax
  have h0 : ¬ min ≤ 0 ↔ 0 < min := not_le_iff_lt hMin' zero_isNaN
  have h1 : ¬ initial < min ↔ min ≤ initial := not_lt_iff_le hInitial' hMin'
  have h2 : ¬ max < initial ↔ initial ≤ max := not_lt_iff_le hMax' hInitial'
  simp only [← h0, ← h1, ← h2]
  by_cases a : min ≤ 0 <;> by_cases b : initial < min <;> by_cases c : max < initial <;>
    simp [a, b, c]

/-- A growth factor is rejected when it is not finite or below one: exactly when it is not a
finite number of at least one. -/
theorem StepControl.growth_rejected_iff (g : Double) :
    (!Scalar.isFinite g || decide (g < 1)) = !(g.isFinite && decide (1 ≤ g)) := by
  cases hg : g.isFinite
  · simp [show Scalar.isFinite g = g.isFinite from rfl, hg]
  · have h : ¬ g < 1 ↔ 1 ≤ g := not_lt_iff_le (isNaN_of_isFinite hg) one_isNaN
    have hFinite : Scalar.isFinite g = true := hg
    by_cases hlt : g < 1
    · have hNotLe : ¬ 1 ≤ g := fun hle => h.mpr hle hlt
      simp [hFinite, hlt, hNotLe]
    · simp [hFinite, hlt, h.mp hlt]

/-- **The step control fails at its first failed requirement.** -/
theorem StepControl.validate_eq_firstFailure (c : StepControl Double) :
    c.validate = firstFailure c.checks := by
  unfold StepControl.validate checks
  dsimp only
  simp only [firstFailure]
  cases hFinite : (c.minTimeStep.isFinite && c.initialTimeStep.isFinite && c.maxTimeStep.isFinite)
  · simp
  · simp only [Bool.and_eq_true] at hFinite
    obtain ⟨⟨hMin, hInitial⟩, hMax⟩ := hFinite
    rw [bounds_rejected_iff hMin hInitial hMax, growth_rejected_iff, ← Bool.decide_and]
    -- both sides now test the same three requirements, in the same order
    simp only [Bool.not_true, Bool.true_and, Bool.not_eq_true', Bool.false_eq_true, if_false]
    split_ifs <;> simp_all

/-- The code's tolerance test is the requirement on a tolerance. -/
theorem isTolerance_eq_toleranceHolds (t : Double) : isTolerance t = toleranceHolds t := rfl

/-- **Integrator settings fail at their first failed requirement.** -/
theorem Config.validate_eq_firstFailure (c : Config Double) :
    c.validate = firstFailure c.checks := by
  rw [checks, firstFailure_append, firstFailure_append, ← StepControl.validate_eq_firstFailure]
  simp only [Config.validate, firstFailure, isTolerance_eq_toleranceHolds, bind, Except.bind,
    pure, Except.pure, throw, throwThe, MonadExceptOf.throw]
  -- the tests of the code are the negations of the requirements
  have hNaN : Scalar.isNaN c.finalTime = c.finalTime.isNaN := rfl
  have hLimit : (c.storageLimit.map fun l => decide (l < 2)).getD false =
      !(c.storageLimit.all fun l => decide (2 ≤ l)) := by
    cases c.storageLimit with
    | none => rfl
    | some l => by_cases h : 2 ≤ l <;> simp [h] <;> omega
  simp only [hNaN, hLimit, ← Bool.not_and]
  -- check by check, in the order of the code: the first that fails ends both sides
  by_cases hTime : c.finalTime.isNaN = true
  · simp [hTime]
  by_cases hSteps : c.maxSteps = 0
  · simp [hTime, hSteps]
  have hSteps' : 1 ≤ c.maxSteps := Nat.one_le_iff_ne_zero.mpr hSteps
  by_cases hStorage : c.storageLimit.all (fun l => decide (2 ≤ l)) = true
  swap
  · simp [hTime, hSteps, hSteps', hStorage]
  rcases c.timeStepControl.validate with e | ⟨⟩
  · simp [hTime, hSteps, hSteps', hStorage]
  by_cases hIters : c.newton.maxIters = 0
  · simp [hTime, hSteps, hSteps', hStorage, hIters]
  have hIters' : 1 ≤ c.newton.maxIters := Nat.one_le_iff_ne_zero.mpr hIters
  simp only [hTime, hSteps, hSteps', hStorage, hIters, hIters', Bool.not_false, Bool.not_true,
    decide_true, if_true, if_false, Bool.false_eq_true]
  -- the two tolerance checks, the last ones
  cases toleranceHolds c.newton.absTol && toleranceHolds c.newton.relTol <;>
    cases toleranceHolds c.steadyState.absTol && toleranceHolds c.steadyState.relTol <;> rfl

/-- A reduction factor of NaN is rejected, where a test written as `f ≤ 0 || 1 ≤ f` would let
it through. -/
example :
    ({ timeStepControl := { failureReductionFactor := Double.nan } } : Config Double).validate =
      .error .reductionFactor := by
  decide +kernel

end Integrator

/-! ## §4 The requirements on sensitivity settings -/

namespace Sensitivity

open Integrator Binary64

/-- The requirements on sensitivity settings, in the order they are checked: a mass matrix
declared constant, then the requirements of the forward phase's settings, then those of the
adjoint phase's. -/
def Settings.checks (s : Settings Double) : List (Bool × SettingsError) :=
  (s.options.massConstant, .massNotConstant) ::
    (s.forward.checks.map (Prod.map id .forward) ++ s.adjoint.checks.map (Prod.map id .adjoint))

/-- Sensitivity settings fail at their first failed requirement. -/
theorem Settings.validate_eq_firstFailure (s : Settings Double) :
    s.validate = firstFailure s.checks := by
  rw [checks, firstFailure, firstFailure_append, firstFailure_map, firstFailure_map,
    ← Config.validate_eq_firstFailure, ← Config.validate_eq_firstFailure]
  simp only [Settings.validate, bind, Except.bind, throw, throwThe, MonadExceptOf.throw]
  cases s.options.massConstant <;> simp

/-- **Validation reports the first failed requirement.** Over every double, NaN and both
infinities included, and every count, sensitivity settings are accepted exactly when every
requirement of `Settings.checks` holds; otherwise they are rejected with the error of a
requirement that fails after all those before it hold. -/
theorem Settings.validate_reports_first_failed_check (s : Settings Double) :
    (s.validate = .ok () ↔ ∀ c ∈ s.checks, c.1 = true) ∧
      ∀ e, s.validate = .error e ↔
        ∃ pre rest, s.checks = pre ++ (false, e) :: rest ∧ ∀ c ∈ pre, c.1 = true := by
  rw [validate_eq_firstFailure]
  exact ⟨firstFailure_eq_ok_iff _, firstFailure_eq_error_iff _⟩

/-- Of a forward phase without a step budget and an adjoint phase with a NaN final time, the
forward phase's failure is the one reported. -/
example : ({ forward := { maxSteps := 0 }, adjoint := { finalTime := Double.nan } } :
    Settings Double).validate = .error (.forward .maxSteps) := by
  decide +kernel

end Sensitivity

end SteadyAdjoint
