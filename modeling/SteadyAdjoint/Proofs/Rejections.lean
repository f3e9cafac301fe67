import SteadyAdjoint.Proofs.Stages
import SteadyAdjoint.Binary64.Double
import SteadyAdjoint.Model.Logistic

/-!
# Rejected calls change nothing

A change of the settings and a start each run all their checks before they change anything,
so one that is rejected leaves the solver exactly as it was, even a solver whose run is
complete. This module says which calls are rejected:

* new settings are accepted exactly when they validate and the model has the parameter block
  and the response they select; accepted settings reset the solver to a configured one with
  no states and no sensitivity;
* a start is accepted, on a solver observed between calls, exactly when the initial state and
  the initial rates given have one entry per state variable; a rejected start reports the
  shape it expected;
* since every observable solver selects a parameter block and a response that its model has,
  its model has at least one of each, and resetting the settings to the defaults is never
  rejected, provided the defaults validate in the number type.

## Main statements

* `SensitivitySolver.exists_setSettings_iff`: which settings are accepted.
* `SensitivitySolver.start_accepted_iff`: which starts are accepted.
* `rejected_calls_change_nothing`: the three together, for every observable solver.
-/

namespace SteadyAdjoint

namespace Integrator

variable {R : Type} [Scalar R] {ε : Type}

/-! ## §1 The checks of a continuation -/

/-- A continuation is created exactly from settings that validate. -/
theorem Continuation.exists_create_iff (config : Config R) :
    (∃ c, Continuation.create config = .ok c) ↔ config.validate = .ok () := by
  unfold Continuation.create
  cases config.validate <;> simp [bind, Except.bind, pure, Except.pure]

/-- A start is accepted exactly when the initial state and rates have the expected shape; the
rate defaults to zeros of that shape. -/
theorem Continuation.exists_start_iff (c : Continuation R) (dims : Nat × Nat) (t0 : R)
    (x0 : Matrix R) (xDot0 xDotDot0 : Option (Matrix R)) :
    (∃ c', c.start (ε := ε) dims t0 x0 xDot0 xDotDot0 = .ok c') ↔
      x0.shape = dims ∧ (xDot0.getD (Matrix.zeros dims.1 dims.2)).shape = dims ∧
        ∀ m ∈ xDotDot0, m.shape = dims := by
  simp only [Continuation.start, Continuation.checkShape, bind, Except.bind, pure, Except.pure]
  by_cases hx : x0.shape = dims
  · by_cases hd : (xDot0.getD (Matrix.zeros dims.1 dims.2)).shape = dims
    · cases xDotDot0 with
      | none => simp [hx, hd]
      | some m => by_cases hm : m.shape = dims <;> simp [hx, hd, hm]
    · simp [hx, hd]
  · simp [hx]

/-- A rejected start reports the shape it expected and the shape it was given. -/
theorem Continuation.start_eq_error {c : Continuation R} {dims : Nat × Nat} {t0 : R}
    {x0 : Matrix R} {xDot0 xDotDot0 : Option (Matrix R)} {e : SolveError ε}
    (h : c.start dims t0 x0 xDot0 xDotDot0 = .error e) :
    ∃ name actual, e = .dimensionMismatch name dims actual := by
  simp only [Continuation.start, Continuation.checkShape, bind, Except.bind, pure,
    Except.pure] at h
  by_cases hx : x0.shape = dims
  · by_cases hd : (xDot0.getD (Matrix.zeros dims.1 dims.2)).shape = dims
    · cases xDotDot0 with
      | none => simp [hx, hd] at h
      | some m =>
        by_cases hm : m.shape = dims
        · simp [hx, hd, hm] at h
        · simp only [hx, hd, hm, if_true, if_false] at h
          exact ⟨_, _, (Except.error.inj h).symm⟩
    · simp only [hx, hd, if_true, if_false] at h
      exact ⟨_, _, (Except.error.inj h).symm⟩
  · simp only [hx, if_false] at h
    exact ⟨_, _, (Except.error.inj h).symm⟩

end Integrator

namespace Sensitivity

open SteadyAdjoint.Integrator

variable {R : Type} [Scalar R]

/-! ## §2 The checks of the settings and of the adjoint equation -/

/-- Settings validate exactly when the mass matrix is declared constant and both
configurations validate. -/
theorem Settings.validate_eq_ok_iff (settings : Settings R) :
    settings.validate = .ok () ↔ settings.options.massConstant = true ∧
      settings.forward.validate = .ok () ∧ settings.adjoint.validate = .ok () := by
  unfold Settings.validate
  cases hMass : settings.options.massConstant
  · simp [bind, Except.bind, throw, throwThe, MonadExceptOf.throw]
  · cases settings.forward.validate <;> cases settings.adjoint.validate <;>
      simp [bind, Except.bind, Except.mapError]

omit [Scalar R] in
/-- The adjoint equation is created exactly when the mass matrix is declared constant and the
model has the selected parameter block and response. -/
theorem AdjointEquation.exists_create_iff (model : ResidualModel R)
    (adjointModel : Option (AdjointModel R)) (options : Options) :
    (∃ eq, AdjointEquation.create model adjointModel options = .ok eq) ↔
      options.massConstant = true ∧ options.parameterIndex < model.numParameters ∧
        options.responseIndex < model.numResponses := by
  unfold AdjointEquation.create
  simp only [AdjointEquation.checkIndex, bind, Except.bind, pure, Except.pure, throw, throwThe,
    MonadExceptOf.throw]
  by_cases hMass : options.massConstant
  · by_cases hp : options.parameterIndex < model.numParameters
    · by_cases hr : options.responseIndex < model.numResponses <;> simp [hMass, hp, hr]
    · simp [hMass, hp]
  · simp [hMass]

namespace SensitivitySolver

theorem exists_buildForward_iff (settings : Settings R) :
    (∃ forward, buildForward settings = .ok forward) ↔ settings.forward.validate = .ok () := by
  rw [← Continuation.exists_create_iff]
  unfold buildForward
  cases Continuation.create settings.forward <;> simp [Except.mapError]

theorem exists_buildAdjoint_iff (settings : Settings R) (model : ResidualModel R)
    (adjointModel : Option (AdjointModel R)) :
    (∃ p, buildAdjoint settings model adjointModel = .ok p) ↔
      (settings.options.massConstant = true ∧
        settings.options.parameterIndex < model.numParameters ∧
        settings.options.responseIndex < model.numResponses) ∧
      settings.adjoint.validate = .ok () := by
  rw [← AdjointEquation.exists_create_iff model adjointModel, ← Continuation.exists_create_iff]
  unfold buildAdjoint
  cases AdjointEquation.create model adjointModel settings.options <;>
    cases Continuation.create settings.adjoint <;>
    simp [bind, Except.bind, Except.mapError, pure, Except.pure]

/-! ## §3 Which calls are accepted -/

/-- **New settings are accepted exactly when they validate and the model has the parameter
block and the response they select.** -/
theorem exists_setSettings_iff (s : SensitivitySolver R) (settings : Settings R) :
    (∃ s', s.setSettings settings = .ok s') ↔ settings.validate = .ok () ∧
      settings.options.parameterIndex < s.model.numParameters ∧
      settings.options.responseIndex < s.model.numResponses := by
  constructor
  · rintro ⟨s', h⟩
    obtain ⟨hValid, forward, equation, adjoint, -, hAdjoint, -⟩ := setSettings_eq_ok h
    obtain ⟨⟨-, hp, hr⟩, -⟩ := (exists_buildAdjoint_iff settings s.model s.adjointModel).1
      ⟨_, hAdjoint⟩
    exact ⟨hValid, hp, hr⟩
  · rintro ⟨hValid, hp, hr⟩
    -- validated settings build both phases, the adjoint one for the selected indices
    obtain ⟨hMass, hForwardValid, hAdjointValid⟩ := (Settings.validate_eq_ok_iff settings).1 hValid
    obtain ⟨forward, hForward⟩ := (exists_buildForward_iff settings).2 hForwardValid
    obtain ⟨⟨equation, adjoint⟩, hAdjoint⟩ :=
      (exists_buildAdjoint_iff settings s.model s.adjointModel).2 ⟨⟨hMass, hp, hr⟩, hAdjointValid⟩
    refine ⟨{ s with settings, forward, adjoint, equation, stage := .configured,
                     status := .working, dgdp := none }, ?_⟩
    simp only [setSettings, hValid, hForward, hAdjoint, Except.mapError, bind, Except.bind, pure,
      Except.pure]

/-- The initial data has one entry per state variable: the state, and the rate and its
derivative when they are given. -/
def InitialShaped (n : Nat) (x0 : Vec R) (xDot0 xDotDot0 : Option (Vec R)) : Prop :=
  x0.size = n ∧ (∀ v ∈ xDot0, v.size = n) ∧ ∀ v ∈ xDotDot0, v.size = n

/-- **A start of a solver that can rebuild its adjoint phase is accepted exactly when the
initial data has one entry per state variable**; a rejected one reports the expected shape
and changes nothing. -/
theorem start_accepted_iff {s : SensitivitySolver R}
    (hRebuilds : ∃ p, buildAdjoint s.settings s.model s.adjointModel = .ok p) (t0 : R)
    (x0 : Vec R) (xDot0 xDotDot0 : Option (Vec R)) :
    ((s.start t0 x0 xDot0 xDotDot0).2 = .ok () ↔ InitialShaped s.model.stateDim x0 xDot0 xDotDot0) ∧
    ∀ e, (s.start t0 x0 xDot0 xDotDot0).2 = .error e → (s.start t0 x0 xDot0 xDotDot0).1 = s ∧
      ∃ name actual,
        e = .forwardIntegration (.dimensionMismatch name (s.model.stateDim, 1) actual) := by
  obtain ⟨⟨equation, adjoint⟩, hBuild⟩ := hRebuilds
  -- the shapes of the columns of the initial data
  have hShapes : (∃ c', s.forward.start (ε := ModelError) (s.model.stateDim, 1) t0
      (Matrix.column x0) (xDot0.map Matrix.column) (xDotDot0.map Matrix.column) = .ok c') ↔
      InitialShaped s.model.stateDim x0 xDot0 xDotDot0 := by
    rw [Continuation.exists_start_iff]
    cases xDot0 <;> cases xDotDot0 <;> simp [InitialShaped, Matrix.shape_zeros, and_comm]
  unfold SensitivitySolver.start
  dsimp only
  rw [← hShapes]
  rcases hForward : s.forward.start (ε := ModelError) (s.model.stateDim, 1) t0 (Matrix.column x0)
    (xDot0.map Matrix.column) (xDotDot0.map Matrix.column) with e | forward
  · obtain ⟨name, actual, rfl⟩ := Continuation.start_eq_error hForward
    refine ⟨by simp, fun e he => ⟨rfl, name, actual, ?_⟩⟩
    simpa [eq_comm] using he
  · simp [hBuild]

end SensitivitySolver

/-! ## §4 The observable solvers -/

open SensitivitySolver in
/-- **Rejected calls change nothing, and resetting the settings is never rejected.**

Take any solver observable between calls, whatever calls led to it, over a number type in
which the default settings validate.

* It selects a parameter block and a response that its model has, so its model has at least
  one of each.
* New settings are accepted exactly when they validate and the model has the parameter block
  and the response they select. A change that is rejected leaves the solver as it was: its
  settings, stage, status, sensitivity, both continuations with their histories, and the
  adjoint equation with its frozen state. An accepted change leaves the new settings in
  effect, a configured and working solver with no sensitivity, and no states in either phase.
* A start is accepted exactly when the initial state and the initial rates given have one
  entry per state variable. A rejected start reports the shape it expected and leaves the
  solver as it was, even one whose run is complete.
* Resetting the settings to the defaults is accepted, and returns the settings in effect
  before. -/
theorem rejected_calls_change_nothing (hDefault : ({} : Settings R).validate = .ok ())
    {s : SensitivitySolver R} (hs : Reachable s) :
    (s.settings.options.parameterIndex < s.model.numParameters ∧
      s.settings.options.responseIndex < s.model.numResponses ∧
      1 ≤ s.model.numParameters ∧ 1 ≤ s.model.numResponses) ∧
    (∀ settings : Settings R,
      ((∃ s', s.setSettings settings = .ok s') ↔ settings.validate = .ok () ∧
        settings.options.parameterIndex < s.model.numParameters ∧
        settings.options.responseIndex < s.model.numResponses) ∧
      (∀ e, s.setSettings settings = .error e → s.call (.setSettings settings) = (s, [], .error e)) ∧
      ∀ s', s.setSettings settings = .ok s' →
        s'.settings = settings ∧ s'.stage = .configured ∧ s'.status = .working ∧
        s'.dgdp = none ∧ s'.forward.history.toList = [] ∧ s'.adjoint.history.toList = []) ∧
    (∀ t0 x0 xDot0 xDotDot0,
      ((s.start t0 x0 xDot0 xDotDot0).2 = .ok () ↔
        InitialShaped s.model.stateDim x0 xDot0 xDotDot0) ∧
      ∀ e, (s.start t0 x0 xDot0 xDotDot0).2 = .error e → (s.start t0 x0 xDot0 xDotDot0).1 = s ∧
        ∃ name actual,
          e = .forwardIntegration (.dimensionMismatch name (s.model.stateDim, 1) actual)) ∧
    ∃ s', s.unsetSettings = .ok (s', s.settings) := by
  have hRebuilds := hs.invariant.rebuilds
  -- the selected indices are those the adjoint phase was last built for
  obtain ⟨⟨-, hp, hr⟩, -⟩ := (exists_buildAdjoint_iff s.settings s.model s.adjointModel).1 hRebuilds
  have hIndices : s.settings.options.parameterIndex < s.model.numParameters ∧
      s.settings.options.responseIndex < s.model.numResponses ∧
      1 ≤ s.model.numParameters ∧ 1 ≤ s.model.numResponses :=
    ⟨hp, hr, Nat.lt_of_le_of_lt (Nat.zero_le _) hp, Nat.lt_of_le_of_lt (Nat.zero_le _) hr⟩
  refine ⟨hIndices, fun settings => ⟨exists_setSettings_iff s settings, fun e he => ?_,
    fun s' h => ?_⟩, start_accepted_iff hRebuilds, ?_⟩
  · simp [SensitivitySolver.call, he]
  · obtain ⟨-, forward, equation, adjoint, hForward, hAdjoint, rfl⟩ := setSettings_eq_ok h
    exact ⟨rfl, rfl, rfl, rfl, buildForward_history hForward, (buildAdjoint_fresh hAdjoint).2.2.2⟩
  · -- the defaults select index zero, which the model has
    obtain ⟨reset, hReset⟩ := (exists_setSettings_iff s {}).2 ⟨hDefault, hIndices.2.2.1,
      hIndices.2.2.2⟩
    exact ⟨reset, by simp [unsetSettings, hReset, bind, Except.bind, pure, Except.pure]⟩

open SteadyAdjoint.Binary64 in
/-- In binary64 the default settings validate. A logistic solver that has completed a run
from `x = 2` refuses settings with no step budget and a start from two entries, and both leave
it as it was; resetting its settings returns the ones in effect. -/
theorem logistic_rejected_calls_change_nothing :
    ({} : Settings Double).validate = .ok () ∧
    ∃ s, SensitivitySolver.create longAdjointSteps (Logistic.toModel ⟨1, 2, 0⟩) none = .ok s ∧
      let ran := ((s.start 0 #[2] none none).1.advance 100 fun _ _ _ => false).1
      let noSteps : Settings Double := { forward := { maxSteps := 0 } }
      Reachable ran ∧ ran.stage = .complete ∧
      (∃ e, ran.setSettings noSteps = .error e ∧
        ran.call (.setSettings noSteps) = (ran, [], .error e)) ∧
      (∃ e, (ran.start 0 #[1, 2] none none).2 = .error e ∧
        (ran.start 0 #[1, 2] none none).1 = ran) ∧
      ∃ s', ran.unsetSettings = .ok (s', ran.settings) := by
  have hDefault : ({} : Settings Double).validate = .ok () := by decide +kernel
  have hNoSteps : ({ forward := { maxSteps := 0 } } : Settings Double).validate ≠ .ok () := by
    decide +kernel
  obtain ⟨s, hCreate, hReach, hComplete, -, hDim, -⟩ := logistic_run_completes
  refine ⟨hDefault, s, hCreate, ?_⟩
  dsimp only
  generalize ((s.start 0 #[2] none none).1.advance 100 fun _ _ _ => false).1 = ran
    at hReach hComplete hDim ⊢
  obtain ⟨-, hSettings, hStart, hUnset⟩ := rejected_calls_change_nothing hDefault hReach
  -- settings with no step budget fail validation, so no solver comes of them
  obtain ⟨hAccepted, hRejected, -⟩ := hSettings { forward := { maxSteps := 0 } }
  obtain ⟨e, hErr⟩ : ∃ e, ran.setSettings { forward := { maxSteps := 0 } } = .error e := by
    rcases hSet : ran.setSettings { forward := { maxSteps := 0 } } with e | s'
    · exact ⟨e, rfl⟩
    · exact absurd (hAccepted.1 ⟨s', hSet⟩).1 hNoSteps
  -- two entries do not fit the one state variable
  have hNotShaped :
      ¬ SensitivitySolver.InitialShaped ran.model.stateDim #[(1 : Double), 2] none none := by
    simp [SensitivitySolver.InitialShaped, hDim]
  obtain ⟨e', hErr'⟩ : ∃ e', (ran.start 0 #[1, 2] none none).2 = .error e' := by
    rcases hS : (ran.start 0 #[1, 2] none none).2 with e' | ⟨⟩
    · exact ⟨e', rfl⟩
    · exact absurd ((hStart 0 #[1, 2] none none).1.1 hS) hNotShaped
  exact ⟨hReach, hComplete, ⟨e, hErr, hRejected e hErr⟩,
    ⟨e', hErr', ((hStart 0 #[1, 2] none none).2 e' hErr').1⟩, hUnset⟩

end Sensitivity

end SteadyAdjoint
