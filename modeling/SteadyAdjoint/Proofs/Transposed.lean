import SteadyAdjoint.Proofs.Calls
import SteadyAdjoint.Model.Reactor
import SteadyAdjoint.Binary64.Double

/-!
# The adjoint model against the transposed Jacobian

The adjoint equation needs the transposed operators `α · (∂f/∂x_dot)ᵀ + β · (∂f/∂x)ᵀ` at the
forward steady state. A solver built with an adjoint model evaluates them with it; a solver
built without one transposes the model's Jacobian. When the adjoint model gives exactly the
transposed Jacobian, and fails exactly where the Jacobian fails, the two solvers cannot be
told apart: through any sequence of calls they hold the same phases, frozen operators and
sensitivity, report the same accepted steps and return the same results. The only
difference is in an error of a freeze: a failed evaluation of the adjoint model on one path
is a failed evaluation of the model on the other.

The adjoint model enters a run only at the freeze, so the proof is a simulation: each call
on a solver and on its twin without the adjoint model ends in twins again.

## Main statements

* `freezeAt_transposed`: the freeze on both paths, up to the error of an evaluation.
* `call_transposed`: one call on twins.
* `runCalls_transposed`: any sequence of calls on twins.
* `Reactor.adjointJacobian_eq`: the reactor's adjoint model is its Jacobian transposed.
* `adjointModel_indistinguishable`: the two paths, from the build through any calls.
-/

namespace SteadyAdjoint

variable {R : Type} [Scalar R]

/-- An adjoint model whose operator is the model's Jacobian transposed, that fails exactly
where the Jacobian fails. -/
def AdjointModel.Transposes (A : AdjointModel R) (model : ResidualModel R) : Prop :=
  ∀ p α β, (A.adjointJacobian p α β).toOption =
    ((model.jacobian p α β).map Matrix.transpose).toOption

namespace Sensitivity

open SteadyAdjoint.Integrator

/-! ## §1 Results that agree up to their errors -/

/-- Two results that agree up to a relation between their errors. -/
inductive ResultsAgree {ε α : Type} (rel : ε → ε → Prop) : Except ε α → Except ε α → Prop
  | ok (a : α) : ResultsAgree rel (.ok a) (.ok a)
  | error {e e' : ε} (h : rel e e') : ResultsAgree rel (.error e) (.error e')

namespace ResultsAgree

variable {ε ε' α β : Type} {rel : ε → ε → Prop}

theorem refl (hrel : ∀ e, rel e e) (r : Except ε α) : ResultsAgree rel r r := by
  cases r with
  | error e => exact .error (hrel e)
  | ok a => exact .ok a

theorem bind {x x' : Except ε α} {f g : α → Except ε β} (h : ResultsAgree rel x x')
    (hf : ∀ a, ResultsAgree rel (f a) (g a)) : ResultsAgree rel (x >>= f) (x' >>= g) := by
  cases h with
  | ok a => exact hf a
  | error h => exact .error h

theorem mapError {rel' : ε' → ε' → Prop} {x x' : Except ε α} {f : ε → ε'}
    (h : ResultsAgree rel x x') (hf : ∀ e e', rel e e' → rel' (f e) (f e')) :
    ResultsAgree rel' (x.mapError f) (x'.mapError f) := by
  cases h with
  | ok a => exact .ok a
  | error h => exact .error (hf _ _ h)

theorem map {x x' : Except ε α} {f : α → β} (h : ResultsAgree rel x x') :
    ResultsAgree rel (x.map f) (x'.map f) := by
  cases h with
  | ok a => exact .ok (f a)
  | error h => exact .error h

/-- Results that agree are the same success, or two failures with related errors. -/
theorem cases_eq {x x' : Except ε α} (h : ResultsAgree rel x x') :
    (∃ a, x = .ok a ∧ x' = .ok a) ∨ ∃ e e', x = .error e ∧ x' = .error e' ∧ rel e e' := by
  cases h with
  | ok a => exact .inl ⟨a, rfl, rfl⟩
  | error h => exact .inr ⟨_, _, rfl, rfl, h⟩

end ResultsAgree

/-! ## §2 The two paths -/

/-- An error of the equation on the adjoint model's path, against the error on the transposed
path: the same error, or a failed evaluation of the adjoint model where the model's
evaluation failed. -/
inductive AdjointError.Twin : AdjointError → AdjointError → Prop
  | same (e : AdjointError) : Twin e e
  | evaluation (a b : ModelError) : Twin (.adjointModel a) (.model b)

/-- An error of the solver on the adjoint model's path, against the error on the transposed
path. -/
inductive SolverError.Twin : SolverError → SolverError → Prop
  | same (e : SolverError) : Twin e e
  | adjoint {a b : AdjointError} (h : a.Twin b) : Twin (.adjoint a) (.adjoint b)

/-- The equation on the transposed path. -/
def AdjointEquation.transposed (eq : AdjointEquation R) : AdjointEquation R :=
  { eq with adjointModel := none }

/-- The solver on the transposed path: the same solver without its adjoint model. -/
def SensitivitySolver.transposed (s : SensitivitySolver R) : SensitivitySolver R :=
  { s with adjointModel := none, equation := s.equation.transposed }

/-! ## §3 The freeze -/

namespace AdjointEquation

variable {eq : AdjointEquation R} {A : AdjointModel R}

/-- The frozen equation as a problem does not depend on the adjoint model. -/
@[simp] theorem toOde_transposed (eq : AdjointEquation R) : eq.transposed.toOde = eq.toOde :=
  rfl

/-- Nor does the sensitivity assembled from it. -/
@[simp] theorem sensitivity_transposed (eq : AdjointEquation R) (y : Matrix R) :
    eq.transposed.sensitivity y = eq.sensitivity y :=
  rfl

/-- The transposed operators from the adjoint model and from the model's Jacobian. -/
theorem adjointOperator_transposed (hA : eq.adjointModel = some A)
    (hT : A.Transposes eq.model) (p : Point R) (α β : R) :
    ResultsAgree AdjointError.Twin (eq.adjointOperator p α β)
      (eq.transposed.adjointOperator p α β) := by
  have hSame := hT p α β
  simp only [adjointOperator, hA, transposed]
  cases hAdj : A.adjointJacobian p α β with
  | error a =>
    cases hJac : eq.model.jacobian p α β with
    | error b => exact .error (.evaluation a b)
    | ok W => simp [hAdj, hJac, Except.toOption, Except.map] at hSame
  | ok W =>
    cases hJac : eq.model.jacobian p α β with
    | error b => simp [hAdj, hJac, Except.toOption, Except.map] at hSame
    | ok W' =>
      simp only [hAdj, hJac, Except.toOption, Except.map, Option.some.injEq] at hSame
      subst hSame
      exact .ok _

/-- **The freeze on both paths agrees**, but for the error of an evaluation. -/
theorem freezeAt_transposed (hA : eq.adjointModel = some A) (hT : A.Transposes eq.model)
    (state : SolutionState R) (params : Array (Vec R)) :
    ResultsAgree AdjointError.Twin (eq.freezeAt state params)
      (eq.transposed.freezeAt state params) := by
  have hOp := adjointOperator_transposed hA hT (pointAt state params)
  have hSame {α : Type} (r : Except AdjointError α) := ResultsAgree.refl AdjointError.Twin.same r
  -- the steps before and after the two evaluations of the operator are the same on both paths
  unfold freezeAt
  dsimp only [transposed]
  refine (hSame _).bind fun _ => ?_
  split
  · exact .error (.same _)
  refine (hOp 0 1).bind fun jacobian => (hSame _).bind fun _ => ?_
  by_cases hMass : eq.massIdentity = true
  · simp only [hMass, ↓reduceIte]
    exact hSame _
  · simp only [hMass, Bool.false_eq_true, ↓reduceIte]
    exact (hOp 1 0).bind fun _ => hSame _

omit [Scalar R] in
/-- The equation on the transposed path is created by the same checks. -/
theorem create_transposed (model : ResidualModel R) (adjointModel : Option (AdjointModel R))
    (options : Options) :
    create model none options = (create model adjointModel options).map transposed := by
  unfold create
  simp only [checkIndex, bind, Except.bind, pure, Except.pure, throw, throwThe,
    MonadExceptOf.throw]
  by_cases hMass : options.massConstant
  · by_cases hp : options.parameterIndex < model.numParameters
    · by_cases hr : options.responseIndex < model.numResponses
      · simp [hMass, hp, hr, Except.map, transposed]
      · simp [hMass, hp, hr, Except.map]
    · simp [hMass, hp, Except.map]
  · simp [hMass, Except.map]

/-- The freeze on both paths leaves twin equations. -/
theorem freeze_transposed (hA : eq.adjointModel = some A) (hT : A.Transposes eq.model)
    (state : SolutionState R) (params : Array (Vec R)) :
    (eq.transposed.freeze state params).1 = (eq.freeze state params).1.transposed ∧
      ResultsAgree AdjointError.Twin (eq.freeze state params).2
        (eq.transposed.freeze state params).2 := by
  have h := freezeAt_transposed hA hT state params
  unfold freeze
  generalize eq.freezeAt state params = r, eq.transposed.freezeAt state params = r' at h
  cases h with
  | ok f => exact ⟨rfl, .ok ()⟩
  | error h => exact ⟨rfl, .error h⟩

end AdjointEquation

/-! ## §4 The calls -/

namespace SensitivitySolver

variable {A : AdjointModel R}

/-- What twins return: the solver on the transposed path is the twin of the other, with the
same accepted steps and results that agree up to the error of an evaluation. -/
def Twins {ε α : Type} (o o' : SensitivitySolver R × List ε × Except SolverError α) : Prop :=
  o'.1 = o.1.transposed ∧ o'.2.1 = o.2.1 ∧ ResultsAgree SolverError.Twin o.2.2 o'.2.2

section Fields

variable (s : SensitivitySolver R)

@[simp] theorem transposed_model : s.transposed.model = s.model := rfl
@[simp] theorem transposed_adjointModel : s.transposed.adjointModel = none := rfl
@[simp] theorem transposed_settings : s.transposed.settings = s.settings := rfl
@[simp] theorem transposed_forward : s.transposed.forward = s.forward := rfl
@[simp] theorem transposed_adjoint : s.transposed.adjoint = s.adjoint := rfl
@[simp] theorem transposed_equation : s.transposed.equation = s.equation.transposed := rfl
@[simp] theorem transposed_stage : s.transposed.stage = s.stage := rfl
@[simp] theorem transposed_forwardOde : s.transposed.forwardOde = s.forwardOde := rfl

end Fields

/-- The forward phase does not read the adjoint model. -/
theorem runForward_transposed (s : SensitivitySolver R) (tFinal : R)
    (stop : Phase → SolutionState R → R → Bool) :
    s.transposed.runForward tFinal stop =
      ((s.runForward tFinal stop).1.transposed, (s.runForward tFinal stop).2) := by
  unfold runForward
  by_cases hReady : s.stage = .forwardReady
  · simp only [transposed_stage, hReady, if_true, transposed_forward, transposed_forwardOde]
    rcases s.forward.advance s.forwardOde tFinal (stop .forward) with ⟨forward, events, e | _ | _⟩
    all_goals rfl
  · simp only [transposed_stage, hReady, if_false]

/-- The freeze of twins leaves twins. -/
theorem freezeAdjoint_transposed {s : SensitivitySolver R}
    (hA : s.equation.adjointModel = some A) (hT : A.Transposes s.equation.model) :
    s.transposed.freezeAdjoint.1 = s.freezeAdjoint.1.transposed ∧
      ResultsAgree SolverError.Twin s.freezeAdjoint.2 s.transposed.freezeAdjoint.2 := by
  unfold freezeAdjoint
  simp only [transposed_forward, transposed_equation, transposed_model]
  cases hCurrent : s.forward.history.current with
  | none => exact ⟨rfl, .refl SolverError.Twin.same _⟩
  | some steady =>
    obtain ⟨hEq, hFrozen⟩ :=
      AdjointEquation.freeze_transposed hA hT steady s.model.nominalParameters
    dsimp only
    rw [hEq]
    -- both freezes succeed, or both fail with twin errors
    rcases hFrozen.cases_eq with ⟨u, hr, hr'⟩ | ⟨e, e', hr, hr', h⟩
    · rw [hr, hr']
      simp only [AdjointEquation.toOde_transposed, transposed_adjoint]
      split
      · exact ⟨rfl, .refl SolverError.Twin.same _⟩
      · exact ⟨rfl, .refl SolverError.Twin.same _⟩
    · rw [hr, hr']
      exact ⟨rfl, .error (.adjoint h)⟩

/-- The adjoint phase of twins ends in twins. -/
theorem runAdjoint_transposed {s : SensitivitySolver R}
    (hA : s.equation.adjointModel = some A) (hT : A.Transposes s.equation.model)
    (stop : Phase → SolutionState R → R → Bool) :
    Twins (s.runAdjoint stop) (s.transposed.runAdjoint stop) := by
  unfold runAdjoint
  by_cases hDone : s.stage = .forwardDone
  · simp only [transposed_stage, hDone, if_true]
    obtain ⟨hState, hResult⟩ := freezeAdjoint_transposed hA hT
    rcases hFreeze : s.freezeAdjoint with ⟨frozen, r⟩
    rcases hFreeze' : s.transposed.freezeAdjoint with ⟨frozen', r'⟩
    rw [hFreeze, hFreeze'] at hState
    rw [hFreeze, hFreeze'] at hResult
    dsimp only at hState hResult
    subst hState
    -- the freezes both fail, with twin errors, or both succeed and the runs are the same
    rcases hResult.cases_eq with ⟨u, rfl, rfl⟩ | ⟨e, e', rfl, rfl, h⟩
    · simp only [transposed_adjoint, transposed_equation, AdjointEquation.toOde_transposed,
        transposed_settings]
      rcases frozen.adjoint.advance frozen.equation.toOde frozen.settings.adjoint.finalTime
        (stop .adjoint) with ⟨adjoint, events, e | _ | _⟩
      all_goals exact ⟨rfl, rfl, .refl SolverError.Twin.same _⟩
    · exact ⟨rfl, rfl, .error h⟩
  · simp only [transposed_stage, hDone, if_false]
    exact ⟨rfl, rfl, .ok true⟩

/-- The assembly does not read the adjoint model. -/
theorem runAssembly_transposed (s : SensitivitySolver R) :
    s.transposed.runAssembly = (s.runAssembly.1.transposed, s.runAssembly.2) := by
  unfold runAssembly assemble
  by_cases hDone : s.stage = .adjointDone
  · simp only [transposed_stage, hDone, if_true, transposed_adjoint, transposed_equation,
      AdjointEquation.sensitivity_transposed]
    rcases s.adjoint.history.current with _ | y
    · rfl
    · dsimp only
      rcases s.equation.sensitivity y.x with e | dgdp <;> rfl
  · simp only [transposed_stage, hDone, if_false]

@[simp] theorem fail_transposed (s : SensitivitySolver R) : s.transposed.fail = s.fail.transposed :=
  rfl

/-- The phases of twins end in twins. -/
theorem runPhases_transposed {s : SensitivitySolver R}
    (hA : s.equation.adjointModel = some A) (hT : A.Transposes s.equation.model) (tFinal : R)
    (stop : Phase → SolutionState R → R → Bool) :
    Twins (s.runPhases tFinal stop) (s.transposed.runPhases tFinal stop) := by
  have hSetup := runForward_setup s tFinal stop
  unfold runPhases
  rw [runForward_transposed]
  rcases hForward : s.runForward tFinal stop with ⟨s1, events, e | _ | _⟩
  · exact ⟨rfl, rfl, .refl SolverError.Twin.same _⟩
  · exact ⟨rfl, rfl, .refl SolverError.Twin.same _⟩
  -- the forward phase passed: the adjoint phases of the twins end in twins
  rw [hForward] at hSetup
  simp only [setup, Prod.mk.injEq] at hSetup
  obtain ⟨-, -, -, hModel, hAdjoint⟩ := hSetup
  obtain ⟨hState, hEvents, hResult⟩ :=
    runAdjoint_transposed (s := s1) (hAdjoint.trans hA) (hModel ▸ hT) stop
  dsimp only
  rcases hOut : s1.runAdjoint stop with ⟨s2, more, r⟩
  rcases hOut' : s1.transposed.runAdjoint stop with ⟨s2', more', r'⟩
  rw [hOut, hOut'] at hState hEvents hResult
  dsimp only at hState hEvents hResult
  subst hState hEvents
  rcases hResult.cases_eq with ⟨b, rfl, rfl⟩ | ⟨e, e', rfl, rfl, h⟩
  · cases b
    · exact ⟨rfl, rfl, .ok false⟩
    · dsimp only
      rw [runAssembly_transposed]
      exact ⟨rfl, rfl, .refl SolverError.Twin.same _⟩
  · exact ⟨rfl, rfl, .error h⟩

/-- **`advance` on twins ends in twins.** -/
theorem advance_transposed {s : SensitivitySolver R}
    (hA : s.equation.adjointModel = some A) (hT : A.Transposes s.equation.model) (tFinal : R)
    (stop : Phase → SolutionState R → R → Bool) :
    Twins (s.advance tFinal stop) (s.transposed.advance tFinal stop) := by
  unfold advance
  simp only [transposed_stage]
  by_cases hConfigured : s.stage = .configured
  · simp only [hConfigured, if_true]
    exact ⟨rfl, rfl, .refl SolverError.Twin.same _⟩
  by_cases hTerminal : s.stage.isTerminal = true
  · simp only [hConfigured, hTerminal, if_true, if_false]
    exact ⟨rfl, rfl, .refl SolverError.Twin.same _⟩
  simp only [hConfigured, hTerminal, if_false]
  obtain ⟨hState, hEvents, hResult⟩ := runPhases_transposed hA hT tFinal stop
  rcases hOut : s.runPhases tFinal stop with ⟨s1, events, r⟩
  rcases hOut' : s.transposed.runPhases tFinal stop with ⟨s1', events', r'⟩
  rw [hOut, hOut'] at hState hEvents hResult
  dsimp only at hState hEvents hResult
  subst hState hEvents
  rcases hResult.cases_eq with ⟨b, rfl, rfl⟩ | ⟨e, e', rfl, rfl, h⟩
  · cases b
    · exact ⟨rfl, rfl, .ok false⟩
    · exact ⟨rfl, rfl, .ok true⟩
  · exact ⟨rfl, rfl, .error h⟩

/-- The adjoint phase built on the transposed path. -/
theorem buildAdjoint_transposed (settings : Settings R) (model : ResidualModel R)
    (adjointModel : Option (AdjointModel R)) :
    buildAdjoint settings model none =
      (buildAdjoint settings model adjointModel).map fun p => (p.1.transposed, p.2) := by
  unfold buildAdjoint
  rw [AdjointEquation.create_transposed model adjointModel]
  rcases AdjointEquation.create model adjointModel settings.options with e | eq
  · rfl
  · rcases Continuation.create settings.adjoint with e | c <;> rfl

/-- A start of twins leaves twins. -/
theorem start_transposed (s : SensitivitySolver R) (t0 : R) (x0 : Vec R)
    (xDot0 xDotDot0 : Option (Vec R)) :
    s.transposed.start t0 x0 xDot0 xDotDot0 =
      ((s.start t0 x0 xDot0 xDotDot0).1.transposed, (s.start t0 x0 xDot0 xDotDot0).2) := by
  unfold start
  simp only [transposed_forward, transposed_model]
  rcases s.forward.start (ε := ModelError) (s.model.stateDim, 1) t0 (Matrix.column x0)
    (xDot0.map Matrix.column) (xDotDot0.map Matrix.column) with e | forward
  · rfl
  · dsimp only
    rw [transposed_settings, transposed_adjointModel,
      buildAdjoint_transposed s.settings s.model s.adjointModel]
    rcases buildAdjoint s.settings s.model s.adjointModel with e | ⟨equation, adjoint⟩ <;> rfl

/-- A change of the settings of twins leaves twins. -/
theorem setSettings_transposed (s : SensitivitySolver R) (settings : Settings R) :
    s.transposed.setSettings settings = (s.setSettings settings).map transposed := by
  unfold setSettings
  simp only [transposed_model, transposed_adjointModel, bind, Except.bind]
  rw [buildAdjoint_transposed settings s.model s.adjointModel]
  rcases settings.validate.mapError SolverError.settings with e | u
  · rfl
  · rcases buildForward settings with e | forward
    · rfl
    · rcases buildAdjoint settings s.model s.adjointModel with e | ⟨equation, adjoint⟩ <;> rfl

/-- **One call on twins ends in twins.** -/
theorem call_transposed {s : SensitivitySolver R}
    (hA : s.equation.adjointModel = some A) (hT : A.Transposes s.equation.model) (c : Call R) :
    Twins (s.call c) (s.transposed.call c) := by
  cases c with
  | start t0 x0 xDot0 xDotDot0 =>
    simp only [call, start_transposed]
    exact ⟨rfl, rfl, .refl SolverError.Twin.same _⟩
  | advance tFinal stop =>
    obtain ⟨hState, hEvents, hResult⟩ := advance_transposed hA hT tFinal stop
    simp only [call]
    rcases hOut : s.advance tFinal stop with ⟨s1, events, r⟩
    rcases hOut' : s.transposed.advance tFinal stop with ⟨s1', events', r'⟩
    rw [hOut, hOut'] at hState hEvents hResult
    exact ⟨hState, hEvents, hResult.map⟩
  | setSettings settings =>
    simp only [call, setSettings_transposed]
    rcases s.setSettings settings with e | s'
    · exact ⟨rfl, rfl, .refl SolverError.Twin.same _⟩
    · exact ⟨rfl, rfl, .refl SolverError.Twin.same _⟩
  | unsetSettings =>
    simp only [call, unsetSettings, bind, Except.bind, setSettings_transposed, transposed_settings]
    rcases s.setSettings {} with e | s'
    · exact ⟨rfl, rfl, .refl SolverError.Twin.same _⟩
    · exact ⟨rfl, rfl, .refl SolverError.Twin.same _⟩

/-! ## §5 Sequences of calls -/

/-- A solver of the model `M` whose equation evaluates the operators with the adjoint
model `A`. -/
structure UsesAdjoint (A : AdjointModel R) (M : ResidualModel R) (s : SensitivitySolver R) :
    Prop where
  model : s.model = M
  adjointModel : s.adjointModel = some A
  equationModel : s.equation.model = M
  equationAdjoint : s.equation.adjointModel = some A

variable {M : ResidualModel R}

theorem UsesAdjoint.of_setup {s s' : SensitivitySolver R} (hU : UsesAdjoint A M s)
    (h : s'.setup = s.setup) : UsesAdjoint A M s' := by
  simp only [setup, Prod.mk.injEq] at h
  obtain ⟨-, hModel, hAdjoint, hEquationModel, hEquationAdjoint⟩ := h
  exact ⟨hModel.trans hU.model, hAdjoint.trans hU.adjointModel,
    hEquationModel.trans hU.equationModel, hEquationAdjoint.trans hU.equationAdjoint⟩

/-- A solver with an adjoint phase built afresh from its models uses its adjoint model. -/
theorem UsesAdjoint.rebuilt {s : SensitivitySolver R} {settings : Settings R}
    {equation : AdjointEquation R} {adjoint : Continuation R} (hU : UsesAdjoint A M s)
    (h : buildAdjoint settings s.model s.adjointModel = .ok (equation, adjoint))
    (s' : SensitivitySolver R) (hModel : s'.model = s.model)
    (hAdjoint : s'.adjointModel = s.adjointModel) (hEquation : s'.equation = equation) :
    UsesAdjoint A M s' := by
  obtain ⟨hEquationModel, hEquationAdjoint, -⟩ := buildAdjoint_fresh h
  exact ⟨hModel.trans hU.model, hAdjoint.trans hU.adjointModel,
    by rw [hEquation, hEquationModel, hU.model],
    by rw [hEquation, hEquationAdjoint, hU.adjointModel]⟩

/-- Every call keeps the models a solver uses. -/
theorem UsesAdjoint.call {s : SensitivitySolver R} (hU : UsesAdjoint A M s) (c : Call R) :
    UsesAdjoint A M (s.call c).1 := by
  refine call_preserves (UsesAdjoint A M) hU (fun t0 x0 xDot0 xDotDot0 => ?_)
    (fun tFinal stop => hU.of_setup (advance_setup s tFinal stop)) (fun hSet => ?_) c
  · rcases hStart : s.start t0 x0 xDot0 xDotDot0 with ⟨s', _ | ⟨⟩⟩
    · rcases start_eq_error hStart with rfl | ⟨forward, rfl, -⟩
      · exact hU
      · exact ⟨hU.model, hU.adjointModel, hU.equationModel, hU.equationAdjoint⟩
    · obtain ⟨forward, equation, adjoint, -, hBuild, rfl⟩ := start_eq_ok hStart
      exact hU.rebuilt hBuild _ rfl rfl rfl
  · obtain ⟨-, forward, equation, adjoint, -, hBuild, rfl⟩ := setSettings_eq_ok hSet
    exact hU.rebuilt hBuild _ rfl rfl rfl

/-- **Any sequence of calls on twins ends in twins at every call.** -/
theorem runCalls_transposed {s : SensitivitySolver R} (hT : A.Transposes M)
    (hU : UsesAdjoint A M s) (calls : List (Call R)) :
    List.Forall₂ Twins (s.runCalls calls) (s.transposed.runCalls calls) := by
  induction calls generalizing s with
  | nil => exact .nil
  | cons c calls ih =>
    -- the twins after the first call are twins again, and still use the adjoint model
    have hTwins := call_transposed hU.equationAdjoint (hU.equationModel ▸ hT) c
    refine .cons hTwins ?_
    rw [hTwins.1]
    exact ih (hU.call c)

/-- A solver built without an adjoint model is the twin of one built with it. -/
theorem create_transposed (settings : Settings R) (model : ResidualModel R)
    (adjointModel : Option (AdjointModel R)) :
    create settings model none = (create settings model adjointModel).map transposed := by
  unfold create
  simp only [bind, Except.bind]
  rw [buildAdjoint_transposed settings model adjointModel]
  rcases settings.validate.mapError SolverError.settings with e | u
  · rfl
  · rcases buildForward settings with e | forward
    · rfl
    · rcases buildAdjoint settings model adjointModel with e | ⟨equation, adjoint⟩ <;> rfl

/-- A solver built with an adjoint model uses it. -/
theorem UsesAdjoint.create {settings : Settings R} {s : SensitivitySolver R}
    (h : create settings M (some A) = .ok s) : UsesAdjoint A M s := by
  obtain ⟨-, forward, equation, adjoint, -, hBuild, rfl⟩ := create_eq_ok h
  obtain ⟨hEquationModel, hEquationAdjoint, -⟩ := buildAdjoint_fresh hBuild
  exact ⟨rfl, rfl, hEquationModel, hEquationAdjoint⟩

end SensitivitySolver

end Sensitivity

/-! ## §6 The reactor's adjoint model -/

namespace Reactor

/-- `α · I + β · Jᵀ` is the transpose of `α · I + β · J`, entry for entry. -/
theorem shifted_stateJacobianTransposed (p : Point R) (α β : R) :
    shifted (stateJacobianTransposed p) α β = (shifted (stateJacobian p) α β).transpose := by
  refine Matrix.ext_get rfl rfl fun i j hi hj => ?_
  simp only [shifted, Matrix.rows_ofFn, Matrix.cols_ofFn] at hi hj
  rw [Matrix.get_transpose _ hi hj]
  simp only [shifted]
  rw [Matrix.get_ofFn _ hi hj, Matrix.get_ofFn _ hj hi]
  -- the diagonal is shared, and the two corners are swapped
  interval_cases i <;> interval_cases j <;> simp [stateJacobian, stateJacobianTransposed]

/-- The reactor's adjoint model gives its Jacobian transposed, and fails where it fails. -/
theorem adjointJacobian_eq (m : Reactor R) (p : Point R) (α β : R) :
    (adjoint : AdjointModel R).adjointJacobian p α β =
      (m.toModel.jacobian p α β).map Matrix.transpose := by
  simp only [adjoint, toModel, ModelError.within]
  split
  · simp [Except.map, shifted_stateJacobianTransposed]
  · rfl

end Reactor

namespace Sensitivity

open SensitivitySolver

/-- **A solver built with an adjoint model that gives the transposed Jacobian cannot be told
apart from one built without it**: the one without is its twin when built, and after every
call of any sequence the two are twins again, having reported the same accepted steps and
results that differ at most in a freeze error, one from the adjoint model and the other from
the model. The reactor's adjoint model is such a model. -/
theorem adjointModel_indistinguishable :
    (∀ (settings : Settings R) (model : ResidualModel R) (A : AdjointModel R),
      A.Transposes model →
      create settings model none = (create settings model (some A)).map transposed ∧
      ∀ s, create settings model (some A) = .ok s → ∀ calls : List (Call R),
        List.Forall₂ Twins (s.runCalls calls) (s.transposed.runCalls calls)) ∧
    ∀ (m : Reactor R) (p : Point R) (α β : R),
      (Reactor.adjoint : AdjointModel R).adjointJacobian p α β =
        (m.toModel.jacobian p α β).map Matrix.transpose := by
  refine ⟨fun settings model A hT => ⟨create_transposed settings model (some A), ?_⟩,
    Reactor.adjointJacobian_eq⟩
  intro s hCreate calls
  exact runCalls_transposed hT (UsesAdjoint.create hCreate) calls

open SteadyAdjoint.Binary64 in
/-- The reactor with its adjoint model, started and advanced, against the reactor on the
transposed path. -/
theorem reactor_adjoint_indistinguishable :
    let m : Reactor Double := ⟨1, 2, 1, 1⟩
    let calls : List (Call Double) :=
      [.start 0 #[1, 0] none none, .advance 100 fun _ _ _ => false]
    match create {} m.toModel (some Reactor.adjoint) with
    | .ok s => List.Forall₂ Twins (s.runCalls calls) (s.transposed.runCalls calls)
    | .error _ => False := by
  intro m calls
  have hT : (Reactor.adjoint : AdjointModel Double).Transposes m.toModel := fun p α β => by
    rw [adjointModel_indistinguishable.2 m p α β]
  rcases hCreate : create {} m.toModel (some Reactor.adjoint) with e | s
  · have hOk : (create (R := Double) {} m.toModel (some Reactor.adjoint)).isOk = true := by
      decide +kernel
    simp [hCreate, Except.isOk, Except.toBool] at hOk
  · exact (adjointModel_indistinguishable.1 {} m.toModel Reactor.adjoint hT).2 s hCreate calls

end Sensitivity

end SteadyAdjoint
