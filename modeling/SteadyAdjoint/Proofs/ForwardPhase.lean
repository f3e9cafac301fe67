import SteadyAdjoint.Proofs.Outcomes
import SteadyAdjoint.Proofs.Stages
import SteadyAdjoint.Binary64.Double
import SteadyAdjoint.Model.Logistic

/-!
# The forward phase is a plain continuation run

A sensitivity solver keeps its forward phase as a continuation of its own, stepped on the
model at its nominal parameters. This module shows that nothing else in the solver touches it:

* a call of `advance` changes the forward continuation exactly as advancing it alone would,
  and only while the run is ready for its forward phase; the freeze, the adjoint phase and the
  assembly leave it as it is (`advance_forward`);
* a run of a continuation changes neither its settings, nor its stepper but for the kept
  factorisation, nor its history but for the states (`Continuation.setup_advance`), and a
  start reads nothing else (`Continuation.start_eq_of_setup`);
* so the forward continuation of every observable solver starts exactly as one created from
  the forward settings would (`Reachable.forwardBuilt`).

## Main statements

* `SensitivitySolver.advance_forward`: the frame of a call of `advance`.
* `forward_runs_alone`: after a start and a call of `advance`, the forward continuation is the
  one a plain continuation run leaves, and later calls of `advance` do not change it.
-/

namespace SteadyAdjoint

namespace Integrator

variable {R : Type} [Scalar R] {ε : Type}

/-! ## §1 What a run keeps of a continuation -/

/-- A step leaves the scheme and the Newton settings of a stepper as they were. -/
@[simp] theorem Stepper.reset_takeStep (s : Stepper R) (ode : ImplicitOde R ε)
    (current : SolutionState R) (dt : R) : (s.takeStep ode current dt).1.reset = s.reset := by
  unfold Stepper.takeStep
  -- only the kept factorisation of a backward Euler stepper changes
  cases hk : s.kind with
  | backwardEuler => by_cases hl : ode.isLinear <;> simp [hk, hl, Stepper.reset]
  | forwardEuler => rfl

@[simp] theorem Stepper.reset_reset (s : Stepper R) : s.reset.reset = s.reset := rfl

omit [Scalar R] in
/-- Pushing a state keeps the storage limit. -/
@[simp] theorem History.clear_push (h : History R) (s : SolutionState R) :
    (h.push s).clear = h.clear := by
  simp only [History.push]
  split
  · split <;> rfl
  · rfl

omit [Scalar R] in
@[simp] theorem History.clear_clear (h : History R) : h.clear.clear = h.clear := rfl

namespace Continuation

/-- What a run does not change of a continuation: its settings, its stepper but for the kept
factorisation, and its history but for the states. -/
def setup (c : Continuation R) : Config R × Stepper R × History R :=
  (c.config, c.stepper.reset, c.history.clear)

@[simp] theorem setup_stopWith (c : Continuation R) (events : List (Event R)) (t : Termination) :
    (c.stopWith (ε := ε) events t).1.setup = c.setup := rfl

@[simp] theorem setup_record (c : Continuation R) (state : SolutionState R) :
    (c.record state).setup = c.setup := by
  simp [setup, record]

@[simp] theorem setup_retried (c : Continuation R) (dt : R) : (c.retried dt).setup = c.setup :=
  rfl

@[simp] theorem setup_nextTimeStep (c : Continuation R) (rate : R) :
    (c.nextTimeStep rate).setup = c.setup := rfl

/-- The continuation after an attempt has the setup of the one before. -/
theorem setup_attempted {c : Continuation R} {ode : ImplicitOde R ε} {current : SolutionState R}
    {dt : R} {s : Stepper R} {attempt : Except (StepError ε) (Step R)}
    (h : c.stepper.takeStep ode current dt = (s, attempt)) : (c.attempted s).setup = c.setup := by
  have hReset := Stepper.reset_takeStep c.stepper ode current dt
  rw [h] at hReset
  simp [setup, attempted, hReset]

variable {ode : ImplicitOde R ε} {tFinal : R} {stop : SolutionState R → R → Bool}

theorem Pass.setup {q q' : LoopPoint R} (h : Pass ode tFinal stop q q') :
    q'.cont.setup = q.cont.setup := by
  cases h with
  | retry _ _ hStep => simpa using setup_attempted hStep
  | accept _ _ hStep => simpa using setup_attempted hStep

/-- A chain of passes keeps the setup of the continuation. -/
theorem passes_setup {q q' : LoopPoint R} (h : Relation.ReflTransGen (Pass ode tFinal stop) q q') :
    q'.cont.setup = q.cont.setup :=
  passes_invariant (fun q' => q'.cont.setup = q.cont.setup)
    (fun hPass hq => hPass.setup.trans hq) h rfl

theorem Exit.setup {q : LoopPoint R} {o : Outcome R ε} (h : Exit ode tFinal stop q o) :
    o.1.setup = q.cont.setup := by
  cases h with
  | finalTime | maxSteps => rfl
  | problem _ _ hStep | breach _ _ hStep => exact setup_attempted hStep
  | stepFailures _ _ hStep | minTimeStep _ _ hStep => simpa using setup_attempted hStep
  | steady _ _ hStep | stopped _ _ hStep => simpa using setup_attempted hStep

variable (ode tFinal stop) in
/-- **A call of `advance` keeps the setup of a continuation.** -/
theorem setup_advance (c : Continuation R) : (c.advance ode tFinal stop).1.setup = c.setup := by
  rcases advance_cases ode tFinal stop c with ⟨-, hEq⟩ | ⟨_, -, -, hEq⟩ | ⟨_, q, -, -, hq, hExit⟩
  · rw [hEq]
    rfl
  · rw [hEq]
    rfl
  · rw [hExit.setup, passes_setup hq]
    rfl

/-- A start reads nothing of a continuation but its setup. -/
theorem start_eq_of_setup {c c' : Continuation R} (h : c.setup = c'.setup) (dims : Nat × Nat)
    (t0 : R) (x0 : Matrix R) (xDot0 xDotDot0 : Option (Matrix R)) :
    c.start (ε := ε) dims t0 x0 xDot0 xDotDot0 = c'.start dims t0 x0 xDot0 xDotDot0 := by
  simp only [setup, Prod.mk.injEq] at h
  obtain ⟨hConfig, hStepper, hHistory⟩ := h
  simp only [start, hConfig, hStepper, hHistory]

/-- A started continuation keeps the setup of the one it was started from. -/
theorem setup_of_start {c c' : Continuation R} {dims : Nat × Nat} {t0 : R} {x0 : Matrix R}
    {xDot0 xDotDot0 : Option (Matrix R)} (h : c.start (ε := ε) dims t0 x0 xDot0 xDotDot0 = .ok c') :
    c'.setup = c.setup := by
  obtain ⟨-, -, rfl⟩ := start_eq_ok h
  simp [setup]

end Continuation

end Integrator

namespace Sensitivity

open SteadyAdjoint.Integrator

variable {R : Type} [Scalar R]

namespace SensitivitySolver

/-! ## §2 The frame of a call of `advance` -/

theorem freezeAdjoint_forward (s : SensitivitySolver R) :
    s.freezeAdjoint.1.forward = s.forward := by
  rcases h : s.freezeAdjoint with ⟨s', _ | ⟨⟩⟩
  · obtain ⟨equation, rfl, -⟩ := freezeAdjoint_error h
    rfl
  · obtain ⟨_, _, _, _, _, _, rfl⟩ := freezeAdjoint_ok h
    rfl

theorem runForward_forward (s : SensitivitySolver R) (tFinal : R)
    (stop : Phase → SolutionState R → R → Bool) :
    (s.runForward tFinal stop).1.forward =
      if s.stage = .forwardReady then (s.forward.advance s.forwardOde tFinal (stop .forward)).1
      else s.forward := by
  unfold runForward
  split
  · rcases s.forward.advance s.forwardOde tFinal (stop .forward) with ⟨forward, events, e | _ | _⟩
    all_goals rfl
  · rfl

theorem runAdjoint_forward (s : SensitivitySolver R) (stop : Phase → SolutionState R → R → Bool) :
    (s.runAdjoint stop).1.forward = s.forward := by
  unfold runAdjoint
  split
  · rw [← freezeAdjoint_forward s]
    rcases s.freezeAdjoint with ⟨frozen, _ | ⟨⟩⟩
    · rfl
    · dsimp only
      rcases frozen.adjoint.advance frozen.equation.toOde frozen.settings.adjoint.finalTime
        (stop .adjoint) with ⟨adjoint, events, e | _ | _⟩
      all_goals rfl
  · rfl

theorem runAssembly_forward (s : SensitivitySolver R) : s.runAssembly.1.forward = s.forward := by
  unfold runAssembly
  split
  · rcases h : s.assemble with e | assembled
    · rfl
    · obtain ⟨_, _, _, _, rfl⟩ := assemble_eq_ok h
      rfl
  · rfl

/-- **A call of `advance` changes the forward continuation only by its forward run**: exactly
as advancing the forward continuation alone towards the same final time would, while the run
is ready for its forward phase, and not at all otherwise. -/
theorem advance_forward (s : SensitivitySolver R) (tFinal : R)
    (stop : Phase → SolutionState R → R → Bool) :
    (s.advance tFinal stop).1.forward =
      if s.stage = .forwardReady then (s.forward.advance s.forwardOde tFinal (stop .forward)).1
      else s.forward := by
  -- the adjoint phase and the assembly run after the forward phase and leave it as it is
  have hPhases : (s.runPhases tFinal stop).1.forward = (s.runForward tFinal stop).1.forward := by
    unfold runPhases
    rcases s.runForward tFinal stop with ⟨s1, events, e | _ | _⟩
    · rfl
    · rfl
    · dsimp only
      rw [← runAdjoint_forward s1 stop]
      rcases s1.runAdjoint stop with ⟨s2, more, e | _ | _⟩
      · rfl
      · rfl
      · exact runAssembly_forward s2
  rw [← runForward_forward]
  unfold advance
  split
  · rename_i hConfigured
    simp [runForward, hConfigured]
  split
  · rename_i hTerminal
    have hReady : s.stage ≠ .forwardReady := fun h => by simp [h, Stage.isTerminal] at hTerminal
    simp [runForward, hReady]
  rw [← hPhases]
  rcases s.runPhases tFinal stop with ⟨s', events, e | _ | _⟩ <;> rfl

/-- A call of `advance` on a run ready for its forward phase ends it, complete or failed. -/
theorem advance_isTerminal {s : SensitivitySolver R} (hReady : s.stage = .forwardReady)
    (tFinal : R) (stop : Phase → SolutionState R → R → Bool) :
    (s.advance tFinal stop).1.stage.isTerminal = true := by
  have h := advance_forwardReady s tFinal stop hReady
  generalize s.advance tFinal stop = o at h ⊢
  cases h <;> rfl

/-- On a run that has ended, calls of `advance` change nothing. -/
theorem runCalls_terminal {s : SensitivitySolver R} (hEnded : s.stage.isTerminal = true)
    (calls : List (Call R)) (hAdvance : ∀ c ∈ calls, ∃ tFinal stop, c = .advance tFinal stop) :
    ∀ o ∈ s.runCalls calls, o.1 = s := by
  induction calls with
  | nil => simp [runCalls]
  | cons c calls ih =>
    obtain ⟨tFinal, stop, rfl⟩ := hAdvance c (List.mem_cons_self ..)
    have hSame : (s.call (.advance tFinal stop)).1 = s := by
      simp [call, advance_terminal hEnded]
    intro o ho
    rw [runCalls, List.mem_cons] at ho
    rcases ho with rfl | ho
    · exact hSame
    · rw [hSame] at ho
      exact ih (fun c hc => hAdvance c (List.mem_cons_of_mem _ hc)) o ho

/-! ## §3 The forward continuation of an observable solver -/

/-- The forward continuation keeps the setup of one created from the forward settings. -/
def ForwardBuilt (s : SensitivitySolver R) : Prop :=
  ∃ plain, Continuation.create s.settings.forward = .ok plain ∧ s.forward.setup = plain.setup

/-- A forward phase just built is created from the forward settings. -/
theorem create_of_buildForward {settings : Settings R} {forward : Continuation R}
    (h : buildForward settings = .ok forward) :
    Continuation.create settings.forward = .ok forward := by
  simp only [buildForward, Except.mapError] at h
  split at h
  · cases h
  · cases h
    assumption

theorem ForwardBuilt.start {s : SensitivitySolver R} (h : s.ForwardBuilt) (t0 : R) (x0 : Vec R)
    (xDot0 xDotDot0 : Option (Vec R)) : (s.start t0 x0 xDot0 xDotDot0).1.ForwardBuilt := by
  obtain ⟨plain, hCreate, hSetup⟩ := h
  unfold SensitivitySolver.start
  dsimp only
  split
  · exact ⟨plain, hCreate, hSetup⟩
  · rename_i forward hForward
    -- whether the adjoint phase is rebuilt or not, the forward phase is the started one
    have hStarted := (Continuation.setup_of_start hForward).trans hSetup
    split
    · exact ⟨plain, hCreate, hStarted⟩
    · exact ⟨plain, hCreate, hStarted⟩

theorem ForwardBuilt.advance {s : SensitivitySolver R} (h : s.ForwardBuilt) (tFinal : R)
    (stop : Phase → SolutionState R → R → Bool) : (s.advance tFinal stop).1.ForwardBuilt := by
  obtain ⟨plain, hCreate, hSetup⟩ := h
  have hSettings : (s.advance tFinal stop).1.settings = s.settings :=
    congrArg Prod.fst (advance_setup s tFinal stop)
  refine ⟨plain, hSettings ▸ hCreate, ?_⟩
  rw [advance_forward]
  split
  · rw [Continuation.setup_advance, hSetup]
  · exact hSetup

theorem ForwardBuilt.call {s : SensitivitySolver R} (h : s.ForwardBuilt) (c : Call R) :
    (s.call c).1.ForwardBuilt := by
  refine call_preserves (fun s => s.ForwardBuilt) h h.start h.advance (fun hSet => ?_) c
  -- new settings build the forward phase afresh
  obtain ⟨-, forward, -, -, hForward, -, rfl⟩ := setSettings_eq_ok hSet
  exact ⟨forward, create_of_buildForward hForward, rfl⟩

end SensitivitySolver

open SensitivitySolver in
/-- The forward continuation of every observable solver starts as one created from its
forward settings. -/
theorem Reachable.forwardBuilt {s : SensitivitySolver R} (h : Reachable s) : s.ForwardBuilt := by
  induction h with
  | create h =>
    obtain ⟨-, forward, -, -, hForward, -, rfl⟩ := create_eq_ok h
    exact ⟨forward, create_of_buildForward hForward, rfl⟩
  | call _ c _ ih => exact ih.call c

/-! ## §4 The forward phase of a run -/

/-- **The forward phase of a sensitivity solver runs as a plain continuation.**

Take any solver observable between calls, whatever calls led to it, and any initial data. A
continuation `plain` is created from the forward settings. Starting the solver starts its
forward continuation as `plain` is started, at the dimensions of the forward problem (the
model at its nominal parameters, with the mass matrix the options declare): when that start
fails, the solver fails with its error and changes nothing; when it succeeds, the forward
continuation of the solver is the started one. A call of `advance`, towards any final time and
with any request to stop that never stops the forward phase, then leaves the forward
continuation exactly as advancing the started continuation alone without any request to stop
leaves it: its history, status, termination, step size, stepper and counts. Until the run is
complete the solver's time is that continuation's time, and no later call of `advance`
changes it. -/
theorem forward_runs_alone {s : SensitivitySolver R} (hs : Reachable s) (t0 : R) (x0 : Vec R)
    (xDot0 xDotDot0 : Option (Vec R)) :
    ∃ plain : Continuation R, Continuation.create s.settings.forward = .ok plain ∧
      match plain.start (ε := ModelError) (s.forwardOde.dim, s.forwardOde.directions) t0
          (Matrix.column x0) (xDot0.map Matrix.column) (xDotDot0.map Matrix.column) with
      | .error e => s.start t0 x0 xDot0 xDotDot0 = (s, .error (.forwardIntegration e))
      | .ok started =>
        (s.start t0 x0 xDot0 xDotDot0).2 = .ok () ∧
        (s.start t0 x0 xDot0 xDotDot0).1.forward = started ∧
        ∀ (tFinal : R) (stop : Phase → SolutionState R → R → Bool),
          (∀ state rate, stop .forward state rate = false) →
          let ran := ((s.start t0 x0 xDot0 xDotDot0).1.advance tFinal stop).1
          ran.forward = (started.advance s.forwardOde tFinal fun _ _ => false).1 ∧
          (ran.stage ≠ .complete → ran.time = ran.forward.time) ∧
          ∀ calls : List (Call R), (∀ c ∈ calls, ∃ tFinal stop, c = .advance tFinal stop) →
            ∀ o ∈ ran.runCalls calls, o.1.forward = ran.forward := by
  obtain ⟨plain, hCreate, hSetup⟩ := hs.forwardBuilt
  refine ⟨plain, hCreate, ?_⟩
  -- the solver's forward continuation starts as `plain` does
  have hStart := Continuation.start_eq_of_setup (ε := ModelError) hSetup
    (s.forwardOde.dim, s.forwardOde.directions) t0 (Matrix.column x0) (xDot0.map Matrix.column)
    (xDotDot0.map Matrix.column)
  rcases hPlain : plain.start (ε := ModelError) (s.forwardOde.dim, s.forwardOde.directions) t0
    (Matrix.column x0) (xDot0.map Matrix.column) (xDotDot0.map Matrix.column) with e | started
  · simp only [SensitivitySolver.start]
    rw [show (s.model.stateDim, 1) = (s.forwardOde.dim, s.forwardOde.directions) from rfl,
      hStart, hPlain]
  · -- an observable solver rebuilds its adjoint phase, so the start succeeds
    obtain ⟨p, hBuild⟩ := hs.invariant.rebuilds
    have hSolver : s.start t0 x0 xDot0 xDotDot0 =
        ({ s with forward := started, equation := p.1, adjoint := p.2, dgdp := none,
                  stage := .forwardReady, status := .working }, .ok ()) := by
      simp only [SensitivitySolver.start]
      rw [show (s.model.stateDim, 1) = (s.forwardOde.dim, s.forwardOde.directions) from rfl,
        hStart, hPlain]
      simp only [hBuild]
    rw [hSolver]
    refine ⟨rfl, rfl, fun tFinal stop hGo => ⟨?_, fun hStage => if_neg hStage, ?_⟩⟩
    · have hStop : stop .forward = fun _ _ => false := funext fun state => funext (hGo state)
      rw [SensitivitySolver.advance_forward, if_pos rfl, hStop]
      rfl
    · -- the run has ended, and calls of `advance` change nothing after it
      intro calls hAdvance o ho
      rw [SensitivitySolver.runCalls_terminal (SensitivitySolver.advance_isTerminal rfl tFinal stop)
        calls hAdvance o ho]

open SteadyAdjoint.Binary64 in
/-- A logistic solver that has completed a run from `x = 2` is started again from `x = 1`: its
forward phase is started and advanced exactly as a continuation created from its forward
settings is. -/
theorem logistic_forward_runs_alone :
    ∃ s, SensitivitySolver.create longAdjointSteps (Logistic.toModel ⟨1, 2, 0⟩) none = .ok s ∧
      let ran := ((s.start 0 #[2] none none).1.advance 100 fun _ _ _ => false).1
      Reachable ran ∧ ran.stage = .complete ∧
      ∃ plain started : Continuation Double,
        Continuation.create ran.settings.forward = .ok plain ∧
        plain.start (ε := ModelError) (1, 1) 0 (Matrix.column #[1]) none none = .ok started ∧
        (ran.start 0 #[1] none none).2 = .ok () ∧ (ran.start 0 #[1] none none).1.forward = started ∧
        ((ran.start 0 #[1] none none).1.advance 100 fun _ _ _ => false).1.forward =
          (started.advance ran.forwardOde 100 fun _ _ => false).1 := by
  obtain ⟨s, hCreate, hReach, hComplete, -, -, hDim, hDirections, hSettings⟩ :=
    logistic_run_completes
  refine ⟨s, hCreate, ?_⟩
  dsimp only
  generalize ((s.start 0 #[2] none none).1.advance 100 fun _ _ _ => false).1 = ran
    at hReach hComplete hDim hDirections hSettings ⊢
  obtain ⟨plain, hPlain, hMatch⟩ := forward_runs_alone hReach 0 #[1] none none
  rw [hDim, hDirections] at hMatch
  rw [hSettings] at hPlain ⊢
  -- the forward settings the solver was created with start a continuation from `x = 1`
  have hRestart : ((Continuation.create longAdjointSteps.forward).toOption.bind fun plain =>
      (plain.start (ε := ModelError) (1, 1) 0 (Matrix.column #[1]) none none).toOption).isSome :=
    by decide +kernel
  simp only [hPlain, Except.toOption, Option.bind_some] at hRestart
  rcases hStarted : plain.start (ε := ModelError) (1, 1) 0 (Matrix.column #[1]) none none with
    e | started
  · simp [hStarted] at hRestart
  simp only [Option.map_none, hStarted] at hMatch
  obtain ⟨hOk, hForward, hRun⟩ := hMatch
  exact ⟨hReach, hComplete, plain, started, hPlain, hStarted, hOk, hForward,
    (hRun 100 (fun _ _ _ => false) fun _ _ => rfl).1⟩

end Sensitivity

end SteadyAdjoint
