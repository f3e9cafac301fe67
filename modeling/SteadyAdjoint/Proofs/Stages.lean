import SteadyAdjoint.Proofs.BoundedRuns
import SteadyAdjoint.Binary64.Double
import SteadyAdjoint.Model.Logistic

/-!
# What the stage of a solver tells

Between calls, the stage of a sensitivity solver determines its status and whether it holds
a sensitivity, and says what each phase has done: a configured solver has no states in
either phase; a solver ready for its forward phase has a working forward run, no adjoint
states and an unfrozen adjoint equation; a run that failed in its forward phase has left
the adjoint phase untouched; a run that reached the adjoint phase has a forward run that
passed; and a complete run has an adjoint run that passed, from a frozen equation.

The two intermediate stages `forwardDone` and `adjointDone` are only passed through within
one call of `advance`, which ends every run it takes up as complete or failed.

## Main statements

* `Settled`: the invariant, stage by stage.
* `Invariant.call`: every call that does not breach keeps it.
* `Reachable.stagesAgree`: the invariant read part by part, for every observable solver.
-/

namespace SteadyAdjoint.Sensitivity

open SteadyAdjoint.Integrator

variable {R : Type} [Scalar R]

namespace SensitivitySolver

/-! ## §1 The invariant -/

/-- What each stage says about the rest of a solver observed between calls. -/
def Settled (s : SensitivitySolver R) : Prop :=
  match s.stage with
  | .configured => s.status = .working ∧ s.dgdp = none ∧
      s.forward.history.toList = [] ∧ s.adjoint.history.toList = []
  | .forwardReady => s.status = .working ∧ s.dgdp = none ∧ s.forward.status = .working ∧
      s.forward.history.current.isSome ∧ s.adjoint.history.toList = [] ∧
      s.equation.frozen = none
  | .forwardDone | .adjointDone => False
  | .complete => s.status = .passed ∧ s.dgdp.isSome ∧ s.forward.status = .passed ∧
      s.adjoint.status = .passed ∧ s.equation.frozen.isSome
  | .failed .forward => s.status = .failed ∧ s.dgdp = none ∧ s.forward.status = .failed ∧
      s.adjoint.history.toList = [] ∧ s.equation.frozen = none
  | .failed .adjoint => s.status = .failed ∧ s.dgdp = none ∧ s.forward.status = .passed

/-- The invariant of the calls: the stage is settled, and the adjoint phase can be rebuilt
from the settings and the models, as it was when they were accepted. -/
structure Invariant (s : SensitivitySolver R) : Prop where
  settled : s.Settled
  rebuilds : ∃ p, buildAdjoint s.settings s.model s.adjointModel = .ok p

/-! ## §2 Building and changing the settings -/

/-- A solver with freshly built phases, configured, is settled. -/
theorem settled_of_built {s : SensitivitySolver R} {settings : Settings R}
    {forward adjoint : Continuation R} {equation : AdjointEquation R}
    (hForward : buildForward settings = .ok forward)
    (hAdjoint : buildAdjoint settings s.model s.adjointModel = .ok (equation, adjoint)) :
    Settled { s with settings, forward, adjoint, equation, stage := .configured,
                     status := .working, dgdp := none } :=
  ⟨rfl, rfl, buildForward_history hForward, (buildAdjoint_fresh hAdjoint).2.2.2⟩

/-- A solver just built keeps the invariant. -/
theorem invariant_of_create {settings : Settings R} {model : ResidualModel R}
    {adjointModel : Option (AdjointModel R)} {s : SensitivitySolver R}
    (h : create settings model adjointModel = .ok s) : Invariant s := by
  obtain ⟨-, forward, equation, adjoint, hForward, hAdjoint, rfl⟩ := create_eq_ok h
  exact ⟨⟨rfl, rfl, buildForward_history hForward, (buildAdjoint_fresh hAdjoint).2.2.2⟩,
    _, hAdjoint⟩

/-- A successful change of the settings keeps the invariant. -/
theorem Invariant.setSettings {s s' : SensitivitySolver R} {settings : Settings R}
    (h : s.setSettings settings = .ok s') : Invariant s' := by
  obtain ⟨-, forward, equation, adjoint, hForward, hAdjoint, rfl⟩ := setSettings_eq_ok h
  exact ⟨settled_of_built hForward hAdjoint, _, hAdjoint⟩

/-! ## §3 Starting a run -/

/-- A call of `start` keeps the invariant. A start that fails after seeding the forward
phase would leave a configured solver with forward states, but it cannot fail there: the
adjoint phase is rebuilt from settings and models that built it before. -/
theorem Invariant.start {s : SensitivitySolver R} (hInv : Invariant s) (t0 : R) (x0 : Vec R)
    (xDot0 xDotDot0 : Option (Vec R)) : Invariant (s.start t0 x0 xDot0 xDotDot0).1 := by
  rcases hStart : s.start t0 x0 xDot0 xDotDot0 with ⟨s', _ | ⟨⟩⟩
  · rcases start_eq_error hStart with rfl | ⟨forward, -, e, hBuild⟩
    · exact hInv
    · obtain ⟨p, hp⟩ := hInv.rebuilds
      rw [hp] at hBuild
      cases hBuild
  · obtain ⟨forward, equation, adjoint, hForward, hAdjoint, rfl⟩ := start_eq_ok hStart
    obtain ⟨-, -, rfl⟩ := Continuation.start_eq_ok hForward
    have hCurrent := History.current_push (s.forward.history.clear)
    exact ⟨⟨rfl, rfl, rfl, by simp [hCurrent], (buildAdjoint_fresh hAdjoint).2.2.2,
      (buildAdjoint_fresh hAdjoint).2.2.1⟩, hInv.rebuilds⟩

/-! ## §4 Advancing a run -/

/-- The outcome of a call that is not a breach. -/
def Sound (o : Outcome R) : Prop := ∀ e, o.2.2 = .error e → e.breaks = false

/-- Every outcome of `advance` on a settled run ready for its forward phase, short of a
breach, ends the run settled: failed in the phase that did not pass, or complete. -/
theorem Advances.settled {s : SensitivitySolver R} {tFinal : R}
    {stop : Phase → SolutionState R → R → Bool} {o : Outcome R}
    (hReady : s.stage = .forwardReady) (hSettled : s.Settled) (h : Advances s tFinal stop o)
    (hSound : Sound o) : o.1.Settled := by
  simp only [Settled, hReady] at hSettled
  obtain ⟨-, hDgdp, -, hStarted, hEmpty, hUnfrozen⟩ := hSettled
  cases h with
  | @forwardError forward events e hForward =>
    -- a forward error that is not a breach leaves the forward run failed
    have hNoBreach : e ≠ .breach := by
      rintro rfl
      simp [Sound, SolverError.breaks, SolveError.breaks] at hSound
    have hFailed := Continuation.status_of_advance_error hForward hStarted hNoBreach
    simp [Settled, fail, hReady, hDgdp, hFailed, hEmpty, hUnfrozen]
  | forwardFailed hForward =>
    have hFailed := Continuation.status_of_advance_ok hForward
    simp [Settled, fail, hReady, hDgdp, hFailed, hEmpty, hUnfrozen]
  | freezeFailed hForward hFreeze =>
    have hPassed := Continuation.status_of_advance_ok hForward
    obtain ⟨equation, rfl, -⟩ := freezeAdjoint_error hFreeze
    simp [Settled, fail, hDgdp, hPassed]
  | adjointError hForward hFreeze _ | adjointFailed hForward hFreeze _ =>
    have hPassed := Continuation.status_of_advance_ok hForward
    obtain ⟨steady, frozen, adjoint, -, -, -, rfl⟩ := freezeAdjoint_ok hFreeze
    simp [Settled, fail, hDgdp, hPassed]
  | assemblyFailed hForward hFreeze _ _ =>
    have hPassed := Continuation.status_of_advance_ok hForward
    obtain ⟨steady, frozen, adjoint, -, -, -, rfl⟩ := freezeAdjoint_ok hFreeze
    simp [Settled, fail, hDgdp, hPassed]
  | complete hForward hFreeze hAdjoint hAssemble =>
    have hPassed := Continuation.status_of_advance_ok hForward
    have hAdjointPassed := Continuation.status_of_advance_ok hAdjoint
    obtain ⟨steady, frozen, adjoint, -, -, -, rfl⟩ := freezeAdjoint_ok hFreeze
    obtain ⟨y, dgdp, -, -, rfl⟩ := assemble_eq_ok hAssemble
    simp [Settled, hPassed, hAdjointPassed]

/-- `advance` keeps the settings and the models. -/
theorem Advances.setup {s : SensitivitySolver R} {tFinal : R}
    {stop : Phase → SolutionState R → R → Bool} {o : Outcome R}
    (h : Advances s tFinal stop o) :
    o.1.settings = s.settings ∧ o.1.model = s.model ∧ o.1.adjointModel = s.adjointModel := by
  cases h with
  | forwardError | forwardFailed => exact ⟨rfl, rfl, rfl⟩
  | freezeFailed _ hFreeze =>
    obtain ⟨equation, rfl, -⟩ := freezeAdjoint_error hFreeze
    exact ⟨rfl, rfl, rfl⟩
  | adjointError _ hFreeze _ | adjointFailed _ hFreeze _ | assemblyFailed _ hFreeze _ _ =>
    obtain ⟨steady, frozen, adjoint, -, -, -, rfl⟩ := freezeAdjoint_ok hFreeze
    exact ⟨rfl, rfl, rfl⟩
  | complete _ hFreeze _ hAssemble =>
    obtain ⟨steady, frozen, adjoint, -, -, -, rfl⟩ := freezeAdjoint_ok hFreeze
    obtain ⟨y, dgdp, -, -, rfl⟩ := assemble_eq_ok hAssemble
    exact ⟨rfl, rfl, rfl⟩

/-- A call of `advance` that is not a breach keeps the invariant. The intermediate stages
never hold between calls, so a run is configured, ended, or ready for its forward phase. -/
theorem Invariant.advance {s : SensitivitySolver R} (hInv : Invariant s) (tFinal : R)
    (stop : Phase → SolutionState R → R → Bool) (hSound : Sound (s.advance tFinal stop)) :
    Invariant (s.advance tFinal stop).1 := by
  have hSettled := hInv.settled
  cases hStage : s.stage with
  | configured => rw [advance_configured hStage]; exact hInv
  | complete | failed _ =>
    rw [advance_terminal (by simp [hStage, Stage.isTerminal])]
    exact hInv
  | forwardDone | adjointDone => simp [Settled, hStage] at hSettled
  | forwardReady =>
    have h := advance_forwardReady s tFinal stop hStage
    obtain ⟨hSettings, hModel, hAdjointModel⟩ := h.setup
    refine ⟨h.settled hStage hSettled hSound, ?_⟩
    rw [hSettings, hModel, hAdjointModel]
    exact hInv.rebuilds

/-! ## §5 Every call -/

/-- **Every call that does not breach keeps the invariant.** -/
theorem Invariant.call {s : SensitivitySolver R} (hInv : Invariant s) (c : Call R)
    (hSound : (s.call c).breaks = false) : Invariant (s.call c).1 := by
  cases c with
  | start t0 x0 xDot0 xDotDot0 => exact hInv.start t0 x0 xDot0 xDotDot0
  | advance tFinal stop =>
    refine hInv.advance tFinal stop fun e he => ?_
    simpa [SensitivitySolver.call, CallOutcome.breaks, he, Except.map] using hSound
  | setSettings settings =>
    rcases hSet : s.setSettings settings with e | s'
    · simpa [SensitivitySolver.call, hSet] using hInv
    · simpa [SensitivitySolver.call, hSet] using Invariant.setSettings hSet
  | unsetSettings =>
    rcases hUnset : s.unsetSettings with e | ⟨s', previous⟩
    · simpa [SensitivitySolver.call, hUnset] using hInv
    · simpa [SensitivitySolver.call, hUnset] using
        Invariant.setSettings (unsetSettings_eq_ok hUnset).1

end SensitivitySolver

open SensitivitySolver in
/-- Every solver that a sequence of calls leaves keeps the invariant. -/
theorem Reachable.invariant {s : SensitivitySolver R} (h : Reachable s) : Invariant s := by
  induction h with
  | create h => exact invariant_of_create h
  | call _ c hSound ih => exact ih.call c hSound

/-! ## §6 The stage of an observable solver -/

/-- What the stage of a solver observed between calls says, part by part. -/
structure StagesAgree (s : SensitivitySolver R) : Prop where
  /-- The stages a call passes through are never observed. -/
  settledStage : s.stage ≠ .forwardDone ∧ s.stage ≠ .adjointDone
  /-- A sensitivity is held exactly when the run is complete. -/
  dgdp_isSome : s.dgdp.isSome ↔ s.stage = .complete
  /-- The status is working until a run ends, passed when it completes, failed when it
  fails. -/
  status_working : s.stage = .configured ∨ s.stage = .forwardReady → s.status = .working
  status_passed : s.stage = .complete → s.status = .passed
  status_failed : ∀ phase, s.stage = .failed phase → s.status = .failed
  /-- A configured solver has no states in either phase. -/
  configured : s.stage = .configured →
    s.forward.history.toList = [] ∧ s.adjoint.history.toList = []
  /-- A run ready for its forward phase has a working forward run, no adjoint states and an
  unfrozen adjoint equation. -/
  forwardReady : s.stage = .forwardReady →
    s.forward.status = .working ∧ s.adjoint.history.toList = [] ∧ s.equation.frozen = none
  /-- A run that failed in its forward phase has a failed forward run and has left the
  adjoint phase untouched. -/
  failedForward : s.stage = .failed .forward →
    s.forward.status = .failed ∧ s.adjoint.history.toList = [] ∧ s.equation.frozen = none
  /-- A run that reached its adjoint phase has a forward run that passed. -/
  forwardPassed : s.stage = .failed .adjoint ∨ s.stage = .complete →
    s.forward.status = .passed
  /-- A complete run has an adjoint run that passed, from a frozen equation. -/
  complete : s.stage = .complete → s.adjoint.status = .passed ∧ s.equation.frozen.isSome

/-- A settled solver agrees with its stage in every part. -/
theorem SensitivitySolver.Settled.toStagesAgree {s : SensitivitySolver R} (h : s.Settled) :
    StagesAgree s := by
  unfold SensitivitySolver.Settled at h
  -- one case per stage; in each, the parts about the other stages hold vacuously
  split at h
  · next hStage =>
    obtain ⟨hStatus, hDgdp, hForward, hAdjoint⟩ := h
    constructor <;> simp [hStage, hStatus, hDgdp, hForward, hAdjoint]
  · next hStage =>
    obtain ⟨hStatus, hDgdp, hWorking, -, hAdjoint, hUnfrozen⟩ := h
    constructor <;> simp [hStage, hStatus, hDgdp, hWorking, hAdjoint, hUnfrozen]
  · exact h.elim
  · exact h.elim
  · next hStage =>
    obtain ⟨hStatus, hDgdp, hForward, hAdjoint, hFrozen⟩ := h
    constructor <;> simp [hStage, hStatus, hDgdp, hForward, hAdjoint, hFrozen]
  · next hStage =>
    obtain ⟨hStatus, hDgdp, hFailed, hAdjoint, hUnfrozen⟩ := h
    constructor <;> simp [hStage, hStatus, hDgdp, hFailed, hAdjoint, hUnfrozen]
  · next hStage =>
    obtain ⟨hStatus, hDgdp, hPassed⟩ := h
    constructor <;> simp [hStage, hStatus, hDgdp, hPassed]

/-- **Every solver observable between calls agrees with its stage**, whatever sequence of
builds, starts, advances and changes of the settings led to it. -/
theorem Reachable.stagesAgree {s : SensitivitySolver R} (h : Reachable s) : StagesAgree s :=
  h.invariant.settled.toStagesAgree

open SteadyAdjoint.Binary64 in
/-- A logistic solver started at its steady state `x = 2` and advanced once completes its run,
in one forward step and two adjoint steps; the complete solver is observable and agrees with
its stage. -/
theorem logistic_solver_stagesAgree :
    ∃ s, SensitivitySolver.create longAdjointSteps (Logistic.toModel ⟨1, 2, 0⟩) none = .ok s ∧
      let ran := ((s.start 0 #[2] none none).1.advance 100 fun _ _ _ => false).1
      Reachable ran ∧ ran.stage = .complete ∧ StagesAgree ran := by
  obtain ⟨s, hCreate, hReach, hComplete, -⟩ := logistic_run_completes
  exact ⟨s, hCreate, hReach, hComplete, Reachable.stagesAgree hReach⟩

end SteadyAdjoint.Sensitivity
