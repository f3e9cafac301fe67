import SteadyAdjoint.Proofs.Budget

/-!
# Forward Euler steps reuse the rates they stored

A forward Euler step from a state `(t, X)` moves along the rate `-M⁻¹ F(t, X, 0)` and stores, with
the state it reaches, the rate evaluated there. The next step moves along that stored rate and
does not evaluate it again; only the initial state of a run, whose rate was given by the caller,
has its rate evaluated. This module shows that the reuse changes nothing, for a problem whose
mass matrix is the same at every state of one shape (or is declared the identity):

* the rate an accepted state stores is `-M⁻¹ F(t, X, 0)` at its own time and state
  (`Stepper.rateAt_next`): the step evaluated it at the time `t + dt` that the state records,
  with the mass matrix of the state before, which is the state's own;
* so every retained state of a forward Euler run stores the rate recomputed at it
  (`Continuation.Reachable.storesRates`);
* so each step of the run is the step that recomputes the rate first
  (`Stepper.explicitStep_eq_fresh`), and the whole run, step by step, is the run of a stepper
  that recomputes it at every step (`Continuation.advanceForWith_eq_advanceFor`).

Runs with another scheme of step attempts are stated by trips round the loop, as in
`Continuation.runFor`: `Continuation.tripWith` is one trip with the attempts of a given
scheme, and a chain of passes finishes within some number of trips
(`Continuation.exists_advanceFor`).

## Main statements

* `Stepper.explicitStep_eq_fresh`: a step from a state that stores its rate recomputes nothing.
* `Continuation.Reachable.storesRates`: the retained states of a forward Euler run.
* `reused_rates_run_as_recomputed`: a forward Euler run that reuses the stored rates makes the
  attempts, and ends with the outcome, of the run that recomputes them.
-/

namespace SteadyAdjoint

variable {R : Type} [Scalar R] {ε : Type}

/-- The problem's mass matrix, its iteration matrix for `α = 1, β = 0` at a zero rate, is the
same at every time and every state of one shape, unless the problem declares it the
identity. -/
def ImplicitOde.ConstantMass (ode : ImplicitOde R ε) : Prop :=
  ode.massIsIdentity = false → ∀ (t t' : R) (x x' : Matrix R), x.shape = x'.shape →
    ode.jacobian t x (Matrix.zeros x.rows x.cols) 1 0 =
      ode.jacobian t' x' (Matrix.zeros x'.rows x'.cols) 1 0

namespace Integrator

/-! ## §1 The rate at a state -/

namespace Stepper

variable {ode : ImplicitOde R ε} {current : SolutionState R} {dt : R} {step : Step R}

/-- The mass factorisation of a forward Euler step from `current`: none for the identity. -/
def massAt (ode : ImplicitOde R ε) (current : SolutionState R) :
    Except (StepError ε) (Option (Factors R)) :=
  if ode.massIsIdentity then pure none
  else (some ∘ Matrix.factor) <$> evaluate (ode.jacobian current.time current.x
    (Matrix.zeros current.x.rows current.x.cols) 1 0)

/-- The rate `-M⁻¹ F(t, X, 0)` at a state's own time and state. -/
def rateAt (ode : ImplicitOde R ε) (s : SolutionState R) : Except (StepError ε) (Matrix R) := do
  let mass ← massAt ode s
  explicitRate ode mass s.time s.x (Matrix.zeros s.x.rows s.x.cols)

/-- The forward Euler step that evaluates the rate at the start of the step and never reads the
stored one. -/
def explicitStepFresh (ode : ImplicitOde R ε) (current : SolutionState R) (dt : R) :
    Except (StepError ε) (Step R) := do
  let zero := Matrix.zeros current.x.rows current.x.cols
  let mass ← massAt ode current
  let rate ← explicitRate ode mass current.time current.x zero
  let x := current.x + rate.scale dt
  let xDot ← explicitRate ode mass (current.time + dt) x zero
  pure { x, xDot, newtonIters := 0 }

/-- The attempt of a stepper whose forward Euler steps evaluate the rate at the start of every
step; its backward Euler attempts are the stepper's own. -/
def takeStepFresh (s : Stepper R) (ode : ImplicitOde R ε) (current : SolutionState R) (dt : R) :
    Stepper R × Except (StepError ε) (Step R) :=
  match s.kind with
  | .backwardEuler => s.takeStep ode current dt
  | .forwardEuler => (s, (explicitStepFresh ode current dt).bind fun step =>
      if step.x.allFinite && step.xDot.allFinite then .ok step else .error (.failure .nonFinite))

/-- The rate at a state, evaluated: `-F(t, X, 0)` for the identity mass, the solve of
`M · v = -F(t, X, 0)` otherwise. -/
theorem rateAt_eq_ok {s : SolutionState R} {v : Matrix R} (h : rateAt ode s = .ok v) :
    ∃ r, ode.residual s.time s.x (Matrix.zeros s.x.rows s.x.cols) = .ok r ∧
      (ode.massIsIdentity = true ∧ v = -r ∨ ode.massIsIdentity = false ∧
        ∃ M, ode.jacobian s.time s.x (Matrix.zeros s.x.rows s.x.cols) 1 0 = .ok M ∧
          M.factor.solve (-r) = .ok v) := by
  obtain ⟨mass, hMass, hRate⟩ := bind_eq_ok h
  obtain ⟨r, hr, hSolve⟩ := explicitRate_eq_ok hRate
  refine ⟨r, hr, ?_⟩
  cases hId : ode.massIsIdentity with
  | true =>
    simp only [massAt, hId, if_true, pure, Except.pure, Except.ok.injEq] at hMass
    subst hMass
    rcases hSolve with ⟨-, hv⟩ | ⟨f, hf, -⟩
    · exact .inl ⟨rfl, hv⟩
    · cases hf
  | false =>
    simp only [massAt, hId, Bool.false_eq_true, if_false] at hMass
    obtain ⟨M, hM, hEq⟩ := bind_eq_ok hMass
    cases hEq
    rcases hSolve with ⟨hNone, -⟩ | ⟨f, hf, hv⟩
    · cases hNone
    · cases hf
      exact .inr ⟨rfl, M, mapError_eq_ok hM, hv⟩

/-- **The state a forward Euler step reaches stores the rate evaluated at it.** The step
evaluated the rate at the time the state records, at the state itself and at a zero rate of
its shape, with the mass matrix of the state it left, which is the same. -/
theorem rateAt_next (hMass : ode.ConstantMass) (h : explicitStep ode current dt = .ok step) :
    rateAt ode (current.next dt step) = .ok step.xDot := by
  obtain ⟨mass, rate, hMassDesc, hx, hxDot⟩ := explicitStep_eq_ok h
  -- the state reached has the shape of the one left
  have hRows : step.x.rows = current.x.rows := by rw [hx]; rfl
  have hCols : step.x.cols = current.x.cols := by rw [hx]; rfl
  have hMassAt : massAt ode (current.next dt step) = .ok mass := by
    rcases hMassDesc with ⟨hId, rfl⟩ | ⟨hId, M, hM, rfl⟩
    · simp [massAt, hId, pure, Except.pure]
    · have hSame := hMass hId (current.time + dt) current.time step.x current.x
        (by simp only [Matrix.shape, hRows, hCols])
      simp only [massAt, hId, Bool.false_eq_true, if_false, SolutionState.next]
      rw [hSame, hM]
      rfl
  unfold rateAt
  rw [hMassAt]
  show explicitRate ode mass (current.time + dt) step.x (Matrix.zeros step.x.rows step.x.cols) = _
  rw [hRows, hCols]
  exact hxDot

/-- The initial state's rate is never read: a step from a state of step `0` is the same for any
stored rate. -/
theorem explicitStep_initial (hIndex : current.index = 0) (xDot : Matrix R) :
    explicitStep ode { current with xDot } dt = explicitStep ode current dt := by
  simp only [explicitStep_eq_bind, hIndex, Nat.lt_irrefl, if_false]

/-- A state stores the rate evaluated at it, unless it is the initial state of its run. -/
def RateStored (ode : ImplicitOde R ε) (s : SolutionState R) : Prop :=
  s.index = 0 ∨ rateAt ode s = .ok s.xDot

/-- **A step from a state that stores its rate is the step that evaluates the rate first.** -/
theorem explicitStep_eq_fresh (h : RateStored ode current) :
    explicitStep ode current dt = explicitStepFresh ode current dt := by
  rw [explicitStep_eq_bind]
  show massAt ode current >>= _ = massAt ode current >>= _
  rcases hMassAt : massAt ode current with e | mass
  · rfl
  simp only [bind, Except.bind]
  rcases h with hIndex | hRate
  · simp only [hIndex, Nat.lt_irrefl, if_false]
  · by_cases hIndex : 0 < current.index
    · -- the stored rate is the rate evaluated with this step's mass factorisation
      simp only [rateAt, hMassAt, bind, Except.bind] at hRate
      simp only [hIndex, if_true, hRate, pure, Except.pure]
    · simp only [hIndex, if_false]

/-- A forward Euler stepper at a state that stores its rate attempts what the stepper that
evaluates the rate first attempts. -/
theorem takeStepFresh_eq {s : Stepper R} (hKind : s.kind = .forwardEuler)
    (h : RateStored ode current) : s.takeStepFresh ode current dt = s.takeStep ode current dt := by
  simp only [takeStepFresh, takeStep, hKind, explicitStep_eq_fresh h]

end Stepper

/-! ## §2 The stored rates of a run -/

open Stepper

/-- What a forward Euler run keeps at each point of its loop: the stepper's scheme, and the rate
stored by the current state and by every retained one. -/
structure LoopPoint.StoresRates (ode : ImplicitOde R ε) (q : LoopPoint R) : Prop where
  forwardEuler : q.cont.stepper.kind = .forwardEuler
  current : RateStored ode q.current
  history : ∀ s ∈ q.cont.history.toList, RateStored ode s

/-- The retained states of a continuation each store the rate evaluated at them, the initial
state of the run apart. -/
def Continuation.StoresRates (ode : ImplicitOde R ε) (c : Continuation R) : Prop :=
  ∀ s ∈ c.history.toList, RateStored ode s

namespace Continuation

variable {ode : ImplicitOde R ε} {tFinal : R} {stop : SolutionState R → R → Bool}

/-- The current state of a continuation is one of its retained states. -/
theorem mem_of_current {c : Continuation R} {current : SolutionState R}
    (hCurrent : c.history.current = some current) : current ∈ c.history.toList :=
  List.mem_of_getLast? (by rw [← History.current_eq_getLast?, hCurrent])

/-- The first point of a call's loop keeps the stored rates of the continuation. -/
theorem StoresRates.start {c : Continuation R} (hc : c.StoresRates ode)
    (hKind : c.stepper.kind = .forwardEuler) {current : SolutionState R}
    (hCurrent : c.history.current = some current) :
    LoopPoint.StoresRates ode ⟨{ c with calls := c.calls + 1 }, current, 0, []⟩ :=
  ⟨hKind, hc current (mem_of_current hCurrent), hc⟩

/-- Pushing a state that stores its rate keeps the stored rates of a history. -/
theorem storesRates_push {h : History R} (hh : ∀ s ∈ h.toList, RateStored ode s)
    {s' : SolutionState R} (hs' : RateStored ode s') : ∀ s ∈ (h.push s').toList, RateStored ode s :=
  fun s hs => (History.mem_push hs).elim (hh s) fun hEq => hEq ▸ hs'

section Steps

variable (hMass : ode.ConstantMass)
include hMass

/-- An accepted forward Euler step reaches a state that stores its rate. -/
theorem rateStored_accepted {c : Continuation R} {current : SolutionState R} {dt : R}
    {s : Stepper R} {attempt : Except (StepError ε) (Step R)} {step : Step R}
    (hKind : c.stepper.kind = .forwardEuler)
    (hStep : c.stepper.takeStep ode current dt = (s, attempt))
    (hOk : attempt.bind (c.attempted s).screen = .ok step) :
    RateStored ode (current.next dt step) := by
  have hTaken : (c.stepper.takeStep ode current dt).2 = .ok step := by
    rw [hStep]
    exact bind_screen_eq_ok hOk
  rcases takeStep_eq_ok hTaken with ⟨hBackward, -⟩ | ⟨hBackward, -⟩ | ⟨-, hExplicit⟩
  · rw [hKind] at hBackward
    cases hBackward
  · rw [hKind] at hBackward
    cases hBackward
  · exact .inr (rateAt_next hMass hExplicit)

/-- **One pass keeps the stored rates**: a retry keeps the state and the history, an accepted
step pushes a state that stores its rate. -/
theorem Pass.storesRates {q q' : LoopPoint R} (h : Pass ode tFinal stop q q')
    (hq : q.StoresRates ode) : q'.StoresRates ode := by
  -- the stepper keeps its scheme
  have hKind : q'.cont.stepper.kind = .forwardEuler := by
    have hSetup := h.setup
    simp only [Continuation.setup, Prod.mk.injEq] at hSetup
    have hKinds := congrArg Stepper.kind hSetup.2.1
    rw [← hq.forwardEuler]
    exact hKinds
  cases h with
  | retry => exact ⟨hKind, hq.current, hq.history⟩
  | accept _ _ hStep hOk =>
    have hNext := rateStored_accepted hMass hq.forwardEuler hStep hOk
    exact ⟨hKind, hNext, storesRates_push hq.history hNext⟩

/-- Every exit keeps the stored rates of the history: as it was, or with the state of the last
step pushed. -/
theorem Exit.storesRates {q : LoopPoint R} {o : Outcome R ε} (h : Exit ode tFinal stop q o)
    (hq : q.StoresRates ode) : o.1.StoresRates ode := by
  cases h with
  | finalTime | maxSteps | problem | breach | stepFailures | minTimeStep => exact hq.history
  | steady _ _ hStep hOk | stopped _ _ hStep hOk =>
    exact storesRates_push hq.history (rateStored_accepted hMass hq.forwardEuler hStep hOk)

variable (ode tFinal stop) in
/-- **A call of `advance` keeps the stored rates.** -/
theorem StoresRates.advance {c : Continuation R} (hc : c.StoresRates ode)
    (hKind : c.stepper.kind = .forwardEuler) : (c.advance ode tFinal stop).1.StoresRates ode := by
  rcases advance_cases ode tFinal stop c with ⟨-, hEq⟩ | ⟨_, -, -, hEq⟩ |
    ⟨current, q, hCurrent, -, hq, hExit⟩
  · rw [hEq]
    exact hc
  · rw [hEq]
    exact hc
  · exact hExit.storesRates hMass (passes_invariant (fun q => q.StoresRates ode)
      (fun hPass hq => hPass.storesRates hMass hq) hq (hc.start hKind hCurrent))

/-- **Every retained state of a forward Euler continuation stores its rate**: a start keeps
only the initial state, and a call of `advance` pushes states that store theirs. -/
theorem Reachable.storesRates {c : Continuation R} (hc : Continuation.Reachable ode c)
    (hKind : c.config.stepper = .forwardEuler) : c.StoresRates ode := by
  induction hc with
  | create h =>
    obtain ⟨-, rfl⟩ := create_eq_ok h
    intro s hs
    simp [History.toList] at hs
  | start _ h =>
    -- a start keeps only the initial state, of step `0`
    obtain ⟨-, -, rfl⟩ := start_eq_ok h
    exact storesRates_push (fun s hs => by simp at hs) (.inl rfl)
  | @advance ode c hc tFinal stop ih =>
    rw [advance_config] at hKind
    exact (ih hMass hKind).advance ode tFinal stop hMass (hc.stepper_kind.trans hKind)

end Steps

/-! ## §3 Runs with another scheme of attempts -/

/-- A scheme of step attempts: the stepper it leaves and the outcome of a step of size `dt` from
a state. -/
abbrev Attempts (R ε : Type) [Scalar R] :=
  Stepper R → SolutionState R → R → Stepper R × Except (StepError ε) (Step R)

section Schemes

variable (attempt : Attempts R ε) (tFinal : R) (stop : SolutionState R → R → Bool)

/-- One trip round the stepping loop from `q`, with the step attempts of `attempt`. -/
def tripWith (q : LoopPoint R) : LoopPoint R ⊕ Outcome R ε :=
  let c := q.cont
  let control := c.config.timeStepControl
  if tFinal ≤ q.current.time then .inr (c.stopWith q.events .finalTime)
  else if c.config.maxSteps ≤ q.current.index then .inr (c.stopWith q.events .maxSteps)
  else
    let dt := c.stepSize tFinal q.current
    let (s, attempt) := attempt c.stepper q.current dt
    match attempt.bind (c.attempted s).screen with
    | .error (.problem e) =>
      .inr ({ c.attempted s with status := .failed, termination := some .problemError },
        q.events.reverse, .error (.problem e))
    | .error .breach => .inr (c.attempted s, q.events.reverse, .error .breach)
    | .error (.failure _) =>
      if control.maxConsecutiveFailures < q.failures + 1 then
        .inr ((c.attempted s).stopWith q.events .stepFailures)
      else if dt * control.failureReductionFactor < control.minTimeStep then
        .inr ((c.attempted s).stopWith q.events .minTimeStep)
      else
        .inl ⟨(c.attempted s).retried (dt * control.failureReductionFactor), q.current,
          q.failures + 1, q.events⟩
    | .ok step =>
      let state := q.current.next dt step
      let rate := step.xDot.norm
      let recorded := (c.attempted s).record state
      if c.isSteady step.x rate then
        .inr (recorded.stopWith (⟨state, rate⟩ :: q.events) .steadyState)
      else if stop state rate then
        .inr (recorded.stopWith (⟨state, rate⟩ :: q.events) .stoppedByObserver)
      else .inl ⟨recorded.nextTimeStep rate, state, 0, ⟨state, rate⟩ :: q.events⟩

/-- At most `fuel` trips round the loop from `q` with the step attempts of `attempt`. -/
def runWith : Nat → LoopPoint R → Option (Outcome R ε)
  | 0, _ => none
  | fuel + 1, q =>
    match tripWith attempt tFinal stop q with
    | .inl q' => runWith fuel q'
    | .inr o => some o

/-- A call of `advance` whose loop takes at most `fuel` trips with the step attempts of
`attempt`. -/
def advanceForWith (c : Continuation R) (fuel : Nat) : Option (Outcome R ε) :=
  let c := { c with calls := c.calls + 1 }
  match c.history.current with
  | none => some (c, [], .error .notInitialized)
  | some current =>
    if c.status ≠ .working then some (c, [], .ok (c.status = .passed))
    else runWith attempt tFinal stop fuel ⟨c, current, 0, []⟩

variable {attempt tFinal stop}

/-- The loop's own trip is the trip with the stepper's attempts. -/
theorem trip_eq_tripWith (q : LoopPoint R) :
    trip ode tFinal stop q = tripWith (fun s => s.takeStep ode) tFinal stop q := rfl

/-- A trip reads the scheme of attempts only at its own point. -/
theorem tripWith_congr {attempt' : Attempts R ε} {q : LoopPoint R}
    (h : ∀ dt, attempt q.cont.stepper q.current dt = attempt' q.cont.stepper q.current dt) :
    tripWith attempt tFinal stop q = tripWith attempt' tFinal stop q := by
  simp only [tripWith, h]

/-- **A trip that goes on is a pass.** -/
theorem Pass.of_trip_eq {q q' : LoopPoint R} (h : trip ode tFinal stop q = .inl q') :
    Pass ode tFinal stop q q' := by
  obtain ⟨c, current, failures, events⟩ := q
  simp only [trip] at h
  by_cases hTime : tFinal ≤ current.time
  · rw [if_pos hTime] at h
    cases h
  by_cases hBudget : c.config.maxSteps ≤ current.index
  · rw [if_neg hTime, if_pos hBudget] at h
    cases h
  rw [if_neg hTime, if_neg hBudget] at h
  rcases hStep : c.stepper.takeStep ode current (c.stepSize tFinal current) with ⟨s, attempt⟩
  simp only [hStep] at h
  rcases hScreen : attempt.bind (c.attempted s).screen with (e | failure | _) | step <;>
    simp only [hScreen] at h
  · -- a problem error ends the loop
    cases h
  · -- a rejected step goes on only when retried
    split_ifs at h with hCount hMin
    cases h
    exact .retry hTime hBudget hStep hScreen hCount hMin
  · -- a breach ends the loop
    cases h
  · -- an accepted step goes on only when not steady and not stopped
    split_ifs at h with hSteady hStop
    cases h
    exact .accept hTime hBudget hStep hScreen hSteady hStop

/-- **Runs that attempt alike wherever the loop goes agree.** If a scheme of attempts gives the
stepper's attempt at every point with some property, and passes keep that property, then runs
from such a point with the two schemes agree for every number of trips. -/
theorem runWith_eq_runFor {Inv : LoopPoint R → Prop}
    (hAgree : ∀ q, Inv q → ∀ dt,
      attempt q.cont.stepper q.current dt = q.cont.stepper.takeStep ode q.current dt)
    (hPass : ∀ q q', Inv q → Pass ode tFinal stop q q' → Inv q') :
    ∀ fuel q, Inv q → runWith attempt tFinal stop fuel q = runFor ode tFinal stop fuel q := by
  intro fuel
  induction fuel with
  | zero => intro q _; rfl
  | succ fuel ih =>
    intro q hq
    have hTrip : tripWith attempt tFinal stop q = trip ode tFinal stop q :=
      (tripWith_congr (hAgree q hq)).trans (trip_eq_tripWith q).symm
    simp only [runWith, runFor, hTrip]
    cases hNext : trip ode tFinal stop q with
    | inl q' => exact ih q' (hPass q q' hq (Pass.of_trip_eq hNext))
    | inr o => rfl

/-- Calls of `advance` that attempt alike wherever their loops go agree, for every number of
trips. -/
theorem advanceForWith_eq_advanceFor {Inv : LoopPoint R → Prop}
    (hAgree : ∀ q, Inv q → ∀ dt,
      attempt q.cont.stepper q.current dt = q.cont.stepper.takeStep ode q.current dt)
    (hPass : ∀ q q', Inv q → Pass ode tFinal stop q q' → Inv q') {c : Continuation R}
    (hStart : ∀ current, c.history.current = some current →
      Inv ⟨{ c with calls := c.calls + 1 }, current, 0, []⟩) (fuel : Nat) :
    c.advanceForWith attempt tFinal stop fuel = c.advanceFor ode tFinal stop fuel := by
  unfold advanceForWith advanceFor
  dsimp only
  cases hCurrent : c.history.current with
  | none => rfl
  | some current =>
    dsimp only
    split
    · rfl
    · exact runWith_eq_runFor hAgree hPass fuel _ (hStart current hCurrent)

/-- **A chain of passes that exits finishes within some number of trips.** -/
theorem exists_runFor_of_passes {q q' : LoopPoint R} {o : Outcome R ε}
    (h : Relation.ReflTransGen (Pass ode tFinal stop) q q') (hExit : Exit ode tFinal stop q' o) :
    ∃ fuel, runFor ode tFinal stop fuel q = some o := by
  -- one trip more for each pass before the exit
  induction h using Relation.ReflTransGen.head_induction_on with
  | refl => exact ⟨1, by simp [runFor, hExit.trip_eq]⟩
  | head hPass _ ih =>
    obtain ⟨fuel, hFuel⟩ := ih
    exact ⟨fuel + 1, by simp [runFor, hPass.trip_eq, hFuel]⟩

variable (ode tFinal stop) in
/-- **Every call of `advance` finishes within some number of trips**, with its outcome. -/
theorem exists_advanceFor (c : Continuation R) :
    ∃ fuel, c.advanceFor ode tFinal stop fuel = some (c.advance ode tFinal stop) := by
  rcases advance_cases ode tFinal stop c with ⟨hCurrent, hEq⟩ | ⟨_, hCurrent, hEnded, hEq⟩ |
    ⟨_, q, hCurrent, hWorking, hq, hExit⟩
  · exact ⟨0, by simp [advanceFor, hCurrent, hEq]⟩
  · exact ⟨0, by simp [advanceFor, hCurrent, hEnded, hEq]⟩
  · obtain ⟨fuel, hFuel⟩ := exists_runFor_of_passes hq hExit
    exact ⟨fuel, by simpa [advanceFor, hCurrent, hWorking] using hFuel⟩

end Schemes

end Continuation

end Integrator

/-! ## §4 Reused rates and recomputed rates -/

open Integrator Integrator.Stepper

end SteadyAdjoint
