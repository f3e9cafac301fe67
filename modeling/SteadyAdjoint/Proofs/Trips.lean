import SteadyAdjoint.Proofs.Passes

/-!
# Runs of the stepping loop that compute

`Continuation.loop` recurses on a well-founded measure, the steps and failures left, so the
kernel does not unfold it and no run at a concrete input can be decided by evaluation. This
module states one trip round the loop as a plain function, `Continuation.trip`: it gives the
point the loop goes on from, or the outcome it ends with. The loop is that trip repeated
(`loop_eq_trip`). A run by trips with a bound on their number, `Continuation.runFor`, recurses
on the bound and so computes; where it finishes within the bound it gives the loop's outcome
(`loop_eq_of_runFor`), and `advanceFor` does the same for a whole call of `advance`. Over
numbers that do not compute, such as the reals, a call that settles at its first step is read
off that step instead (`advance_of_steady_step`).

## Main statements

* `Continuation.loop_eq_trip`: the loop unfolds by one trip.
* `Continuation.Pass.loop_eq`, `Continuation.Exit.loop_eq`: the loop goes on past a pass, and
  ends at an exit with its outcome.
* `Continuation.advance_eq_of_advanceFor`: a bounded run that finishes computes `advance`.
* `Continuation.advance_of_steady_step`: a call whose first step is steady passes there.
* `Continuation.exists_started_run`: a run from a created continuation, read off one
  evaluation.
-/

namespace SteadyAdjoint.Integrator

variable {R : Type} [Scalar R] {ε : Type}

namespace Continuation

variable (ode : ImplicitOde R ε) (tFinal : R) (stop : SolutionState R → R → Bool)

/-! ## §1 One trip -/

/-- One trip round the stepping loop from `q`: the point the loop goes on from, or the outcome
it ends with. -/
def trip (q : LoopPoint R) : LoopPoint R ⊕ Outcome R ε :=
  let c := q.cont
  let control := c.config.timeStepControl
  if tFinal ≤ q.current.time then .inr (c.stopWith q.events .finalTime)
  else if c.config.maxSteps ≤ q.current.index then .inr (c.stopWith q.events .maxSteps)
  else
    let dt := c.stepSize tFinal q.current
    let (s, attempt) := c.stepper.takeStep ode q.current dt
    match attempt.bind (c.attempted s).screen with
    | .error (.problem e) =>
      .inr ({ c.attempted s with status := .failed, termination := some .problemError },
        q.events.reverse, .error (.problem e))
    | .error .breach => .inr (c.attempted s, q.events.reverse, .error .breach)
    | .error (.failure _) =>
      if control.maxConsecutiveFailures < q.failures + 1 then
        .inr ((c.attempted s).stopWith q.events .stepFailures)
      else if dt * control.failureReductionFactor < control.minTimeStep then
        .inr ((c.attempted s).stopWith q.events .minTimeStep)
      else
        .inl ⟨(c.attempted s).retried (dt * control.failureReductionFactor), q.current,
          q.failures + 1, q.events⟩
    | .ok step =>
      let state := q.current.next dt step
      let rate := step.xDot.norm
      let recorded := (c.attempted s).record state
      if c.isSteady step.x rate then
        .inr (recorded.stopWith (⟨state, rate⟩ :: q.events) .steadyState)
      else if stop state rate then
        .inr (recorded.stopWith (⟨state, rate⟩ :: q.events) .stoppedByObserver)
      else .inl ⟨recorded.nextTimeStep rate, state, 0, ⟨state, rate⟩ :: q.events⟩

/-- **The loop is its trip repeated**: from any point it ends where the trip ends, or goes on
from the point the trip reaches. -/
theorem loop_eq_trip (q : LoopPoint R) :
    loop ode tFinal stop q.cont q.current q.failures q.events =
      match trip ode tFinal stop q with
      | .inl q' => loop ode tFinal stop q'.cont q'.current q'.failures q'.events
      | .inr o => o := by
  obtain ⟨c, current, failures, events⟩ := q
  rw [loop]
  by_cases hTime : tFinal ≤ current.time
  · simp [trip, hTime]
  by_cases hBudget : c.config.maxSteps ≤ current.index
  · simp [trip, hTime, hBudget]
  rcases hStep : c.stepper.takeStep ode current (c.stepSize tFinal current) with ⟨s, attempt⟩
  simp only [stepSize] at hStep
  simp only [trip, stepSize, hTime, hBudget, hStep, attempted, if_false, dite_false]
  -- a problem error and a breach end the loop alike on both sides
  rcases hScreen : attempt.bind (c.attempted s).screen with (e | failure | _) | step <;>
    simp only [attempted] at hScreen <;> simp only [hScreen]
  · -- a rejected step ends the run, or is retried with the reduced step size
    split_ifs <;> rfl
  · -- an accepted step; the steady-state test reads the settings only
    simp only [isSteady, decide_eq_true_eq, SolutionState.next, record]
    by_cases hSteady : step.xDot.norm ≤
      c.config.steadyState.absTol + c.config.steadyState.relTol * step.x.norm
    · simp only [hSteady, if_true]
    by_cases hStop : stop (current.next (c.stepSize tFinal current) step) step.xDot.norm = true
    · simp only [stepSize, SolutionState.next] at hStop
      simp only [hSteady, hStop, if_true, if_false]
    · simp only [stepSize, SolutionState.next] at hStop
      simp only [hSteady, hStop, Bool.false_eq_true, if_false]

variable {ode tFinal stop}

/-- A pass is a trip that goes on. -/
theorem Pass.trip_eq {q q' : LoopPoint R} (h : Pass ode tFinal stop q q') :
    trip ode tFinal stop q = .inl q' := by
  cases h with
  | retry hTime hBudget hStep hFail hCount hMin =>
    simp [trip, hTime, hBudget, hStep, hFail, hCount, hMin]
  | accept hTime hBudget hStep hOk hSteady hGo =>
    simp [trip, hTime, hBudget, hStep, hOk, hSteady, hGo]

/-- An exit is a trip that ends the loop with the exit's outcome. -/
theorem Exit.trip_eq {q : LoopPoint R} {o : Outcome R ε} (h : Exit ode tFinal stop q o) :
    trip ode tFinal stop q = .inr o := by
  cases h with
  | finalTime hTime => simp [trip, hTime]
  | maxSteps hTime hBudget => simp [trip, hTime, hBudget]
  | problem hTime hBudget hStep hErr => simp [trip, hTime, hBudget, hStep, hErr]
  | breach hTime hBudget hStep hErr => simp [trip, hTime, hBudget, hStep, hErr]
  | stepFailures hTime hBudget hStep hFail hCount =>
    simp [trip, hTime, hBudget, hStep, hFail, hCount]
  | minTimeStep hTime hBudget hStep hFail hCount hMin =>
    simp [trip, hTime, hBudget, hStep, hFail, hCount, hMin]
  | steady hTime hBudget hStep hOk hSteady => simp [trip, hTime, hBudget, hStep, hOk, hSteady]
  | stopped hTime hBudget hStep hOk hSteady hStop =>
    simp [trip, hTime, hBudget, hStep, hOk, hSteady, hStop]

/-- **The loop goes on past a pass.** -/
theorem Pass.loop_eq {q q' : LoopPoint R} (h : Pass ode tFinal stop q q') :
    loop ode tFinal stop q.cont q.current q.failures q.events =
      loop ode tFinal stop q'.cont q'.current q'.failures q'.events := by
  rw [loop_eq_trip, h.trip_eq]

/-- **The loop ends at an exit with its outcome.** -/
theorem Exit.loop_eq {q : LoopPoint R} {o : Outcome R ε} (h : Exit ode tFinal stop q o) :
    loop ode tFinal stop q.cont q.current q.failures q.events = o := by
  rw [loop_eq_trip, h.trip_eq]

/-- The loop goes on past a chain of passes. -/
theorem passes_loop_eq {q q' : LoopPoint R}
    (h : Relation.ReflTransGen (Pass ode tFinal stop) q q') :
    loop ode tFinal stop q.cont q.current q.failures q.events =
      loop ode tFinal stop q'.cont q'.current q'.failures q'.events :=
  passes_invariant
    (fun q' => loop ode tFinal stop q.cont q.current q.failures q.events =
      loop ode tFinal stop q'.cont q'.current q'.failures q'.events)
    (fun hPass hq => hq.trans hPass.loop_eq) h rfl

/-! ## §2 Runs with a bound on their trips -/

variable (ode tFinal stop)

/-- At most `fuel` trips round the loop from `q`: the outcome, or `none` when the trips run out
first. -/
def runFor : Nat → LoopPoint R → Option (Outcome R ε)
  | 0, _ => none
  | fuel + 1, q =>
    match trip ode tFinal stop q with
    | .inl q' => runFor fuel q'
    | .inr o => some o

/-- A call of `advance` whose loop takes at most `fuel` trips: the outcome, or `none` when the
trips run out first. -/
def advanceFor (c : Continuation R) (fuel : Nat) : Option (Outcome R ε) :=
  let c := { c with calls := c.calls + 1 }
  match c.history.current with
  | none => some (c, [], .error .notInitialized)
  | some current =>
    if c.status ≠ .working then some (c, [], .ok (c.status = .passed))
    else runFor ode tFinal stop fuel ⟨c, current, 0, []⟩

variable {ode tFinal stop}

/-- **A bounded run that finishes gives the loop's outcome.** -/
theorem loop_eq_of_runFor {fuel : Nat} {q : LoopPoint R} {o : Outcome R ε}
    (h : runFor ode tFinal stop fuel q = some o) :
    loop ode tFinal stop q.cont q.current q.failures q.events = o := by
  -- one trip per unit of fuel, as the loop unfolds by one trip
  induction fuel generalizing q with
  | zero => simp [runFor] at h
  | succ fuel ih =>
    rw [loop_eq_trip]
    simp only [runFor] at h
    cases hTrip : trip ode tFinal stop q with
    | inl q' =>
      rw [hTrip] at h
      exact ih h
    | inr o' =>
      rw [hTrip] at h
      exact Option.some.inj h

/-- **A bounded call that finishes computes `advance`.** -/
theorem advance_eq_of_advanceFor {c : Continuation R} {fuel : Nat} {o : Outcome R ε}
    (h : c.advanceFor ode tFinal stop fuel = some o) : c.advance ode tFinal stop = o := by
  unfold advanceFor at h
  cases hCurrent : c.history.current with
  | none =>
    simp only [hCurrent] at h
    rw [advance_of_empty hCurrent, Option.some.inj h]
  | some current =>
    simp only [hCurrent] at h
    by_cases hWorking : c.status = .working
    · rw [if_neg (fun hEnded => hEnded hWorking)] at h
      rw [advance_of_working hCurrent hWorking]
      exact loop_eq_of_runFor h
    · rw [if_pos hWorking] at h
      rw [advance_of_ended hCurrent hWorking, Option.some.inj h]

/-! ## §3 A call that settles at its first step -/

/-- With no rate recorded before, the screen passes every step. -/
theorem screen_of_prevRate_none {c : Continuation R} (h : c.prevRate = none) (step : Step R) :
    (Except.ok step : Except (StepError ε) (Step R)).bind c.screen = .ok step := by
  simp [Except.bind, screen, h]

/-- **A call whose first step is accepted and steady passes there**, with that step as its one
event. -/
theorem advance_of_steady_step {c : Continuation R} {current : SolutionState R}
    (hCurrent : c.history.current = some current) (hWorking : c.status = .working)
    (hTime : ¬ tFinal ≤ current.time) (hBudget : ¬ c.config.maxSteps ≤ current.index)
    {s : Stepper R} {step : Step R}
    (hStep : c.stepper.takeStep ode current (c.stepSize tFinal current) = (s, .ok step))
    (hPrevious : c.prevRate = none) (hSteady : c.isSteady step.x step.xDot.norm = true) :
    c.advance ode tFinal stop =
      ((({ c with calls := c.calls + 1 }.attempted s).record
        (current.next (c.stepSize tFinal current) step)).stopWith
        [⟨current.next (c.stepSize tFinal current) step, step.xDot.norm⟩] .steadyState) := by
  rw [advance_of_working hCurrent hWorking]
  have hScreen := screen_of_prevRate_none (ε := ε)
    (c := { c with calls := c.calls + 1 }.attempted s) hPrevious step
  have hExit : Exit ode tFinal stop ⟨{ c with calls := c.calls + 1 }, current, 0, []⟩ _ :=
    .steady hTime hBudget hStep hScreen hSteady
  exact hExit.loop_eq

/-! ## §4 Runs from a created continuation -/

/-- **A created continuation, started and advanced by a bounded run that finishes**: the run is
given as one evaluation, which also checks `check` of the started continuation and of the
outcome of its call of `advance`. -/
theorem exists_started_run (config : Config R) (dims : Nat × Nat) (t0 : R) (x0 : Matrix R)
    (xDot0 xDotDot0 : Option (Matrix R)) (ode : ImplicitOde R ε) (tFinal : R)
    (stop : SolutionState R → R → Bool) (fuel : Nat) (check : Continuation R → Outcome R ε → Bool)
    (h : ((create config).toOption.bind fun created =>
      (created.start (ε := ε) dims t0 x0 xDot0 xDotDot0).toOption.bind fun c =>
        (c.advanceFor ode tFinal stop fuel).map (check c)) = some true) :
    ∃ created c, create config = .ok created ∧
      created.start (ε := ε) dims t0 x0 xDot0 xDotDot0 = .ok c ∧
      check c (c.advance ode tFinal stop) = true := by
  rcases hCreate : create config with e | created
  · simp [hCreate, Except.toOption] at h
  rcases hStart : created.start (ε := ε) dims t0 x0 xDot0 xDotDot0 with e | c
  · simp [hCreate, hStart, Except.toOption] at h
  simp only [hCreate, hStart, Except.toOption, Option.bind_some, Option.map_eq_some_iff] at h
  obtain ⟨o, hRun, hCheck⟩ := h
  exact ⟨created, c, rfl, hStart, by rw [advance_eq_of_advanceFor hRun]; exact hCheck⟩

end Continuation

end SteadyAdjoint.Integrator
