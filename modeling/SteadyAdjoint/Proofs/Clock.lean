import SteadyAdjoint.Proofs.Rounding
import SteadyAdjoint.Proofs.Overflow
import SteadyAdjoint.Proofs.Validation

/-!
# The clock of a run in binary64

A call of `advance` steps from the current time towards a final time `tFinal`. Each step has
the size `min dt (tFinal - t)`, the proposed step size cut at the final time, and the state it
reaches has the time `t + dt`. In exact arithmetic the times would rise strictly and the last
one would land on `tFinal`. In binary64 neither holds: `t + dt` rounds back to `t` when `dt` is
below half a unit in the last place of `t`, and `t + (tFinal - t)` can round past `tFinal`.

What holds is that the clock never goes back, and that a step is taken only from a time before
the final time: the times of a call never decrease, and every state of the call but the last
lies before `tFinal`, so that only the last can reach or pass it. The argument is one step
lemma and its run. Before the final time the step size is positive: the difference up to the
final time is, and a reachable continuation proposes a step size that is positive or NaN.
Adding a positive double never lowers a time above `-∞` (`Double.le_add_of_pos`).

## Main statements

* `Continuation.Reachable.stepSizeInvariant`: a reachable continuation has validated settings
  and a step size that is positive or NaN, in any number type with the laws of step sizes.
* `Continuation.next_time`: a step in binary64 is taken before the final time and reaches a
  time not below its own.
* `Continuation.advance_times_ordered`: the times of a call never decrease, and all but the
  last lie before the final time.
* `clock_stalls_and_overshoots`: a run whose time stands still, and one whose time passes the
  final time.
-/

namespace SteadyAdjoint.Integrator

/-! ## §1 The step size along runs -/

section StepSize

variable {R : Type} [Scalar R] {ε : Type}

/-- A continuation that can step: validated settings, and a step size that is positive or
NaN. -/
structure StepSizeInvariant (c : Continuation R) : Prop where
  valid : c.config.validate = .ok ()
  dt : Admissible c.dt

namespace StepSizeInvariant

variable (laws : StepLaws R) {ode : ImplicitOde R ε} {tFinal : R}
  {stop : SolutionState R → R → Bool}

include laws in
/-- **One pass keeps the step size admissible**: a retry tries a reduced step size not below
the positive minimum, and an accepted step clamps the next one between the positive bounds. -/
theorem pass {q q' : LoopPoint R} (h : Continuation.Pass ode tFinal stop q q')
    (hq : StepSizeInvariant q.cont) : StepSizeInvariant q'.cont := by
  have hBounds := laws.config_bounds_pos hq.valid
  cases h with
  | retry _ _ _ _ _ hMin => exact ⟨hq.valid, laws.admissible_of_not_lt _ _ hBounds.1 hMin⟩
  | accept => exact ⟨hq.valid, clampTo_admissible laws hBounds.1 hBounds.2.2⟩

/-- An exit keeps the settings and the step size of the last attempt. -/
theorem exit {q : LoopPoint R} {o : Continuation.Outcome R ε}
    (h : Continuation.Exit ode tFinal stop q o) (hq : StepSizeInvariant q.cont) :
    StepSizeInvariant o.1 := by
  cases h <;> exact ⟨hq.valid, hq.dt⟩

include laws in
theorem passes {q q' : LoopPoint R}
    (h : Relation.ReflTransGen (Continuation.Pass ode tFinal stop) q q')
    (hq : StepSizeInvariant q.cont) : StepSizeInvariant q'.cont :=
  Continuation.passes_invariant (fun q => StepSizeInvariant q.cont)
    (fun hPass hq => hq.pass laws hPass) h hq

include laws in
/-- **A call of `advance` keeps the invariant**, along its passes and at its exit. -/
theorem advance {c : Continuation R} (hc : StepSizeInvariant c) :
    StepSizeInvariant (c.advance ode tFinal stop).1 := by
  have hCalls : StepSizeInvariant { c with calls := c.calls + 1 } := ⟨hc.valid, hc.dt⟩
  rcases Continuation.advance_cases ode tFinal stop c with ⟨-, hEq⟩ | ⟨_, -, -, hEq⟩ |
    ⟨_, q, -, -, hq, hExit⟩
  · rw [hEq]
    exact hCalls
  · rw [hEq]
    exact hCalls
  · exact (hCalls.passes laws hq).exit hExit

end StepSizeInvariant

/-- **A reachable continuation can step**: its settings are validated and its step size is
positive or NaN, whatever it was created, started and advanced with. -/
theorem Continuation.Reachable.stepSizeInvariant (laws : StepLaws R) {ode : ImplicitOde R ε}
    {c : Continuation R} (hc : Continuation.Reachable ode c) : StepSizeInvariant c := by
  induction hc with
  | create h =>
    obtain ⟨hValid, rfl⟩ := Continuation.create_eq_ok h
    exact ⟨hValid, .inl (laws.config_bounds_pos hValid).2.1⟩
  | start hc h _ =>
    obtain ⟨-, -, rfl⟩ := Continuation.start_eq_ok h
    exact ⟨hc.valid, .inl (laws.config_bounds_pos hc.valid).2.1⟩
  | advance _ _ _ ih => exact ih.advance laws

/-! ## §2 Trails -/

/-- `s'` may follow `s` in a call towards `tFinal`: `s` lies before the final time, and `s'`
is not earlier than `s`. -/
def SolutionState.Precedes (tFinal : R) (s s' : SolutionState R) : Prop :=
  s.time < tFinal ∧ s.time ≤ s'.time

/-- The states of a run so far, newest first, down to the state it started from. -/
def LoopPoint.trail (q : LoopPoint R) (start : SolutionState R) : List (SolutionState R) :=
  q.events.map (·.state) ++ [start]

/-- A trail in order, read oldest first: the start, then the events in the order reported. -/
theorem chronological_of_trail {tFinal : R} {start : SolutionState R} {events : List (Event R)}
    (h : (events.map (·.state) ++ [start]).IsChain
      fun later earlier => earlier.Precedes tFinal later) :
    (start :: events.reverse.map (·.state)).IsChain (SolutionState.Precedes tFinal) := by
  have hReverse : start :: events.reverse.map (·.state) =
      (events.map (·.state) ++ [start]).reverse := by
    simp
  rw [hReverse, List.isChain_reverse]
  exact h

end StepSize

/-! ## §3 One step in binary64 -/

open Binary64 Double

/-- The smaller of a step size that is positive or NaN and a positive one is positive. -/
theorem fmin_pos {a b : Double} (ha : Admissible a) (hb : 0 < b) : 0 < fmin a b := by
  have hbNaN : Scalar.isNaN b = false := (lt_iff.mp hb).2.1
  unfold fmin
  split
  · exact hb
  rename_i haNaN
  rw [if_neg (by rw [hbNaN]; decide)]
  split
  · exact hb
  · exact ha.resolve_right haNaN

namespace Continuation

/-- **Before the final time the step size is positive**: the difference up to the final time
is positive, and the proposed step size is positive or NaN. -/
theorem stepSize_pos {c : Continuation Double} (hc : Admissible c.dt) {tFinal : Double}
    {current : SolutionState Double} (hFinal : tFinal.isNaN = false)
    (hTime : current.time.isNaN = false) (hBefore : ¬ tFinal ≤ current.time) :
    0 < c.stepSize tFinal current := by
  have hKey : current.time.value.key < tFinal.value.key :=
    (lt_iff.mp ((not_le_iff_lt hFinal hTime).mp hBefore)).2.2
  exact fmin_pos hc (add_neg_pos hTime hFinal hKey)

/-- **A step never takes the clock back.** A step is taken before the final time, and the state
it reaches is not earlier than the one it steps from, and above `-∞` as that one is. -/
theorem next_time {c : Continuation Double} (hc : Admissible c.dt) {tFinal : Double}
    {current : SolutionState Double} (hFinal : tFinal.isNaN = false)
    (hTime : Double.infinity true < current.time) (hBefore : ¬ tFinal ≤ current.time)
    (step : Step Double) :
    current.time < tFinal ∧ current.time ≤ (current.next (c.stepSize tFinal current) step).time ∧
      Double.infinity true < (current.next (c.stepSize tFinal current) step).time := by
  have hNaN : current.time.isNaN = false := (lt_iff.mp hTime).2.1
  exact ⟨(not_le_iff_lt hFinal hNaN).mp hBefore,
    le_add_of_pos hTime (stepSize_pos hc hFinal hNaN hBefore)⟩

/-! ## §4 The clock along a call -/

/-- The invariant of a call from `start` towards `tFinal` in binary64: the continuation can
step, the trail is in order with the current state as its newest, and the current time lies
above `-∞`. -/
structure Clocked (tFinal : Double) (start : SolutionState Double) (q : LoopPoint Double) :
    Prop where
  size : StepSizeInvariant q.cont
  newest : (q.trail start).head? = some q.current
  ordered : (q.trail start).IsChain fun later earlier => earlier.Precedes tFinal later
  above : Double.infinity true < q.current.time

variable {ε : Type} {ode : ImplicitOde Double ε} {tFinal : Double}
  {stop : SolutionState Double → Double → Bool} {start : SolutionState Double}

/-- **An accepted step keeps the trail in order**: its state follows the current one, the
newest of the trail. -/
theorem Clocked.accept (hFinal : tFinal.isNaN = false) {q : LoopPoint Double}
    (hq : Clocked tFinal start q) (hBefore : ¬ tFinal ≤ q.current.time) (step : Step Double)
    (rate : Double) :
    ((⟨q.current.next (q.cont.stepSize tFinal q.current) step, rate⟩ :: q.events).map (·.state) ++
        [start]).IsChain (fun later earlier => earlier.Precedes tFinal later) ∧
      Double.infinity true < (q.current.next (q.cont.stepSize tFinal q.current) step).time := by
  obtain ⟨hBefore', hLe, hAbove⟩ := next_time hq.size.dt hFinal hq.above hBefore step
  refine ⟨?_, hAbove⟩
  rw [List.map_cons, List.cons_append, List.isChain_cons]
  refine ⟨fun s hs => ?_, hq.ordered⟩
  -- the state the new one follows is the head of the trail, the current state
  obtain rfl : s = q.current := Option.some.inj ((Option.mem_def.mp hs).symm.trans hq.newest)
  exact ⟨hBefore', hLe⟩

/-- **One pass keeps the clock**: a retry changes neither the trail nor the current state, and
an accepted step's state follows the current one. -/
theorem Clocked.pass (hFinal : tFinal.isNaN = false) {q q' : LoopPoint Double}
    (h : Pass ode tFinal stop q q') (hq : Clocked tFinal start q) : Clocked tFinal start q' := by
  have hSize := hq.size.pass stepLaws h
  cases h with
  | retry => exact ⟨hSize, hq.newest, hq.ordered, hq.above⟩
  | @accept c current failures events s attempt step hBefore =>
    obtain ⟨hOrdered, hAbove⟩ := hq.accept hFinal hBefore step _
    exact ⟨hSize, rfl, hOrdered, hAbove⟩

theorem Clocked.passes (hFinal : tFinal.isNaN = false) {q q' : LoopPoint Double}
    (h : Relation.ReflTransGen (Pass ode tFinal stop) q q') (hq : Clocked tFinal start q) :
    Clocked tFinal start q' :=
  passes_invariant (Clocked tFinal start) (fun hPass hq => hq.pass hFinal hPass) h hq

/-- **An exit reports its events in order**: those of the trail, and the state of a last
accepted step after the current one. -/
theorem Clocked.exit (hFinal : tFinal.isNaN = false) {q : LoopPoint Double}
    {o : Outcome Double ε} (h : Exit ode tFinal stop q o) (hq : Clocked tFinal start q) :
    (start :: o.2.1.map (·.state)).IsChain (SolutionState.Precedes tFinal) := by
  cases h with
  | finalTime | maxSteps | problem | breach | stepFailures | minTimeStep =>
    exact chronological_of_trail hq.ordered
  | @steady c current failures events s attempt step hBefore =>
    exact chronological_of_trail (hq.accept hFinal hBefore step _).1
  | @stopped c current failures events s attempt step hBefore =>
    exact chronological_of_trail (hq.accept hFinal hBefore step _).1

/-- **The clock of a call never goes back, and only its last state can reach the final
time.** For a reachable continuation in binary64 whose current time lies above `-∞`, and a
final time that is not NaN, the current state followed by the states of the call's events is
a chain in which each state is not earlier than the one before, and each state followed by
another lies before the final time. The times need not rise strictly, and the last state may
lie past the final time. -/
theorem advance_times_ordered {c : Continuation Double} (hc : Reachable ode c)
    (hFinal : tFinal.isNaN = false) (stop : SolutionState Double → Double → Bool)
    (hStart : c.history.current = some start) (hAbove : Double.infinity true < start.time) :
    (start :: (c.advance ode tFinal stop).2.1.map (·.state)).IsChain
      (SolutionState.Precedes tFinal) := by
  have hSize := hc.stepSizeInvariant stepLaws
  by_cases hWorking : c.status = .working
  · rw [advance_of_working hStart hWorking]
    have hClocked : Clocked tFinal start ⟨{ c with calls := c.calls + 1 }, start, 0, []⟩ :=
      ⟨⟨hSize.valid, hSize.dt⟩, rfl, List.isChain_singleton _, hAbove⟩
    obtain ⟨q, hq, hExit⟩ := loop_passes ode tFinal stop { c with calls := c.calls + 1 } start 0 []
    exact (hClocked.passes hFinal hq).exit hFinal hExit
  · -- a call on a run that has ended reports no events
    rw [advance_of_ended hStart hWorking]
    exact List.isChain_singleton _

end Continuation

/-! ## §5 Runs at the edge of the precision -/

/-- Forward Euler steps of 2 at the default settings otherwise. -/
def overshootingStep : Config Double :=
  { stepper := .forwardEuler, timeStepControl := { initialTimeStep := 2.0 } }

/-- Two forward Euler steps at the default settings otherwise. -/
def stallingSteps : Config Double := { stepper := .forwardEuler, maxSteps := 2 }

/-- The relaxation at rest, started at `1.5 · 2^-52` and advanced towards `1.5000000000000002`
with a step of 2, keeps its clock in order. -/
theorem overshooting_run_times_ordered :
    match Continuation.create overshootingStep with
    | .ok created =>
      match created.start (ε := ModelError) (1, 1) 3.3306690738754696e-16 (Matrix.column #[0])
          none none with
      | .ok c =>
        let ode := (Poly.toModel (relaxationTowards 0)).forwardProblem true
        Continuation.Reachable ode c ∧ (1.5000000000000002 : Double).isNaN = false ∧
          ∃ start, c.history.current = some start ∧ Double.infinity true < start.time ∧
            (start :: (c.advance ode 1.5000000000000002 fun _ _ => false).2.1.map
              (·.state)).IsChain (SolutionState.Precedes 1.5000000000000002)
      | .error _ => False
    | .error _ => False := by
  have hRun : ((Continuation.create overshootingStep).toOption.bind fun created =>
      (created.start (ε := ModelError) (1, 1) 3.3306690738754696e-16 (Matrix.column #[0]) none
        none).toOption).map
      (fun c => c.history.current.map fun s => decide (Double.infinity true < s.time)) =
      some (some true) := by
    decide +kernel
  rcases hCreate : Continuation.create overshootingStep with e | created
  · simp [hCreate, Except.toOption] at hRun
  rcases hStart : created.start (ε := ModelError) (1, 1) 3.3306690738754696e-16
      (Matrix.column #[0]) none none with e | c
  · simp [hCreate, hStart, Except.toOption] at hRun
  simp only [hCreate, hStart, Except.toOption, Option.bind_some, Option.map_some,
    Option.some.injEq, Option.map_eq_some_iff, decide_eq_true_eq] at hRun
  obtain ⟨start, hCurrent, hAbove⟩ := hRun
  dsimp only
  rw [hStart]
  dsimp only
  have hCreated : Continuation.Reachable ((Poly.toModel (relaxationTowards 0)).forwardProblem true)
      created := .create hCreate
  have hReach : Continuation.Reachable ((Poly.toModel (relaxationTowards 0)).forwardProblem true)
      c := .start hCreated hStart
  have hFinal : (1.5000000000000002 : Double).isNaN = false := by decide
  exact ⟨hReach, hFinal, start, hCurrent, hAbove,
    Continuation.advance_times_ordered hReach hFinal _ hCurrent hAbove⟩

/-- **In binary64 the clock can stand still, and can pass the final time.** From `1e17`, where
a unit in the last place is 16, two steps of `0.01` of the relaxation towards 1 leave the time
at `1e17`: the second accepted state is not later than the first. From `1.5 · 2^-52` towards
`1.5000000000000002 = 1.5 + 2^-52` a step of 2 is cut to the difference up to the final time,
which rounds to `1.5`; the sum with the start is a tie, and rounds to the even
`1.5000000000000004`, past the final time. -/
theorem clock_stalls_and_overshoots :
    (match Continuation.create stallingSteps with
    | .ok created =>
      match created.start (ε := ModelError) (1, 1) 1e17 (Matrix.column #[0]) none none with
      | .ok c =>
        ∃ first second, (c.advance ((Poly.toModel (relaxationTowards 1)).forwardProblem true) 1e18
            fun _ _ => false).2.1.map (·.state) = [first, second] ∧
          ¬ first.time < second.time
      | .error _ => False
    | .error _ => False) ∧
    (match Continuation.create overshootingStep with
    | .ok created =>
      match created.start (ε := ModelError) (1, 1) 3.3306690738754696e-16 (Matrix.column #[0])
          none none with
      | .ok c =>
        ∃ last, (c.advance ((Poly.toModel (relaxationTowards 0)).forwardProblem true)
            1.5000000000000002 fun _ _ => false).2.1.map (·.state) = [last] ∧
          (1.5000000000000002 : Double) < last.time
      | .error _ => False
    | .error _ => False) := by
  constructor
  · -- the stall: two events, the second not after the first
    have hRun : ((Continuation.create stallingSteps).toOption.bind fun created =>
        (created.start (ε := ModelError) (1, 1) 1e17 (Matrix.column #[0]) none none).toOption).map
        (fun c => (c.advanceFor ((Poly.toModel (relaxationTowards 1)).forwardProblem true) 1e18
          (fun _ _ => false) 3).map fun o => (o.2.1.length,
            (o.2.1.zip o.2.1.tail).map fun p => decide (p.1.state.time < p.2.state.time))) =
        some (some (2, [false])) := by
      decide +kernel
    rcases hCreate : Continuation.create stallingSteps with e | created
    · simp [hCreate, Except.toOption] at hRun
    rcases hStart : created.start (ε := ModelError) (1, 1) 1e17 (Matrix.column #[0]) none none
      with e | c
    · simp [hCreate, hStart, Except.toOption] at hRun
    simp only [hCreate, hStart, Except.toOption, Option.bind_some, Option.map_some,
      Option.some.injEq, Option.map_eq_some_iff, Prod.mk.injEq] at hRun
    obtain ⟨o, hO, hTwo, hStall⟩ := hRun
    obtain ⟨first, second, hEvents⟩ := List.length_eq_two.mp hTwo
    rw [hEvents] at hStall
    simp only [List.tail_cons, List.zip_cons_cons, List.zip_nil_right, List.map_cons,
      List.map_nil, List.cons.injEq, decide_eq_false_iff_not, and_true] at hStall
    dsimp only
    rw [hStart]
    dsimp only
    rw [Continuation.advance_eq_of_advanceFor hO, hEvents]
    exact ⟨first.state, second.state, rfl, hStall⟩
  · -- the overshoot: one event, past the final time
    have hRun : ((Continuation.create overshootingStep).toOption.bind fun created =>
        (created.start (ε := ModelError) (1, 1) 3.3306690738754696e-16 (Matrix.column #[0]) none
          none).toOption).map
        (fun c => (c.advanceFor ((Poly.toModel (relaxationTowards 0)).forwardProblem true)
          1.5000000000000002 (fun _ _ => false) 3).map fun o =>
            o.2.1.map fun e => decide ((1.5000000000000002 : Double) < e.state.time)) =
        some (some [true]) := by
      decide +kernel
    rcases hCreate : Continuation.create overshootingStep with e | created
    · simp [hCreate, Except.toOption] at hRun
    rcases hStart : created.start (ε := ModelError) (1, 1) 3.3306690738754696e-16
        (Matrix.column #[0]) none none with e | c
    · simp [hCreate, hStart, Except.toOption] at hRun
    simp only [hCreate, hStart, Except.toOption, Option.bind_some, Option.map_some,
      Option.some.injEq, Option.map_eq_some_iff, List.map_eq_singleton_iff,
      decide_eq_true_eq] at hRun
    obtain ⟨o, hO, last, hEvents, hPast⟩ := hRun
    dsimp only
    rw [hStart]
    dsimp only
    rw [Continuation.advance_eq_of_advanceFor hO, hEvents]
    exact ⟨last.state, rfl, hPast⟩

end SteadyAdjoint.Integrator
