import SteadyAdjoint.Integrator.Step

/-!
# Pseudo-transient continuation

A `Continuation` drives an implicit problem to a steady state by time stepping with growing
steps; transient accuracy is irrelevant, only the state where `|x_dot| ≤ abs + rel · |x|`.
It keeps the run's state (the history, the step size to try next, the previous rate of
change, the outcome once the run ends) and is given the problem at every call, so one
continuation can follow a problem whose data changes between runs.

One call of `advance` loops:

1. the run ends with `finalTime` once the current time reaches the target, and with
   `maxSteps` once the step budget is used;
2. otherwise a step of `min dt (tFinal - t)` is attempted. A problem error ends the run and
   is returned, and so does a breach (a step that cannot be carried out at all); a rejected
   step is retried with the step reduced by the reduction factor,
   unless too many steps failed in a row (`stepFailures`) or the reduced step is below the
   minimum (`minTimeStep`);
3. an accepted step is pushed and reported as an event; the run ends with `steadyState` when
   the new state is steady and with `stoppedByObserver` when the caller asked to stop there;
   otherwise the next step size is proposed from the new rate of change.

A run that has ended returns its outcome again until its status is set back to working.
The loop terminates because every accepted step raises the step index towards the budget and
every rejected one raises the failure count towards its limit.
-/

namespace SteadyAdjoint.Integrator

/-- Progress of a run. -/
inductive Status where
  | working
  | passed
  | failed
  deriving Repr, DecidableEq, Inhabited

/-- The lowercase name of a status. -/
def Status.name : Status → String
  | .working => "working"
  | .passed => "passed"
  | .failed => "failed"

/-- Why a run stopped. -/
inductive Termination where
  | steadyState
  | maxSteps
  | finalTime
  | stepFailures
  | minTimeStep
  | stoppedByObserver
  | problemError
  deriving Repr, DecidableEq

/-- The name of a termination. -/
def Termination.name : Termination → String
  | .steadyState => "SteadyState"
  | .maxSteps => "MaxSteps"
  | .finalTime => "FinalTime"
  | .stepFailures => "StepFailures"
  | .minTimeStep => "MinTimeStep"
  | .stoppedByObserver => "StoppedByObserver"
  | .problemError => "ProblemError"

/-- The sentence that explains a termination. -/
def Termination.reason : Termination → String
  | .steadyState => "steady state reached"
  | .maxSteps => "maximum number of steps reached"
  | .finalTime => "final time reached before steady state"
  | .stepFailures => "too many consecutive step failures"
  | .minTimeStep => "time step fell below the minimum"
  | .stoppedByObserver => "stopped by observer"
  | .problemError => "problem evaluation failed"

/-- Errors of a continuation: advancing before any state is known, an initial state of the
wrong shape, a failed evaluation of the problem, or a step that breached the contract of its
linear algebra. -/
inductive SolveError (ε : Type) where
  | notInitialized
  | dimensionMismatch (name : String) (expected actual : Nat × Nat)
  | problem (e : ε)
  | breach

/-- Whether an error is a breach, of the stepping or (by `inner`) of the problem. -/
def SolveError.breaks {ε : Type} (inner : ε → Bool) : SolveError ε → Bool
  | .breach => true
  | .problem e => inner e
  | _ => false

/-- A shape written as a pair, `(2, 1)`. -/
def shapeText (s : Nat × Nat) : String := "(" ++ toString s.1 ++ ", " ++ toString s.2 ++ ")"

/-- The name of an error's kind. -/
def SolveError.kind {ε : Type} : SolveError ε → String
  | .notInitialized => "NotInitialized"
  | .dimensionMismatch .. => "DimensionMismatch"
  | .problem _ => "Problem"
  | .breach => "Breach"

/-- The wording of an error, given that of the problem's errors. -/
def SolveError.message {ε : Type} (describe : ε → String) : SolveError ε → String
  | .notInitialized => "solution history has not been initialized"
  | .dimensionMismatch name expected actual =>
    name ++ " has shape " ++ shapeText actual ++ ", expected " ++ shapeText expected
  | .problem e => "problem error: " ++ describe e
  | .breach => "a linear system of the step could not be posed"

/-- An accepted step as reported to the caller: the new state and its rate of change. -/
structure Event (R : Type) where
  state : SolutionState R
  rate : R

section

variable {R : Type} [Scalar R]

/-- The smaller of two numbers, ignoring a NaN. -/
def fmin (a b : R) : R :=
  if Scalar.isNaN a then b else if Scalar.isNaN b then a else if b < a then b else a

/-- `x` limited to `[lo, hi]`; a NaN stays NaN. -/
def clampTo (x lo hi : R) : R :=
  let x := if x < lo then lo else x
  if hi < x then hi else x

end

/-- The state of a pseudo-transient run. -/
structure Continuation (R : Type) [Scalar R] where
  config : Config R
  stepper : Stepper R
  history : History R
  status : Status := .working
  termination : Option Termination := none
  /-- The step size the next step will try. -/
  dt : R
  prevRate : Option R := none
  /-- Calls of `advance` since the last initialisation. -/
  calls : Nat := 0
  /-- Step attempts since the last initialisation. -/
  attempts : Nat := 0

namespace Continuation

variable {R : Type} [Scalar R]

/-- A continuation with validated settings and an empty history. -/
def create (config : Config R) : Except ConfigError (Continuation R) := do
  config.validate
  pure {
    config
    stepper := { kind := config.stepper, newton := config.newton }
    history := { limit := config.storageLimit }
    dt := config.timeStepControl.initialTimeStep }

/-- The time of the current state, NaN before the first. -/
def time (c : Continuation R) : R := (c.history.current.map (·.time)).getD (0 / 0)

/-- The step index of the current state. -/
def index (c : Continuation R) : Nat := (c.history.current.map (·.index)).getD 0

/-- Checks that a state has the expected shape. -/
def checkShape {ε : Type} (name : String) (expected : Nat × Nat) (m : Matrix R) :
    Except (SolveError ε) Unit :=
  if m.shape = expected then .ok () else .error (.dimensionMismatch name expected m.shape)

/-- Starts a new run from a state of `dims` (rows and directions); the rate defaults to zero
and the second derivative to unknown. Everything of an earlier run is discarded. -/
def start {ε : Type} (c : Continuation R) (dims : Nat × Nat) (t0 : R) (x0 : Matrix R)
    (xDot0 xDotDot0 : Option (Matrix R)) : Except (SolveError ε) (Continuation R) := do
  let xDot0 := xDot0.getD (Matrix.zeros dims.1 dims.2)
  checkShape "x0" dims x0
  checkShape "x_dot0" dims xDot0
  match xDotDot0 with
  | some m => checkShape "x_dot_dot0" dims m
  | none => pure ()
  let state : SolutionState R :=
    { time := t0, index := 0, dt := 0, x := x0, xDot := xDot0, xDotDot := xDotDot0 }
  pure { c with
    history := c.history.clear.push state
    stepper := c.stepper.reset
    status := .working
    termination := none
    dt := c.config.timeStepControl.initialTimeStep
    prevRate := none
    calls := 0
    attempts := 0 }

/-- Whether a state with rate of change `rate` is steady. -/
def isSteady (c : Continuation R) (x : Matrix R) (rate : R) : Bool :=
  rate ≤ c.config.steadyState.absTol + c.config.steadyState.relTol * x.norm

/-- Rejects an explicit step that increased the rate of change while the step adapts: the
step was past the stability limit. -/
def screen {ε : Type} (c : Continuation R) (step : Step R) : Except (StepError ε) (Step R) :=
  if c.config.timeStepControl.strategy = .ser && !c.stepper.kind.isImplicit then
    let rate := step.xDot.norm
    let grew := match c.prevRate with
      | some prev => prev < rate
      | none => false
    if grew && !c.isSteady step.x rate then .error (.failure .rateGrowth) else .ok step
  else .ok step

/-- Proposes the next step size from the latest rate of change and records that rate. -/
def nextTimeStep (c : Continuation R) (rate : R) : Continuation R :=
  let control := c.config.timeStepControl
  let proposed := match control.strategy with
    | .constant => c.dt
    | .ser =>
      let max := control.maxGrowthFactor
      let ratio := match c.prevRate with
        | some prev => if 0 < rate then prev / rate else max
        | none => 1
      c.dt * clampTo ratio (1 / max) max
  { c with prevRate := some rate,
           dt := clampTo proposed control.minTimeStep control.maxTimeStep }

theorem config_nextTimeStep (c : Continuation R) (rate : R) :
    (c.nextTimeStep rate).config = c.config := rfl

/-- Records the end of a run; it passed exactly when it reached a steady state. -/
def finish (c : Continuation R) (t : Termination) : Continuation R × Bool :=
  let passed := t = .steadyState
  ({ c with termination := some t, status := if passed then .passed else .failed }, passed)

/-- The outcome of a call of `advance`: the continuation afterwards, the events of the
accepted steps in order, and whether a steady state was reached. -/
abbrev Outcome (R ε : Type) [Scalar R] :=
  Continuation R × List (Event R) × Except (SolveError ε) Bool

/-- Ends the loop with a termination. -/
def stopWith {ε : Type} (c : Continuation R) (events : List (Event R)) (t : Termination) :
    Outcome R ε :=
  let (c, passed) := c.finish t
  (c, events.reverse, .ok passed)

/-- The stepping loop from `current`, with `failures` rejected steps in a row so far and the
events so far, newest first. -/
def loop {ε : Type} (ode : ImplicitOde R ε) (tFinal : R) (stop : SolutionState R → R → Bool)
    (c : Continuation R) (current : SolutionState R) (failures : Nat)
    (events : List (Event R)) : Outcome R ε :=
  if tFinal ≤ current.time then stopWith c events .finalTime
  else if hSteps : c.config.maxSteps ≤ current.index then stopWith c events .maxSteps
  else
    let control := c.config.timeStepControl
    let dt := fmin c.dt (tFinal - current.time)
    let (stepper, attempt) := c.stepper.takeStep ode current dt
    let tried := { c with stepper, attempts := c.attempts + 1 }
    match attempt.bind tried.screen with
    | .error (.problem e) =>
      ({ tried with status := .failed, termination := some .problemError }, events.reverse,
        .error (.problem e))
    | .error .breach => (tried, events.reverse, .error .breach)
    | .error (.failure _) =>
      if hFail : c.config.timeStepControl.maxConsecutiveFailures < failures + 1 then
        stopWith tried events .stepFailures
      else
        let reduced := dt * control.failureReductionFactor
        if reduced < control.minTimeStep then stopWith tried events .minTimeStep
        else loop ode tFinal stop { tried with dt := reduced, stepper := tried.stepper.reset }
          current (failures + 1) events
    | .ok step =>
      let state : SolutionState R :=
        { time := current.time + dt, index := current.index + 1, dt := dt, x := step.x,
          xDot := step.xDot, xDotDot := none }
      let pushed := { tried with history := tried.history.push state }
      let rate := step.xDot.norm
      let events := { state := state, rate := rate } :: events
      let stopAsked := stop state rate
      if pushed.isSteady state.x rate then stopWith pushed events .steadyState
      else if stopAsked then stopWith pushed events .stoppedByObserver
      else loop ode tFinal stop (pushed.nextTimeStep rate) state 0 events
termination_by (c.config.maxSteps - current.index,
  c.config.timeStepControl.maxConsecutiveFailures + 1 - failures)
decreasing_by
  all_goals try simp only [config_nextTimeStep]
  all_goals first
    | exact Prod.Lex.right _ (by omega)
    | exact Prod.Lex.left _ _ (by omega)

/-- Advances towards `tFinal`, reporting each accepted step; `stop` asks to end the run at an
accepted state that is not steady. Returns whether a steady state was reached. -/
def advance {ε : Type} (c : Continuation R) (ode : ImplicitOde R ε) (tFinal : R)
    (stop : SolutionState R → R → Bool) : Outcome R ε :=
  let c := { c with calls := c.calls + 1 }
  match c.history.current with
  | none => (c, [], .error .notInitialized)
  | some current =>
    if c.status ≠ .working then (c, [], .ok (c.status = .passed))
    else loop ode tFinal stop c current 0 []

/-- Advances towards the configured final time without stopping early. -/
def advanceToEnd {ε : Type} (c : Continuation R) (ode : ImplicitOde R ε) : Outcome R ε :=
  c.advance ode c.config.finalTime fun _ _ => false

end Continuation

end SteadyAdjoint.Integrator
