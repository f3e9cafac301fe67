import SteadyAdjoint.Linear.Scalar

/-!
# Integrator settings

The settings of one pseudo-transient integration: the stepping scheme, the final time and the
step budget, how many states to keep, how the time step adapts, the Newton iteration of
implicit steps, and the steady-state test `|x_dot| ≤ abs + rel · |x|`.

`Config.validate` checks the settings in a fixed order and reports the first one that is
wrong: the final time is not NaN, the step budget is positive, a storage limit keeps at least
two states, the step bounds are finite with `0 < min ≤ initial ≤ max`, the growth factor is
finite and at least one, the reduction factor lies strictly between zero and one, Newton may
iterate, and all tolerances are finite and non-negative.
-/

namespace SteadyAdjoint.Integrator

/-- The time-stepping scheme. -/
inductive StepperKind where
  /-- Implicit Euler, with a Newton iteration per step. -/
  | backwardEuler
  /-- Explicit Euler, `x_dot = -M⁻¹ f(0, x, t)`. -/
  | forwardEuler
  deriving Repr, DecidableEq, Inhabited

/-- How the time step changes between accepted steps. -/
inductive StepStrategy where
  /-- The step stays fixed. -/
  | constant
  /-- Switched evolution relaxation: the step scales by the ratio of the previous to the
  current rate of change. -/
  | ser
  deriving Repr, DecidableEq, Inhabited

/-- Whether a scheme solves a linear system every step. -/
def StepperKind.isImplicit : StepperKind → Bool
  | .backwardEuler => true
  | .forwardEuler => false

/-- The name of a scheme in settings documents. -/
def StepperKind.name : StepperKind → String
  | .backwardEuler => "BackwardEuler"
  | .forwardEuler => "ForwardEuler"

/-- The name of a strategy in settings documents and reports. -/
def StepStrategy.name : StepStrategy → String
  | .constant => "Constant"
  | .ser => "Ser"

/-- The name of a scheme in reports. -/
def StepperKind.title : StepperKind → String
  | .backwardEuler => "Backward Euler"
  | .forwardEuler => "Forward Euler"

/-- Step bounds and adaptation. -/
structure StepControl (R : Type) [Scalar R] where
  initialTimeStep : R := 1.0e-2
  minTimeStep : R := 1.0e-12
  maxTimeStep : R := 1.0e6
  strategy : StepStrategy := .ser
  maxGrowthFactor : R := 10
  failureReductionFactor : R := 0.5
  maxConsecutiveFailures : Nat := 10

/-- Newton iteration of implicit steps: at most `maxIters` updates, converged when
`|update| ≤ absTol + relTol · |x|`. -/
structure NewtonSettings (R : Type) [Scalar R] where
  maxIters : Nat := 20
  absTol : R := 1.0e-12
  relTol : R := 1.0e-10

/-- The steady-state test `|x_dot| ≤ absTol + relTol · |x|`. -/
structure SteadyStateSettings (R : Type) [Scalar R] where
  absTol : R := 1.0e-10
  relTol : R := 1.0e-12

/-- All settings of an integration. -/
structure Config (R : Type) [Scalar R] where
  stepper : StepperKind := .backwardEuler
  finalTime : R := 1.0e12
  maxSteps : Nat := 1000
  storageLimit : Option Nat := none
  timeStepControl : StepControl R := {}
  newton : NewtonSettings R := {}
  steadyState : SteadyStateSettings R := {}

section

variable {R : Type} [Scalar R]

/-- The default settings with another stepping scheme. -/
def Config.withStepper (k : StepperKind) : Config R := { stepper := k }

end

/-- The setting that fails validation. -/
inductive ConfigError where
  | finalTime
  | maxSteps
  | storageLimit
  | timeStepBounds
  | growthFactor
  | reductionFactor
  | newtonIters
  | newtonTolerance
  | steadyStateTolerance
  deriving Repr, DecidableEq

/-- The name of a failing setting. -/
def ConfigError.kind : ConfigError → String
  | .finalTime => "FinalTime"
  | .maxSteps => "MaxSteps"
  | .storageLimit => "StorageLimit"
  | .timeStepBounds => "TimeStepBounds"
  | .growthFactor => "GrowthFactor"
  | .reductionFactor => "ReductionFactor"
  | .newtonIters => "NewtonIters"
  | .newtonTolerance => "NewtonTolerance"
  | .steadyStateTolerance => "SteadyStateTolerance"

/-- The wording of a failing setting. -/
def ConfigError.message : ConfigError → String
  | .finalTime => "final_time must not be NaN"
  | .maxSteps => "max_steps must be positive"
  | .storageLimit => "storage_limit must be at least 2"
  | .timeStepBounds =>
    "time steps must be finite, positive, and satisfy min <= initial <= max"
  | .growthFactor => "max_growth_factor must be finite and at least 1"
  | .reductionFactor => "failure_reduction_factor must lie strictly between 0 and 1"
  | .newtonIters => "newton max_iters must be positive"
  | .newtonTolerance => "newton tolerances must be finite and non-negative"
  | .steadyStateTolerance => "steady-state tolerances must be finite and non-negative"

section

variable {R : Type} [Scalar R]

/-- A tolerance is finite and not negative. -/
def isTolerance (x : R) : Bool := Scalar.isFinite x && 0 ≤ x

/-- Checks the step bounds and factors. -/
def StepControl.validate (c : StepControl R) : Except ConfigError Unit :=
  let (initial, min, max) := (c.initialTimeStep, c.minTimeStep, c.maxTimeStep)
  if !(Scalar.isFinite min && Scalar.isFinite initial && Scalar.isFinite max) then
    .error .timeStepBounds
  else if min ≤ 0 || initial < min || max < initial then .error .timeStepBounds
  else if !Scalar.isFinite c.maxGrowthFactor || c.maxGrowthFactor < 1 then .error .growthFactor
  else if !(0 < c.failureReductionFactor && c.failureReductionFactor < 1) then
    .error .reductionFactor
  else .ok ()

/-- Checks every setting; the first failure in the documented order is reported. -/
def Config.validate (c : Config R) : Except ConfigError Unit := do
  if Scalar.isNaN c.finalTime then throw .finalTime
  if c.maxSteps = 0 then throw .maxSteps
  if (c.storageLimit.map fun l => decide (l < 2)).getD false then throw .storageLimit
  c.timeStepControl.validate
  if c.newton.maxIters = 0 then throw .newtonIters
  if !isTolerance c.newton.absTol || !isTolerance c.newton.relTol then throw .newtonTolerance
  if !isTolerance c.steadyState.absTol || !isTolerance c.steadyState.relTol then
    throw .steadyStateTolerance

end

end SteadyAdjoint.Integrator
