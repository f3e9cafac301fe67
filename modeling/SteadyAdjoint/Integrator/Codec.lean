import SteadyAdjoint.Integrator.Config
import SteadyAdjoint.Document.Decode

/-!
# Integrator settings as documents

Settings documents name every field in PascalCase (`FinalTime`, `TimeStepControl`), nest the
step control, Newton and steady-state sections, name the stepping scheme and the strategy
(`BackwardEuler`, `Ser`), and may leave out any field, which then keeps its default. A field
that is not a setting is an error. `Config.toNode` writes every field, with `null` for an
absent storage limit, so that decoding what it writes gives the settings back.
-/

namespace SteadyAdjoint.Integrator

open SteadyAdjoint.Document

/-- The stepping schemes by name. -/
def stepperChoices : List (String × StepperKind) :=
  [("BackwardEuler", .backwardEuler), ("ForwardEuler", .forwardEuler)]

/-- The strategies by name. -/
def strategyChoices : List (String × StepStrategy) := [("Constant", .constant), ("Ser", .ser)]

/-- The step control section. -/
def stepControlRecord : Record (StepControl Float) where
  name := "StepControl"
  fields := [
    Field.real "InitialTimeStep" fun c x => { c with initialTimeStep := x },
    Field.real "MinTimeStep" fun c x => { c with minTimeStep := x },
    Field.real "MaxTimeStep" fun c x => { c with maxTimeStep := x },
    Field.choice "Strategy" "StepStrategy" strategyChoices fun c x => { c with strategy := x },
    Field.real "MaxGrowthFactor" fun c x => { c with maxGrowthFactor := x },
    Field.real "FailureReductionFactor" fun c x => { c with failureReductionFactor := x },
    Field.count "MaxConsecutiveFailures" fun c x => { c with maxConsecutiveFailures := x }]
  defaults := some {}
  blank := {}

/-- The Newton section. -/
def newtonRecord : Record (NewtonSettings Float) where
  name := "NewtonSettings"
  fields := [
    Field.count "MaxIters" fun c x => { c with maxIters := x },
    Field.real "AbsTol" fun c x => { c with absTol := x },
    Field.real "RelTol" fun c x => { c with relTol := x }]
  defaults := some {}
  blank := {}

/-- The steady-state section. -/
def steadyStateRecord : Record (SteadyStateSettings Float) where
  name := "SteadyStateSettings"
  fields := [
    Field.real "AbsTol" fun c x => { c with absTol := x },
    Field.real "RelTol" fun c x => { c with relTol := x }]
  defaults := some {}
  blank := {}

/-- The integrator settings. -/
def configRecord : Record (Config Float) where
  name := "Config"
  fields := [
    Field.choice "Stepper" "StepperKind" stepperChoices fun c x => { c with stepper := x },
    Field.real "FinalTime" fun c x => { c with finalTime := x },
    Field.count "MaxSteps" fun c x => { c with maxSteps := x },
    Field.optionalCount "StorageLimit" fun c x => { c with storageLimit := x },
    Field.record "TimeStepControl" stepControlRecord fun c x => { c with timeStepControl := x },
    Field.record "Newton" newtonRecord fun c x => { c with newton := x },
    Field.record "SteadyState" steadyStateRecord fun c x => { c with steadyState := x }]
  defaults := some {}
  blank := {}

/-- The step control section as a document. -/
def StepControl.toNode (c : StepControl Float) : Node :=
  .table [
    ("InitialTimeStep", .ofFloat c.initialTimeStep),
    ("MinTimeStep", .ofFloat c.minTimeStep),
    ("MaxTimeStep", .ofFloat c.maxTimeStep),
    ("Strategy", .string c.strategy.name),
    ("MaxGrowthFactor", .ofFloat c.maxGrowthFactor),
    ("FailureReductionFactor", .ofFloat c.failureReductionFactor),
    ("MaxConsecutiveFailures", .ofNat c.maxConsecutiveFailures)]

/-- The Newton section as a document. -/
def NewtonSettings.toNode (c : NewtonSettings Float) : Node :=
  .table [("MaxIters", .ofNat c.maxIters), ("AbsTol", .ofFloat c.absTol),
    ("RelTol", .ofFloat c.relTol)]

/-- The steady-state section as a document. -/
def SteadyStateSettings.toNode (c : SteadyStateSettings Float) : Node :=
  .table [("AbsTol", .ofFloat c.absTol), ("RelTol", .ofFloat c.relTol)]

/-- The integrator settings as a document. -/
def Config.toNode (c : Config Float) : Node :=
  .table [
    ("Stepper", .string c.stepper.name),
    ("FinalTime", .ofFloat c.finalTime),
    ("MaxSteps", .ofNat c.maxSteps),
    ("StorageLimit", .ofOption (c.storageLimit.map Node.ofNat)),
    ("TimeStepControl", c.timeStepControl.toNode),
    ("Newton", c.newton.toNode),
    ("SteadyState", c.steadyState.toNode)]

end SteadyAdjoint.Integrator
