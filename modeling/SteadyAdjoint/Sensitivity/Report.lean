import SteadyAdjoint.Sensitivity.Solver
import SteadyAdjoint.Binary64.Text

/-!
# Reports

`SensitivitySolver.describe` writes a human-readable summary of a solver, one fact a line,
in three levels of detail:

* **low**: the selected response and parameter block, how the adjoint operators are
  obtained, the stage and the status;
* **medium**: also a line per phase with its status, its termination, its step count and
  its time;
* **high**: also each phase's settings and counters, and the results that are available,
  each as a boxed matrix.

Numbers are written in plain decimal with the shortest digits that read back to the same
double (`1000000000000`, `0.000000000001`, `NaN`, `inf`). Durations are not measured, so the
report writes `<elapsed>` where a duration would stand.
-/

namespace SteadyAdjoint.Sensitivity

open SteadyAdjoint.Integrator
open SteadyAdjoint.Binary64

/-- How much a report tells. -/
inductive Verbosity where
  | low
  | medium
  | high
  deriving Repr, DecidableEq

/-- `n` spaces. -/
def spaces (n : Nat) : String := String.ofList (List.replicate n ' ')

/-- A matrix in a box, entries right-aligned to the widest; an empty matrix is `[ ]`. The box
starts on a new line and is followed by a blank line. -/
def matrixText (m : Matrix Float) : String :=
  if m.rows = 0 ∨ m.cols = 0 then "[ ]"
  else
    let rows := m.toRows.map fun row => row.map toPlainString
    let width := rows.foldl (fun w row => row.foldl (fun w e => max w e.length) w) 0
    let inner := spaces ((width + 1) * m.cols - 1)
    let line (row : List String) : String :=
      "  │" ++ String.join (row.map fun e => " " ++ spaces (width - e.length) ++ e) ++ " │\n"
    "\n" ++ "  ┌ " ++ inner ++ " ┐\n" ++ String.join (rows.map line) ++
      "  └ " ++ inner ++ " ┘\n" ++ "\n"

/-- The settings of one phase, three lines. -/
def settingsLines (config : Config Float) : String :=
  let control := config.timeStepControl
  "    stepper: " ++ config.stepper.title ++ ", max steps: " ++ toString config.maxSteps ++
    ", final time: " ++ toPlainString config.finalTime ++ "\n" ++
  "    time step: " ++ toPlainString control.initialTimeStep ++ " in [" ++
    toPlainString control.minTimeStep ++ ", " ++ toPlainString control.maxTimeStep ++ "], " ++
    control.strategy.name ++ " control\n" ++
  "    steady state: |x_dot| <= " ++ toPlainString config.steadyState.absTol ++ " + " ++
    toPlainString config.steadyState.relTol ++ " * |x|\n"

/-- One phase: its outcome line, and at high detail its settings and counters. -/
def phaseLines (phase : Phase) (c : Continuation Float) (verbosity : Verbosity) : String :=
  let outcome := "  " ++ phase.name ++ ": " ++ c.status.name ++
    (match c.termination with
     | some t => " (" ++ t.reason ++ ")"
     | none => "") ++
    ", " ++ toString c.index ++ " steps, t = " ++ toPlainString c.time ++ "\n"
  if verbosity = .high then
    outcome ++ settingsLines c.config ++
      "    timers: integrator <elapsed> over " ++ toString c.calls ++
      " calls, stepper <elapsed> over " ++ toString c.attempts ++ " attempts\n"
  else outcome

/-- A labelled matrix when the result is available. -/
def resultText (label : String) (r : Except SolverError (Matrix Float)) : String :=
  match r with
  | .ok m => "  " ++ label ++ ": " ++ matrixText m
  | .error _ => ""

/-- The report of a solver. -/
def SensitivitySolver.describe (s : SensitivitySolver Float) (verbosity : Verbosity) : String :=
  let options := s.settings.options
  let header :=
    "Pseudo-transient adjoint sensitivity\n" ++
    "  response " ++ toString options.responseIndex ++ " / parameter block " ++
      toString options.parameterIndex ++ " (" ++
      (if s.adjointModel.isSome then "explicit" else "transposed") ++ " adjoint)\n" ++
    "  stage: " ++ s.stage.name ++ "\n" ++
    "  status: " ++ s.status.name ++ "\n"
  if verbosity = .low then header
  else
    let phases := phaseLines .forward s.forward verbosity ++ phaseLines .adjoint s.adjoint verbosity
    if verbosity = .high then
      header ++ phases ++
        resultText "x" (s.x.map fun v => (Matrix.column v).transpose) ++
        resultText "g" (s.response.map fun v => (Matrix.column v).transpose) ++
        resultText "dg/dp" s.sensitivity
    else header ++ phases

end SteadyAdjoint.Sensitivity
