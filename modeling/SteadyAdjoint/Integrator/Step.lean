import SteadyAdjoint.Integrator.Config
import SteadyAdjoint.Integrator.Problem
import SteadyAdjoint.Integrator.History
import SteadyAdjoint.Linear.Lu

/-!
# Single steps

A stepper advances an implicit problem by one time step `dt` from the current state.

* **Backward Euler** solves `F(t + dt, X, (X - X_n) / dt) = 0` by Newton's method from
  `X = X_n`, `X_dot = 0`, with the iteration matrix `J(1/dt, 1)`. The iteration stops when
  `|update| ≤ abs + rel · |X|`, and fails after `maxIters` updates.
* For a **linear** problem backward Euler takes the single exact update
  `LU(J(1/dt, 1)) \ -F(t + dt, X_n, 0)`; the factorisation is kept and reused while the step
  size is unchanged.
* **Forward Euler** moves `X = X_n + dt · X_dot_n` with `X_dot = -M⁻¹ F(t, X, 0)`, where the
  mass matrix `M = J(1, 0)` is factored at the current state unless it is the identity; the
  rate at the current state is taken from the state itself after the first step.

A step fails (and is retried by the integrator with a smaller step) on a singular matrix, a
Newton iteration that does not converge, or a state that is not finite; a failed evaluation
of the problem is an error instead. A linear system that cannot be posed (the iteration
matrix not square, not matching the residual, or empty) is a breach: the step cannot be
carried out at all, and the computation it belongs to is abandoned.
-/

namespace SteadyAdjoint.Integrator

/-- Why a step attempt was rejected. -/
inductive StepFailure where
  | singularMatrix
  | newtonDiverged
  | nonFinite
  | rateGrowth
  deriving Repr, DecidableEq

/-- The outcome of a failed step: a failure that a smaller step may cure, an error of the
problem, or a breach (a linear system that cannot be posed). -/
inductive StepError (ε : Type) where
  | problem (e : ε)
  | failure (f : StepFailure)
  | breach

/-- The step outcome of a failed solve: a zero pivot is a singular-matrix failure, a system
that cannot be posed a breach. -/
def StepError.ofSolve {ε : Type} : SolveFailure → StepError ε
  | .singular => .failure .singularMatrix
  | .misshapen => .breach

/-- An accepted step: the new state and its rate of change. -/
structure Step (R : Type) where
  x : Matrix R
  xDot : Matrix R
  newtonIters : Nat

/-- A stepper: its scheme, its Newton settings, and the factorisation kept for a linear
problem together with the step size it belongs to. -/
structure Stepper (R : Type) [Scalar R] where
  kind : StepperKind
  newton : NewtonSettings R
  cache : Option (R × Factors R) := none

namespace Stepper

variable {R : Type} [Scalar R]

/-- Forgets the kept factorisation. -/
def reset (s : Stepper R) : Stepper R := { s with cache := none }

/-- Lifts an evaluation of the problem into a step outcome. -/
def evaluate {ε α : Type} (r : Except ε α) : Except (StepError ε) α :=
  r.mapError StepError.problem

/-- Solves with a factorisation. -/
def solveWith {ε : Type} (f : Factors R) (b : Matrix R) : Except (StepError ε) (Matrix R) :=
  f.solve b |>.mapError StepError.ofSolve

/-- The one-update backward Euler step of a linear problem. Returns the factorisation to keep
(none when an evaluation failed before the solve) and the outcome. -/
def linearStep {ε : Type} (cache : Option (R × Factors R)) (ode : ImplicitOde R ε)
    (current : SolutionState R) (dt : R) :
    Option (R × Factors R) × Except (StepError ε) (Step R) :=
  let t := current.time + dt
  let xDot := Matrix.zeros current.x.rows current.x.cols
  let factors : Except ε (Factors R) := match cache with
    | some (cached, f) =>
      if cached == dt then .ok f
      else (ode.jacobian t current.x xDot (1 / dt) 1).map Matrix.factor
    | none => (ode.jacobian t current.x xDot (1 / dt) 1).map Matrix.factor
  match factors with
  | .error e => (none, .error (.problem e))
  | .ok f =>
    match ode.residual t current.x xDot with
    | .error e => (none, .error (.problem e))
    | .ok r =>
      let keep := some (dt, f)
      match f.solve (-r) with
      | .error failure => (keep, .error (StepError.ofSolve failure))
      | .ok update =>
        (keep, .ok { x := current.x + update, xDot := update.divide dt, newtonIters := 1 })

/-- Newton iterations of a backward Euler step, at most `left` more, from the iterate `x`
with rate `xDot`; `iter` counts the updates made so far. -/
def newtonIterate {ε : Type} (newton : NewtonSettings R) (ode : ImplicitOde R ε) (t α : R)
    (xStart : Matrix R) : Nat → Nat → Matrix R → Matrix R → Except (StepError ε) (Step R)
  | 0, _, _, _ => .error (.failure .newtonDiverged)
  | left + 1, iter, x, xDot => do
    let r ← evaluate (ode.residual t x xDot)
    let j ← evaluate (ode.jacobian t x xDot α 1)
    let update ← solveWith j.factor (-r)
    let x := x + update
    let xDot := (x - xStart).scale α
    if !update.allFinite then throw (.failure .nonFinite)
    if update.norm ≤ newton.absTol + newton.relTol * x.norm then
      pure { x, xDot, newtonIters := iter + 1 }
    else newtonIterate newton ode t α xStart left (iter + 1) x xDot

/-- The Newton backward Euler step. -/
def newtonStep {ε : Type} (newton : NewtonSettings R) (ode : ImplicitOde R ε)
    (current : SolutionState R) (dt : R) : Except (StepError ε) (Step R) :=
  newtonIterate newton ode (current.time + dt) (1 / dt) current.x newton.maxIters 0
    current.x (Matrix.zeros current.x.rows current.x.cols)

/-- `-M⁻¹ F(t, X, 0)`, with no mass factorisation for the identity. -/
def explicitRate {ε : Type} (ode : ImplicitOde R ε) (mass : Option (Factors R)) (t : R)
    (x zero : Matrix R) : Except (StepError ε) (Matrix R) := do
  let r ← evaluate (ode.residual t x zero)
  match mass with
  | none => pure (-r)
  | some f => solveWith f (-r)

/-- The forward Euler step. -/
def explicitStep {ε : Type} (ode : ImplicitOde R ε) (current : SolutionState R) (dt : R) :
    Except (StepError ε) (Step R) := do
  let zero := Matrix.zeros current.x.rows current.x.cols
  let mass ← if ode.massIsIdentity then pure none
    else (some ∘ Matrix.factor) <$> evaluate (ode.jacobian current.time current.x zero 1 0)
  let rate ← if 0 < current.index then pure current.xDot
    else explicitRate ode mass current.time current.x zero
  let x := current.x + rate.scale dt
  let xDot ← explicitRate ode mass (current.time + dt) x zero
  pure { x, xDot, newtonIters := 0 }

/-- Takes one step of size `dt` from `current` and checks that the new state is finite.
Returns the stepper with its kept factorisation updated. -/
def takeStep {ε : Type} (s : Stepper R) (ode : ImplicitOde R ε) (current : SolutionState R)
    (dt : R) : Stepper R × Except (StepError ε) (Step R) :=
  let (s, outcome) : Stepper R × Except (StepError ε) (Step R) := match s.kind with
    | .backwardEuler =>
      if ode.isLinear then
        let (cache, outcome) := linearStep s.cache ode current dt
        ({ s with cache }, outcome)
      else ({ s with cache := none }, newtonStep s.newton ode current dt)
    | .forwardEuler => (s, explicitStep ode current dt)
  let checked := outcome.bind fun step =>
    if step.x.allFinite && step.xDot.allFinite then .ok step else .error (.failure .nonFinite)
  (s, checked)

end Stepper

end SteadyAdjoint.Integrator
