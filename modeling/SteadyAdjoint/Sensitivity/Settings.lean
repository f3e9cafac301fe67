import SteadyAdjoint.Integrator.Config

/-!
# Sensitivity settings

The settings of a sensitivity computation: one integrator configuration for the forward
phase, one for the adjoint phase, and the choice of the parameter block and the response
whose sensitivity `dg/dp` is wanted, with what is known about the mass matrix.

The adjoint equation is only valid for a constant mass matrix, so `validate` rejects a
mass matrix declared non-constant before it checks the two integrator configurations, forward
first.
-/

namespace SteadyAdjoint.Sensitivity

open SteadyAdjoint.Integrator

/-- Which sensitivity is computed, and what is known about the mass matrix. -/
structure Options where
  parameterIndex : Nat := 0
  responseIndex : Nat := 0
  massConstant : Bool := true
  massIdentity : Bool := false
  deriving Inhabited

/-- The settings of both phases and the sensitivity options. -/
structure Settings (R : Type) [Scalar R] where
  forward : Config R := {}
  adjoint : Config R := {}
  options : Options := {}

/-- The default settings with one stepping scheme for both phases. -/
def Settings.withStepper {R : Type} [Scalar R] (k : StepperKind) : Settings R :=
  { forward := Config.withStepper k, adjoint := Config.withStepper k }

/-- Why settings are rejected. -/
inductive SettingsError where
  | massNotConstant
  | forward (e : ConfigError)
  | adjoint (e : ConfigError)
  deriving Repr, DecidableEq

/-- The dotted name of a rejection: `Forward.MaxSteps`. -/
def SettingsError.kind : SettingsError → String
  | .massNotConstant => "MassMatrixNotConstant"
  | .forward e => "Forward." ++ e.kind
  | .adjoint e => "Adjoint." ++ e.kind

/-- The wording of a rejection. -/
def SettingsError.message : SettingsError → String
  | .massNotConstant => "adjoint sensitivities require MassMatrixIsConstant = true"
  | .forward e => "invalid forward integrator config: " ++ e.message
  | .adjoint e => "invalid adjoint integrator config: " ++ e.message

/-- Checks the mass matrix option, then the forward and the adjoint configuration. -/
def Settings.validate {R : Type} [Scalar R] (s : Settings R) : Except SettingsError Unit := do
  if !s.options.massConstant then throw .massNotConstant
  s.forward.validate.mapError .forward
  s.adjoint.validate.mapError .adjoint

end SteadyAdjoint.Sensitivity
