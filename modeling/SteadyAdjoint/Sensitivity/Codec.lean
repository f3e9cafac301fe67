import SteadyAdjoint.Sensitivity.Settings
import SteadyAdjoint.Integrator.Codec

/-!
# Sensitivity settings as documents

A sensitivity settings document has the sections `Forward` and `Adjoint`, each integrator
settings, and `Sensitivities` with `SensitivityParameterIndex`, `ResponseFunctionIndex`,
`MassMatrixIsConstant` and `MassMatrixIsIdentity`. Every field may be left out and keeps its
default; any other field is an error.
-/

namespace SteadyAdjoint.Sensitivity

open SteadyAdjoint.Document
open SteadyAdjoint.Integrator

/-- The sensitivity options section. -/
def optionsRecord : Record Options where
  name := "Options"
  fields := [
    Field.count "SensitivityParameterIndex" fun o x => { o with parameterIndex := x },
    Field.count "ResponseFunctionIndex" fun o x => { o with responseIndex := x },
    Field.flag "MassMatrixIsConstant" fun o x => { o with massConstant := x },
    Field.flag "MassMatrixIsIdentity" fun o x => { o with massIdentity := x }]
  defaults := some {}
  blank := {}

/-- The sensitivity settings. -/
def settingsRecord : Record (Settings Float) where
  name := "Settings"
  fields := [
    Field.record "Forward" configRecord fun s x => { s with forward := x },
    Field.record "Adjoint" configRecord fun s x => { s with adjoint := x },
    Field.record "Sensitivities" optionsRecord fun s x => { s with options := x }]
  defaults := some {}
  blank := {}

/-- The sensitivity options as a document. -/
def Options.toNode (o : Options) : Node :=
  .table [
    ("SensitivityParameterIndex", .ofNat o.parameterIndex),
    ("ResponseFunctionIndex", .ofNat o.responseIndex),
    ("MassMatrixIsConstant", .bool o.massConstant),
    ("MassMatrixIsIdentity", .bool o.massIdentity)]

/-- The sensitivity settings as a document. -/
def Settings.toNode (s : Settings Float) : Node :=
  .table [("Forward", s.forward.toNode), ("Adjoint", s.adjoint.toNode),
    ("Sensitivities", s.options.toNode)]

end SteadyAdjoint.Sensitivity
