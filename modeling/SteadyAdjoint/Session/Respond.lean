import SteadyAdjoint.Session.Run

/-!
# Answering requests

`respond` answers one request line with one answer line. The request's `op` selects what is
asked:

* `config` and `integrator_config` read a settings document (`format` `toml`, the default,
  or `json`, text `doc`), validate it, and answer the settings with every default filled in;
* `integrate`, `adjoint` and `run` drive a continuation, an adjoint equation or a
  sensitivity solver with a list of operations.

A request that is not understood is answered with a `BadInput` error that says why.
-/

namespace SteadyAdjoint.Session

open SteadyAdjoint.Document
open SteadyAdjoint.Integrator
open SteadyAdjoint.Sensitivity

/-- The text and format of a settings document request: `doc` must be a string, and the
loose `format` is `toml` when absent. -/
def readDocumentRequest (req : Node) : Except Node (Format × String) := do
  let text ← match looseName req "doc" with
    | some text => pure text
    | none => throw (badInput "doc must be a string")
  let format ← match (looseName req "format").getD "toml" with
    | "toml" => pure Format.toml
    | "json" => pure Format.json
    | _ => throw (badInput "format must be toml or json")
  pure (format, text)

/-- Answers a `config` request: sensitivity settings. -/
def sensitivityConfig (req : Node) : Node := answerOf do
  let (format, text) ← readDocumentRequest req
  let settings ← (recordOfText settingsRecord format text).mapError Format.failure
  settings.validate.mapError fun e => errorNode e.kind e.message
  pure (.table [("config", settings.toNode)])

/-- Answers an `integrator_config` request: integrator settings. -/
def integratorConfig (req : Node) : Node := answerOf do
  let (format, text) ← readDocumentRequest req
  let config ← (recordOfText configRecord format text).mapError Format.failure
  config.validate.mapError fun e => errorNode e.kind e.message
  pure (.table [("config", config.toNode)])

/-- Answers a request. -/
def answer (req : Node) : Node :=
  match member req "op" with
  | some (.string "config") => sensitivityConfig req
  | some (.string "integrator_config") => integratorConfig req
  | some (.string "integrate") => integrate req
  | some (.string "adjoint") => adjoint req
  | some (.string "run") => run req
  | _ => badInput "unknown op"

/-- Answers one request line with one answer line. -/
def respond (line : String) : String :=
  match Json.read line with
  | .ok req => (answer req).write
  | .error e => (badInput ("input is not JSON: " ++ e.message)).write

end SteadyAdjoint.Session
