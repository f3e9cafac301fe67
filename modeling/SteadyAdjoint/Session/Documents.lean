import SteadyAdjoint.Session.Values
import SteadyAdjoint.Document.Json
import SteadyAdjoint.Document.Toml
import SteadyAdjoint.Sensitivity.Codec

/-!
# Settings documents of a request

Settings reach a request in three ways: as TOML or JSON text (a `doc` or `config_toml`), or
as a JSON value inside the request (`config`); text given as `config_toml` wins over a
`config` value. Text is read and decoded as written: a
repeated key is an error and fields are set in written order, by the rules of its format
(`Origin.json`, `Origin.toml`). A value inside the request was read with the request, so a
repeated key has already replaced the earlier one, and its fields are set in sorted order.

A document that cannot be read or decoded is answered only with its format, `Toml` or `Json`.
-/

namespace SteadyAdjoint.Session

open SteadyAdjoint.Document

/-- The two document formats. -/
inductive Format where
  | toml
  | json
  deriving DecidableEq

/-- The name of a format in answers. -/
def Format.name : Format → String
  | .toml => "Toml"
  | .json => "Json"

/-- The answer for a document that could not be read: its format. -/
def Format.failure (f : Format) : Node := .table [("error", .string f.name)]

/-- Reads document text into a node. -/
def parseText (f : Format) (text : String) : Option Node :=
  match f with
  | .toml => (Toml.read text).toOption
  | .json => (Json.read text).toOption

/-- Decodes a record from document text. -/
def recordOfText {α : Type} (r : Record α) (f : Format) (text : String) : Except Format α :=
  match parseText f text with
  | none => .error f
  | some n =>
    let origin : Origin := match f with
      | .toml => .toml
      | .json => .json
    (r.decode origin n).mapError fun _ => f

/-- Decodes a record from a value inside the request. -/
def recordOfValue {α : Type} (r : Record α) (n : Node) : Except Format α :=
  (r.decode .value n).mapError fun _ => .json

/-- Settings given by a request part: `config_toml` (text, which must be a string, so a null
one is refused) when present, else `config` (a value; a null one stands for an absent one),
else the defaults. -/
def settingsOf {α : Type} (r : Record α) (defaults : α) (req : Node) :
    Reading (Except Format α) :=
  match member req "config_toml", given req "config" with
  | some (.string text), _ => .ok (recordOfText r .toml text)
  | some _, _ => .error "config_toml must be a string"
  | none, none => .ok (.ok defaults)
  | none, some v => .ok (recordOfValue r v)

end SteadyAdjoint.Session
