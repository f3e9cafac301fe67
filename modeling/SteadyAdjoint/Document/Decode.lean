import SteadyAdjoint.Document.Node
import SteadyAdjoint.Document.Printable

/-!
# Decoding records from documents

Settings and models are records with named fields. `Record.decode` fills a record from a
node by these rules:

* a table names fields; a name that is not a field is an error, and so is a field that is
  missing when the record has no default for it;
* an array lists the fields in their declared order; fewer items leave the later fields at
  their defaults;
* a count accepts only a non-negative integer, a real number accepts an integer or a double,
  a choice accepts the exact name of one of its options.

Where the node comes from (its `Origin`) decides the rest:

* JSON text: a table's entries are visited in written order and a repeated key is an error;
  an array with more items than the record has fields is an error; a choice is a name, or a
  table of one entry whose key is the name and whose value is `null`.
* A JSON value read with the request: a repeated key has already replaced the earlier one
  and the entries are visited in sorted key order, which decides which of several faults is
  reported; arrays and choices as for JSON text.
* TOML text: entries in written order; items of an array beyond the record's fields are
  ignored; a choice is a name, or a table of exactly one entry (inline or a section) whose
  key is the name and whose value is an empty table or an empty array.

Errors carry the wording of their cause: `missing field `Source``,
`invalid type: string "x", expected f64`.
-/

namespace SteadyAdjoint.Document

open SteadyAdjoint.Binary64

/-- Why a node does not decode. -/
inductive DecodeError where
  | invalidType (found expected : String)
  | invalidValue (found expected : String)
  | invalidLength (length : Nat) (expected : String)
  | unknownField (field : String) (fields : List String)
  | unknownVariant (variant : String) (variants : List String)
  | missingField (field : String)
  | duplicateField (field : String)
  deriving Repr, DecidableEq

/-- Names in backquotes, as a list of alternatives: `` `a` ``, `` `a` or `b` ``, or
`` one of `a`, `b`, `c` ``. -/
def oneOf (names : List String) : String :=
  let quoted := names.map fun n => "`" ++ n ++ "`"
  match quoted with
  | [] => ""
  | [a] => a
  | [a, b] => a ++ " or " ++ b
  | _ => "one of " ++ ", ".intercalate quoted

/-- The wording of a decoding error. -/
def DecodeError.message : DecodeError → String
  | .invalidType found expected => "invalid type: " ++ found ++ ", expected " ++ expected
  | .invalidValue found expected => "invalid value: " ++ found ++ ", expected " ++ expected
  | .invalidLength n expected => "invalid length " ++ toString n ++ ", expected " ++ expected
  | .unknownField f [] => "unknown field `" ++ f ++ "`, there are no fields"
  | .unknownField f fields => "unknown field `" ++ f ++ "`, expected " ++ oneOf fields
  | .unknownVariant v [] => "unknown variant `" ++ v ++ "`, there are no variants"
  | .unknownVariant v variants => "unknown variant `" ++ v ++ "`, expected " ++ oneOf variants
  | .missingField f => "missing field `" ++ f ++ "`"
  | .duplicateField f => "duplicate field `" ++ f ++ "`"

/-- How a node appears in an error that rejects it. -/
def Node.describe : Node → String
  | .null => "null"
  | .bool b => "boolean `" ++ (if b then "true" else "false") ++ "`"
  | .integer i => "integer `" ++ toString i ++ "`"
  | .float x => "floating point `" ++ ((toJsonString x).getD (toPlainString x)) ++ "`"
  | .string s => "string " ++ quoteString s
  | .array _ => "sequence"
  | .table _ => "map"
  | .datetime _ => "datetime"

/-- How the node to decode was obtained. -/
inductive Origin where
  /-- Straight from JSON text: written order, a repeated key is an error. -/
  | json
  /-- Straight from TOML text: written order, extra array items ignored. -/
  | toml
  /-- From a request read beforehand: later keys replaced earlier ones, sorted order. -/
  | value
  deriving DecidableEq

/-- The entries of a table as they are visited for an origin. -/
def visitOrder (origin : Origin) (entries : List (String × Node)) : List (String × Node) :=
  match origin with
  | .json => entries
  | .toml => entries
  | .value =>
    let kept := entries.foldl (fun acc (k, v) => (acc.filter (·.1 ≠ k)) ++ [(k, v)]) []
    kept.mergeSort fun a b => decide (a.1 ≤ b.1)

/-! ## §1 Scalars -/

/-- A real number: an integer (rounded to the nearest double) or a double. -/
def decodeReal : Node → Except DecodeError Float
  | .integer i => .ok (ofRatio (i < 0) i.natAbs 1)
  | .float x => .ok x
  | n => .error (.invalidType n.describe "f64")

/-- A count: a non-negative integer below `2^64`. -/
def decodeCount : Node → Except DecodeError Nat
  | .integer i =>
    if i < 0 then .error (.invalidValue (Node.integer i).describe "usize")
    else if ((Nat.pow 2 64 : Nat) : Int) ≤ i then
      .error (.invalidValue (Node.integer i).describe "usize")
    else .ok i.toNat
  | n => .error (.invalidType n.describe "usize")

/-- A truth value. -/
def decodeBool : Node → Except DecodeError Bool
  | .bool b => .ok b
  | n => .error (.invalidType n.describe "a boolean")

/-- An optional count: `null` is none. -/
def decodeOptionalCount : Node → Except DecodeError (Option Nat)
  | .null => .ok none
  | n => (decodeCount n).map some

/-- The option of a name. -/
def findChoice {α : Type} (options : List (String × α)) (s : String) : Except DecodeError α :=
  match options.find? (·.1 = s) with
  | some (_, a) => .ok a
  | none => .error (.unknownVariant s (options.map Prod.fst))

/-- Whether a node is what an option without contents is written with in TOML: an empty
table or an empty array. -/
def isEmptyContent : Node → Bool
  | .table [] => true
  | .array [] => true
  | _ => false

/-- One of named options: the exact name as a string, or a table whose key is the name and
whose value stands for no contents (`null` in JSON, an empty table or array in TOML). -/
def decodeChoice {α : Type} (origin : Origin) (typeName : String) (options : List (String × α)) :
    Node → Except DecodeError α
  | .string s => findChoice options s
  | .table entries =>
    match origin, entries with
    | .toml, [(s, content)] => do
      let a ← findChoice options s
      if isEmptyContent content then pure a
      else throw (.invalidType content.describe "an empty table")
    | .toml, _ => .error (.invalidLength entries.length "a table of one entry")
    | _, [(s, .null)] => findChoice options s
    | _, _ => .error (.invalidType "map" ("enum " ++ typeName))
  | n => .error (.invalidType n.describe ("enum " ++ typeName))

/-! ## §2 Records -/

/-- A field of a record: its name and how a node sets it. -/
structure Field (α : Type) where
  name : String
  set : Origin → Node → α → Except DecodeError α

/-- A record's decoding rules: its name, its fields in declared order, and the value whose
fields stand for absent ones (`none` when every field is required). -/
structure Record (α : Type) where
  name : String
  fields : List (Field α)
  defaults : Option α
  blank : α

namespace Field

/-- A real-valued field. -/
def real {α : Type} (name : String) (set : α → Float → α) : Field α :=
  { name, set := fun _ n a => (decodeReal n).map (set a) }

/-- A count field. -/
def count {α : Type} (name : String) (set : α → Nat → α) : Field α :=
  { name, set := fun _ n a => (decodeCount n).map (set a) }

/-- An optional count field. -/
def optionalCount {α : Type} (name : String) (set : α → Option Nat → α) : Field α :=
  { name, set := fun _ n a => (decodeOptionalCount n).map (set a) }

/-- A truth-valued field. -/
def flag {α : Type} (name : String) (set : α → Bool → α) : Field α :=
  { name, set := fun _ n a => (decodeBool n).map (set a) }

/-- A field holding one of named options. -/
def choice {α β : Type} (name typeName : String) (options : List (String × β))
    (set : α → β → α) : Field α :=
  { name, set := fun origin n a => (decodeChoice origin typeName options n).map (set a) }

end Field

/-- Sets the fields named in table entries, visited in order; returns the record and the
names that were set. -/
def Record.setEntries {α : Type} (r : Record α) (origin : Origin) :
    List (String × Node) → α → List String → Except DecodeError (α × List String)
  | [], acc, seen => .ok (acc, seen)
  | (k, v) :: rest, acc, seen =>
    match r.fields.find? (·.name = k) with
    | none => .error (.unknownField k (r.fields.map (·.name)))
    | some f =>
      if seen.contains k then .error (.duplicateField k)
      else
        match f.set origin v acc with
        | .ok acc => r.setEntries origin rest acc (k :: seen)
        | .error e => .error e

/-- Sets the fields in declared order from array items; items past the last field are an
error except in TOML, which leaves them unread. -/
def Record.setItems {α : Type} (r : Record α) (origin : Origin) :
    List (Field α) → List Node → Nat → α → Except DecodeError α
  | _, [], _, acc => .ok acc
  | [], items, n, acc =>
    if origin = .toml then .ok acc
    else .error (.invalidLength (n + items.length) "fewer elements in array")
  | f :: fs, item :: items, n, acc =>
    match f.set origin item acc with
    | .ok acc => r.setItems origin fs items (n + 1) acc
    | .error e => .error e

/-- Decodes a record from a table or an array. -/
def Record.decode {α : Type} (r : Record α) (origin : Origin) : Node → Except DecodeError α
  | .table entries => do
    let start := r.defaults.getD r.blank
    let (a, seen) ← r.setEntries origin (visitOrder origin entries) start []
    match r.defaults with
    | some _ => pure a
    | none =>
      match r.fields.find? fun f => !seen.contains f.name with
      | some f => throw (.missingField f.name)
      | none => pure a
  | .array items =>
    match r.defaults with
    | some d => r.setItems origin r.fields items 0 d
    | none =>
      if items.length < r.fields.length then
        .error (.invalidLength items.length
          ("struct " ++ r.name ++ " with " ++ toString r.fields.length ++ " elements"))
      else r.setItems origin r.fields items 0 r.blank
  | n => .error (.invalidType n.describe ("struct " ++ r.name))

/-- A field holding a nested record. -/
def Field.record {α β : Type} (name : String) (r : Record β) (set : α → β → α) :
    Field α :=
  { name, set := fun origin n a => (r.decode origin n).map (set a) }

end SteadyAdjoint.Document
