import SteadyAdjoint.Document.Node
import SteadyAdjoint.Document.Decode
import SteadyAdjoint.Linear.Matrix

/-!
# Values of the request language

Requests and answers are JSON documents. This module reads the values a request carries and
writes the values an answer carries:

* a **real** is a number or one of the names `NaN`, `nan`, `Infinity`, `inf`, `-Infinity`,
  `-inf`; a **count** is an integer from `0` to `2^64 - 1`;
* a **vector** is a list of reals;
* a **matrix** is a list of rows of equal length (`[]` is `0 × 0`), or a table with a
  `shape` of two counts and optionally `data`, the entries row by row (all zero when
  `data` is left out);
* a **multivector** (states with one column per direction) is a matrix, except that a
  non-empty list of reals is a single column.

Out, a finite real is a number and the others are the strings `NaN`, `Infinity`,
`-Infinity`; a matrix is its list of rows and a vector a flat list.

A value that cannot be read is a request error (`BadInput`) whose message says why.

Members are read in one of four ways. A **required** member must be present, and is read
even when it is null, which no reader accepts. An **optional** member is read when present,
and a member **with a default** takes the default when absent; for both, a null counts as
absent. A **loose** member (a switch, a name, a list of operations) takes its default
whenever it is absent or of another kind, and never fails. A few optional members are read
whenever they are **present**, a null included.
-/

namespace SteadyAdjoint.Session

open SteadyAdjoint.Document
open SteadyAdjoint.Binary64

/-- Reading a request: the value, or why the request is not understood. -/
abbrev Reading (α : Type) := Except String α

/-- The member `key` of a table, if present. -/
def member (n : Node) (key : String) : Option Node :=
  match n with
  | .table entries => Node.find? entries key
  | _ => none

/-- The answer to a request that is not understood. -/
def badInput (message : String) : Node :=
  .table [("error", .string "BadInput"), ("message", .string message)]

/-- The answer for an error of the library: its kind and its wording. -/
def errorNode (kind message : String) : Node :=
  .table [("error", .string kind), ("message", .string message)]

/-- A named real. -/
def namedReal : String → Option Float
  | "NaN" | "nan" => some quietNaN
  | "Infinity" | "inf" => some (infinity false)
  | "-Infinity" | "-inf" => some (infinity true)
  | _ => none

/-- A real: a number or a named real. -/
def readReal : Node → Reading Float
  | .integer i => .ok (ofRatio (i < 0) i.natAbs 1)
  | .float x => .ok x
  | .string s =>
    match namedReal s with
    | some x => .ok x
    | none => .error ("bad float string " ++ s)
  | _ => .error "expected a number"

/-- A count, if the node is one. -/
def asCount : Node → Option Nat
  | .integer i => if 0 ≤ i ∧ i < Nat.pow 2 64 then some i.toNat else none
  | _ => none

/-- The items of a list. -/
def readList : Node → Reading (List Node)
  | .array items => .ok items
  | _ => .error "expected an array"

/-- A vector. -/
def readVector (n : Node) : Reading (Vec Float) := do
  let items ← readList n
  let xs ← items.mapM readReal
  pure xs.toArray

/-- The rows of a matrix of the given width, row by row: each row is read as a vector, and
then its length must be the width, so a bad entry of a row is reported before the row's
length, and a ragged row before anything in the rows after it. -/
def readRows (width : Nat) : List Node → Reading (List (Vec Float))
  | [] => .ok []
  | row :: rest => do
    let v ← readVector row
    if v.size ≠ width then throw "ragged matrix"
    let vs ← readRows width rest
    pure (v :: vs)

/-- A matrix from its rows; the first row fixes the width. -/
def matrixOfRows : List Node → Reading (Matrix Float)
  | [] => .ok (Matrix.zeros 0 0)
  | first :: rest => do
    let v ← readVector first
    let vs ← readRows v.size rest
    let rows := v :: vs
    pure (Matrix.ofFn rows.length v.size fun i j => (rows.getD i #[]).getD j 0)

/-- A shape `[r, c]` of two counts. -/
def readShape : Node → Reading (Nat × Nat)
  | .array [r, c] =>
    match asCount r, asCount c with
    | some r, some c => .ok (r, c)
    | _, _ => .error "bad shape"
  | _ => .error "bad shape"

/-- A matrix, as rows or as a shape with row-major data. -/
def readMatrix (n : Node) : Reading (Matrix Float) :=
  match n with
  | .array rows => matrixOfRows rows
  | .table _ => do
    let (r, c) ← match member n "shape" with
      | some s => readShape s
      | none => throw "expected a matrix"
    match member n "data" with
    | none => pure (Matrix.zeros r c)
    | some d =>
      let data ← readVector d
      if data.size = r * c then pure (Matrix.ofFn r c fun i j => data.getD (i * c + j) 0)
      else throw "data length does not match shape"
  | _ => .error "expected a matrix"

/-- Whether a node is a list. -/
def isList : Node → Bool
  | .array _ => true
  | _ => false

/-- A multivector: a non-empty flat list is one column, anything else a matrix. -/
def readMultivector (n : Node) : Reading (Matrix Float) :=
  match n with
  | .array items =>
    if !items.isEmpty && !items.any isList then (readVector n).map Matrix.column
    else readMatrix n
  | _ => readMatrix n

/-- Parameter blocks: a list of vectors. -/
def readParams : Node → Reading (Array (Vec Float))
  | .array items => (items.mapM readVector).map List.toArray
  | _ => .error "params must be a list"

/-- A member other than null. -/
def given (n : Node) (key : String) : Option Node :=
  match member n key with
  | some .null => none
  | v => v

/-- A required member, read whenever it is present (a null is read, and refused as a value
of the wrong kind); `missing` is the message when it is absent. -/
def required {α : Type} (n : Node) (key missing : String) (read : Node → Reading α) :
    Reading α :=
  match member n key with
  | some v => read v
  | none => .error missing

/-- An optional member, read when present and not null. -/
def optional {α : Type} (n : Node) (key : String) (read : Node → Reading α) :
    Reading (Option α) :=
  match given n key with
  | some v => (read v).map some
  | none => .ok none

/-- A member read whenever it is present, also when it is null. -/
def present {α : Type} (n : Node) (key : String) (read : Node → Reading α) :
    Reading (Option α) :=
  match member n key with
  | some v => (read v).map some
  | none => .ok none

/-- A member with a default, taken when the member is absent or null. -/
def withDefault {α : Type} (n : Node) (key : String) (read : Node → Reading α) (d : α) :
    Reading α :=
  match given n key with
  | none => .ok d
  | some v => read v

/-- A loose switch: true only when the member is `true`. -/
def looseFlag (n : Node) (key : String) : Bool :=
  match member n key with
  | some (.bool b) => b
  | _ => false

/-- A loose name: the member when it is a string. -/
def looseName (n : Node) (key : String) : Option String :=
  match member n key with
  | some (.string s) => some s
  | _ => none

/-- A loose list: the member's items when it is a list, else no items. -/
def looseList (n : Node) (key : String) : List Node :=
  match member n key with
  | some (.array items) => items
  | _ => []

/-- A loose count: the member when it is a count. -/
def looseCount (n : Node) (key : String) : Option Nat := (member n key).bind asCount

/-- A vector as a flat list. -/
def vectorNode (v : Vec Float) : Node := .array (v.toList.map Node.ofFloat)

/-- A matrix as its list of rows. -/
def matrixNode (m : Matrix Float) : Node :=
  .array (m.toRows.map fun row => .array (row.map Node.ofFloat))

/-- A list of vectors. -/
def vectorsNode (vs : Array (Vec Float)) : Node := .array (vs.toList.map vectorNode)

end SteadyAdjoint.Session
