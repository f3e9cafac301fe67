import SteadyAdjoint.Binary64.Text

/-!
# Document trees

A `Node` is what a configuration document or a request reads into, whichever of JSON or TOML
it was written in: scalars, arrays, and tables of named entries. An integer keeps its exact
value and a number written with a point or an exponent is a double, because settings that
count (steps, indices) accept only the first kind.

A TOML date or time is kept as its text; JSON has none.

Writing a node back is JSON with the keys of every table in sorted order; a double that has
no JSON number (NaN, the infinities) is written as the strings `"NaN"`, `"Infinity"` and
`"-Infinity"`.
-/

namespace SteadyAdjoint.Document

/-- A parsed document. Tables keep their entries in the order they were read. -/
inductive Node where
  | null
  | bool (b : Bool)
  | integer (i : Int)
  | float (x : Float)
  | string (s : String)
  | array (items : List Node)
  | table (entries : List (String × Node))
  | datetime (text : String)
  deriving Inhabited

namespace Node

/-- The value of the last entry named `key`, as a table whose later entries replace earlier
ones would give it. -/
def find? (entries : List (String × Node)) (key : String) : Option Node :=
  entries.foldl (fun found (k, v) => if k = key then some v else found) none

/-- A double as a node: a number when it has JSON digits, else its name as a string. -/
def ofFloat (x : Float) : Node :=
  if x.isNaN then .string "NaN"
  else if x.isInf then .string (if x < 0 then "-Infinity" else "Infinity")
  else .float x

/-- A natural number as a node. -/
def ofNat (n : Nat) : Node := .integer n

/-- An optional node, `null` when absent. -/
def ofOption (o : Option Node) : Node := o.getD .null

end Node

/-! ## Writing JSON -/

/-- The JSON escape of one character of a string: quote, backslash and control characters
are escaped, everything else is written as it is. -/
def escapeChar (c : Char) : String :=
  if c = '"' then "\\\""
  else if c = '\\' then "\\\\"
  else if c = '\n' then "\\n"
  else if c = '\r' then "\\r"
  else if c = '\t' then "\\t"
  else if c = '\x08' then "\\b"
  else if c = '\x0c' then "\\f"
  else if c.toNat < 32 then
    let hex := Nat.toDigits 16 c.toNat
    "\\u" ++ String.ofList (List.replicate (4 - hex.length) '0' ++ hex)
  else String.singleton c

/-- A string as a quoted JSON string. -/
def quote (s : String) : String :=
  "\"" ++ String.join (s.toList.map escapeChar) ++ "\""

/-- Table entries sorted by key. -/
def sortEntries (entries : List (String × String)) : List (String × String) :=
  entries.mergeSort fun a b => decide (a.1 ≤ b.1)

mutual

/-- JSON text of a node, with sorted keys. -/
def Node.write : Node → String
  | .null => "null"
  | .bool b => if b then "true" else "false"
  | .integer i => toString i
  | .float x => (Binary64.toJsonString x).getD "null"
  | .string s => quote s
  | .datetime s => quote s
  | .array items => "[" ++ ",".intercalate (writeItems items) ++ "]"
  | .table entries =>
    let written := sortEntries (writeEntries entries)
    "\x7b" ++ ",".intercalate (written.map fun (k, v) => quote k ++ ":" ++ v) ++ "\x7d"

/-- JSON texts of array items. -/
def writeItems : List Node → List String
  | [] => []
  | n :: rest => n.write :: writeItems rest

/-- Keys with the JSON texts of their values. -/
def writeEntries : List (String × Node) → List (String × String)
  | [] => []
  | (k, n) :: rest => (k, n.write) :: writeEntries rest

end

end SteadyAdjoint.Document
