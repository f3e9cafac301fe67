import SteadyAdjoint.Document.Node

/-!
# Reading TOML

`Toml.read` parses a TOML document into a `Node` table. It follows TOML 1.0: bare and quoted
keys, dotted keys, `[table]` and `[[array of tables]]` headers, inline tables and arrays,
the four kinds of strings, decimal, hexadecimal, octal and binary integers with underscores
between digits, decimal floats with `inf` and `nan`, booleans, and comments.

A document is a tree that is built once: a table may be opened by a header only once, and
only if no key has defined it before; dotted keys may extend only tables that dotted keys
created; an inline table is complete as written. Whatever breaks these rules, like any
syntax error, makes the document unreadable. So does a value inside 80 or more arrays and
inline tables, and a key of 80 or more dotted parts. A byte order mark may open the
document.

Dates and times are read as TOML 1.0 writes them (RFC 3339: a date, a date with a time and
optionally an offset, or a time alone), with every field in its range and the day within its
month; they are kept as written, and no setting takes one.

Decimal floats are read exactly: the result is the double nearest to the written decimal. A
positive decimal beyond the range of doubles is refused; a negative one reads as negative
infinity.
-/

namespace SteadyAdjoint.Document.Toml

open SteadyAdjoint.Binary64

/-- Why a text is not a readable TOML document. -/
inductive ReadError where
  | malformed
  | invalidNumber
  | invalidString
  | duplicateKey (key : String)
  | notATable (key : String)
  | unsupportedValue
  | invalidDatetime
  | tooDeep
  | nestingTooLong
  deriving Repr, DecidableEq

/-- The depth at which a document is refused: a value lies inside fewer arrays and inline
tables than this, and a key has fewer dotted parts. -/
def nestingLimit : Nat := 80

/-- Result of reading a prefix: the value and the rest of the text. -/
abbrev Reading (α : Type) := Except ReadError (α × List Char)

/-! ## §1 The document tree -/

/-- An entry of a table while the document is read. A table remembers whether a header
opened it and whether dotted keys created it; a table that is neither was created on the way
to a deeper header. -/
inductive Item where
  | value (v : Node)
  | table (opened dotted : Bool) (entries : List (String × Item))
  | tables (items : List (List (String × Item)))
  deriving Inhabited

mutual

/-- The node of a finished item. -/
def Item.toNode : Item → Node
  | .value v => v
  | .table _ _ entries => .table (entriesToNode entries)
  | .tables items => .array (tablesToNode items)

/-- The nodes of finished entries. -/
def entriesToNode : List (String × Item) → List (String × Node)
  | [] => []
  | (k, i) :: rest => (k, i.toNode) :: entriesToNode rest

/-- The nodes of an array of tables. -/
def tablesToNode : List (List (String × Item)) → List Node
  | [] => []
  | t :: rest => .table (entriesToNode t) :: tablesToNode rest

end

/-- The entry named `key`. -/
def lookup (entries : List (String × Item)) (key : String) : Option Item :=
  (entries.find? fun e => e.1 = key).map Prod.snd

/-- Replaces the entry named `key`, keeping its place. -/
def replace (entries : List (String × Item)) (key : String) (item : Item) :
    List (String × Item) :=
  entries.map fun e => if e.1 = key then (key, item) else e

/-- How a path of keys may pass through existing tables: a header passes through any table,
a dotted key only through tables that dotted keys created. -/
inductive Passage where
  | header
  | dotted
  deriving DecidableEq

/-- Applies `f` to the entries of the table at `path` below `entries`, creating missing
tables on the way (implicit for a header path, dotted for a dotted key). An array of tables
on the way stands for its last table. -/
def update (passage : Passage) (path : List String) (entries : List (String × Item))
    (f : List (String × Item) → Except ReadError (List (String × Item))) :
    Except ReadError (List (String × Item)) :=
  match path with
  | [] => f entries
  | k :: ks =>
    match lookup entries k with
    | none => do
      let sub ← update passage ks [] f
      pure (entries ++ [(k, .table false (passage = .dotted) sub)])
    | some (.table opened dotted sub) =>
      if passage = .dotted ∧ !dotted then .error (.duplicateKey k)
      else do
        let sub ← update passage ks sub f
        pure (replace entries k (.table opened dotted sub))
    | some (.tables items) =>
      match items.reverse with
      | last :: earlier => do
        let sub ← update passage ks last f
        pure (replace entries k (.tables (earlier.reverse ++ [sub])))
      | [] => .error (.notATable k)
    | some (.value _) => .error (.notATable k)

/-- Opens the table `[path]`: it may exist only as a table that a deeper header created. -/
def openTable (root : List (String × Item)) (path : List String) :
    Except ReadError (List (String × Item)) :=
  match path.reverse with
  | [] => .error .malformed
  | last :: parents =>
    update .header parents.reverse root fun entries =>
      match lookup entries last with
      | none => pure (entries ++ [(last, .table true false [])])
      | some (.table false false sub) => pure (replace entries last (.table true false sub))
      | some _ => .error (.duplicateKey last)

/-- Opens a new table of the array `[[path]]`. -/
def openArrayTable (root : List (String × Item)) (path : List String) :
    Except ReadError (List (String × Item)) :=
  match path.reverse with
  | [] => .error .malformed
  | last :: parents =>
    update .header parents.reverse root fun entries =>
      match lookup entries last with
      | none => pure (entries ++ [(last, .tables [[]])])
      | some (.tables items) => pure (replace entries last (.tables (items ++ [[]])))
      | some _ => .error (.duplicateKey last)

/-- Defines `dotted.key = value` in the table at `current`. -/
def define (root : List (String × Item)) (current : List String) (key : List String)
    (v : Node) : Except ReadError (List (String × Item)) :=
  match key.reverse with
  | [] => .error .malformed
  | last :: parents =>
    update .header current root fun table =>
      update .dotted parents.reverse table fun entries =>
        match lookup entries last with
        | none => pure (entries ++ [(last, .value v)])
        | some _ => .error (.duplicateKey last)

/-! ## §2 Characters and keys -/

/-- Whether a character may appear in a bare key. -/
def isBareKeyChar (c : Char) : Bool :=
  ('A' ≤ c && c ≤ 'Z') || ('a' ≤ c && c ≤ 'z') || ('0' ≤ c && c ≤ '9') || c = '_' ||
    c = '-'

/-- Skips spaces and tabs. -/
def skipSpaces : List Char → List Char
  | c :: r => if c = ' ' || c = '\t' then skipSpaces r else c :: r
  | [] => []

/-- Whether a character is allowed in a comment: no control character but tab. -/
def isCommentChar (c : Char) : Bool := c = '\t' || (32 ≤ c.toNat && c.toNat ≠ 127)

/-- Skips a comment up to the end of its line. -/
def skipComment : List Char → Except ReadError (List Char)
  | '\n' :: r => .ok ('\n' :: r)
  | '\r' :: '\n' :: r => .ok ('\r' :: '\n' :: r)
  | c :: r => if isCommentChar c then skipComment r else .error .malformed
  | [] => .ok []

/-- Skips spaces, tabs, comments and line breaks. -/
def skipBlankLines (cs : List Char) : Except ReadError (List Char) :=
  match cs with
  | ' ' :: r => skipBlankLines r
  | '\t' :: r => skipBlankLines r
  | '\n' :: r => skipBlankLines r
  | '\r' :: '\n' :: r => skipBlankLines r
  | '#' :: r => do
    let rest ← skipComment r
    if _h : rest.length < r.length + 1 then skipBlankLines rest else .ok rest
  | cs => .ok cs
termination_by cs.length

/-- The end of a line: spaces, an optional comment, and a line break or the end of the
text. -/
def endOfLine (cs : List Char) : Except ReadError (List Char) := do
  match skipSpaces cs with
  | '#' :: r =>
    match ← skipComment r with
    | '\n' :: r => pure r
    | '\r' :: '\n' :: r => pure r
    | [] => pure []
    | _ => throw .malformed
  | '\n' :: r => pure r
  | '\r' :: '\n' :: r => pure r
  | [] => pure []
  | _ => throw .malformed

/-- The value of a hexadecimal digit. -/
def hexValue (c : Char) : Option Nat :=
  if '0' ≤ c && c ≤ '9' then some (c.toNat - '0'.toNat)
  else if 'a' ≤ c && c ≤ 'f' then some (c.toNat - 'a'.toNat + 10)
  else if 'A' ≤ c && c ≤ 'F' then some (c.toNat - 'A'.toNat + 10)
  else none

/-- The character of `n` hexadecimal digits; surrogates and values past the last code point
are not characters. -/
def unicodeEscape (n : Nat) (cs : List Char) : Except ReadError (Char × List Char) :=
  let digits := cs.take n
  if digits.length < n then .error .invalidString
  else
    match digits.foldl (fun acc c => acc.bind fun a => (hexValue c).map (a * 16 + ·)) (some 0) with
    | some v =>
      if (0xD800 ≤ v ∧ v < 0xE000) ∨ 0x10FFFF < v then .error .invalidString
      else .ok (Char.ofNat v, cs.drop n)
    | none => .error .invalidString

/-- The character of an escape after a backslash, with the rest of the text. -/
def escape : List Char → Except ReadError (Char × List Char)
  | 'b' :: r => .ok ('\x08', r)
  | 't' :: r => .ok ('\t', r)
  | 'n' :: r => .ok ('\n', r)
  | 'f' :: r => .ok ('\x0c', r)
  | 'r' :: r => .ok ('\r', r)
  | '"' :: r => .ok ('"', r)
  | '\\' :: r => .ok ('\\', r)
  | 'u' :: r => unicodeEscape 4 r
  | 'U' :: r => unicodeEscape 8 r
  | _ => .error .invalidString

/-- Whether a character may stand unescaped in a string: no control character but tab. -/
def isStringChar (c : Char) : Bool := c = '\t' || (32 ≤ c.toNat && c.toNat ≠ 127)

/-- A basic string after its opening quote, on one line. -/
def basicString (acc : List Char) (cs : List Char) : Reading String :=
  match cs with
  | '"' :: r => .ok (String.ofList acc.reverse, r)
  | '\\' :: r =>
    match escape r with
    | .ok (c, rest) =>
      if _h : rest.length < r.length then basicString (c :: acc) rest else .error .invalidString
    | .error e => .error e
  | c :: r => if isStringChar c then basicString (c :: acc) r else .error .invalidString
  | [] => .error .invalidString
termination_by cs.length

/-- A literal string after its opening apostrophe, on one line and without escapes. -/
def literalString (acc : List Char) : List Char → Reading String
  | '\'' :: r => .ok (String.ofList acc.reverse, r)
  | c :: r => if isStringChar c then literalString (c :: acc) r else .error .invalidString
  | [] => .error .invalidString

/-- Skips blanks and line breaks after a line-ending backslash. -/
def trimLineEnd : List Char → List Char
  | ' ' :: r => trimLineEnd r
  | '\t' :: r => trimLineEnd r
  | '\n' :: r => trimLineEnd r
  | '\r' :: '\n' :: r => trimLineEnd r
  | cs => cs

theorem length_trimLineEnd_le (cs : List Char) : (trimLineEnd cs).length ≤ cs.length := by
  induction cs using trimLineEnd.induct <;> simp only [trimLineEnd, List.length_cons] <;> omega

/-- Whether a backslash ends its line: only blanks follow it before the line break. -/
def endsLine : List Char → Bool
  | ' ' :: r => endsLine r
  | '\t' :: r => endsLine r
  | '\n' :: _ => true
  | '\r' :: '\n' :: _ => true
  | _ => false

/-- A multi-line basic string after its three opening quotes. Up to two quotes may end the
content just before the closing three. -/
def multilineBasic (acc : List Char) (cs : List Char) : Reading String :=
  match cs with
  | '"' :: '"' :: '"' :: '"' :: '"' :: r => .ok (String.ofList ('"' :: '"' :: acc).reverse, r)
  | '"' :: '"' :: '"' :: '"' :: r => .ok (String.ofList ('"' :: acc).reverse, r)
  | '"' :: '"' :: '"' :: r => .ok (String.ofList acc.reverse, r)
  | '\\' :: r =>
    if endsLine r then
      have := length_trimLineEnd_le r
      multilineBasic acc (trimLineEnd r)
    else
      match escape r with
      | .ok (c, rest) =>
        if _h : rest.length < r.length then multilineBasic (c :: acc) rest
        else .error .invalidString
      | .error e => .error e
  | '\r' :: '\n' :: r => multilineBasic ('\n' :: acc) r
  | '\n' :: r => multilineBasic ('\n' :: acc) r
  | c :: r => if isStringChar c then multilineBasic (c :: acc) r else .error .invalidString
  | [] => .error .invalidString
termination_by cs.length

/-- A multi-line literal string after its three opening apostrophes. -/
def multilineLiteral (acc : List Char) : List Char → Reading String
  | '\'' :: '\'' :: '\'' :: '\'' :: '\'' :: r =>
    .ok (String.ofList ('\'' :: '\'' :: acc).reverse, r)
  | '\'' :: '\'' :: '\'' :: '\'' :: r => .ok (String.ofList ('\'' :: acc).reverse, r)
  | '\'' :: '\'' :: '\'' :: r => .ok (String.ofList acc.reverse, r)
  | '\r' :: '\n' :: r => multilineLiteral ('\n' :: acc) r
  | '\n' :: r => multilineLiteral ('\n' :: acc) r
  | c :: r => if isStringChar c then multilineLiteral (c :: acc) r else .error .invalidString
  | [] => .error .invalidString

/-- Drops the line break that directly follows the opening delimiter of a multi-line
string. -/
def dropFirstBreak : List Char → List Char
  | '\r' :: '\n' :: r => r
  | '\n' :: r => r
  | cs => cs

/-- One key: bare, or a quoted single-line string. -/
def simpleKey (cs : List Char) : Reading String :=
  match cs with
  | '"' :: r => basicString [] r
  | '\'' :: r => literalString [] r
  | _ =>
    let key := cs.takeWhile isBareKeyChar
    if key.isEmpty then .error .malformed else .ok (String.ofList key, cs.drop key.length)

/-- A dotted key: simple keys joined by dots, with spaces allowed around the dots. -/
def dottedKey (acc : List String) (cs : List Char) : Reading (List String) :=
  match simpleKey (skipSpaces cs) with
  | .error e => .error e
  | .ok (k, rest) =>
    match skipSpaces rest with
    | '.' :: r =>
      if _h : r.length < cs.length then dottedKey (k :: acc) r else .error .malformed
    | rest => .ok ((k :: acc).reverse, rest)
termination_by cs.length

/-- A key of a pair or a header: a dotted key of fewer parts than `nestingLimit`. -/
def readKey (cs : List Char) : Reading (List String) :=
  match dottedKey [] cs with
  | .ok (key, rest) => if nestingLimit ≤ key.length then .error .tooDeep else .ok (key, rest)
  | .error e => .error e

/-! ## §3 Numbers -/

/-- Digits with single underscores between them, as the digit characters; `none` if an
underscore is not between two digits. -/
def undigit (isDigit : Char → Bool) (cs : List Char) : Option (List Char) :=
  let rec go (prevDigit : Bool) : List Char → Option (List Char)
    | [] => if prevDigit then some [] else none
    | '_' :: r => if prevDigit then go false r else none
    | c :: r => if isDigit c then (go true r).map (c :: ·) else none
  match cs with
  | [] => none
  | _ => go false cs

/-- Whether a character is a decimal digit. -/
def isDecimalDigit (c : Char) : Bool := '0' ≤ c && c ≤ '9'

/-- The value of digits in a base. -/
def digitsValue (base : Nat) (cs : List Char) : Nat :=
  cs.foldl (fun acc c => acc * base + ((hexValue c).getD 0)) 0

/-- A decimal integer part: `0`, or digits without a leading zero. -/
def integerPart (cs : List Char) : Option (List Char) :=
  match undigit isDecimalDigit cs with
  | some ['0'] => some ['0']
  | some ('0' :: _) => none
  | other => other

/-- The smallest and largest 64-bit signed integers. -/
def minInteger : Int := -(Nat.pow 2 63)

/-- The largest 64-bit signed integer. -/
def maxInteger : Int := Nat.pow 2 63 - 1

/-- An integer node if the value fits in 64 signed bits. -/
def integerNode (i : Int) : Except ReadError Node :=
  if minInteger ≤ i ∧ i ≤ maxInteger then .ok (.integer i) else .error .invalidNumber

/-- The sign of a number token and its unsigned text. -/
def splitSign : List Char → Bool × Bool × List Char
  | '+' :: r => (true, false, r)
  | '-' :: r => (true, true, r)
  | cs => (false, false, cs)

/-- A decimal float: an integer part, then a fraction, an exponent, or both. A positive value
too large for a double is refused; a negative one becomes negative infinity. -/
def decimalFloat (negative : Bool) (body : List Char) : Except ReadError Node :=
  let (mantissa, exponentText) := match body.span fun c => c ≠ 'e' && c ≠ 'E' with
    | (m, _ :: e) => (m, some e)
    | (m, []) => (m, none)
  let (intText, fracText) := match mantissa.span (· ≠ '.') with
    | (i, _ :: f) => (i, some f)
    | (i, []) => (i, none)
  match integerPart intText with
  | none => .error .invalidNumber
  | some intDigits =>
    let fracDigits := match fracText with
      | none => some []
      | some f => undigit isDecimalDigit f
    let exponent : Option Int := match exponentText with
      | none => some 0
      | some e =>
        let (_, neg, digits) := splitSign e
        (undigit isDecimalDigit digits).map fun ds =>
          let v : Int := digitsValue 10 ds
          if neg then -v else v
    match fracDigits, exponent with
    | some fd, some k =>
      if fracText.isNone && exponentText.isNone then .error .invalidNumber
      else
        let digits := digitsValue 10 (intDigits ++ fd)
        let x := ofDecimal negative digits (k - fd.length)
        if x == infinity false then .error .invalidNumber else .ok (.float x)
    | _, _ => .error .invalidNumber

/-- The node of a number, boolean or special float token. -/
def scalarOfToken (token : List Char) : Except ReadError Node :=
  let s := String.ofList token
  if s = "true" then .ok (.bool true)
  else if s = "false" then .ok (.bool false)
  else if s = "inf" || s = "+inf" then .ok (.float (infinity false))
  else if s = "-inf" then .ok (.float (infinity true))
  else if s = "nan" || s = "+nan" || s = "-nan" then .ok (.float quietNaN)
  else
    match token with
    | '0' :: 'x' :: r =>
      match undigit (fun c => (hexValue c).isSome) r with
      | some ds => integerNode (digitsValue 16 ds)
      | none => .error .invalidNumber
    | '0' :: 'o' :: r =>
      match undigit (fun c => '0' ≤ c && c ≤ '7') r with
      | some ds => integerNode (digitsValue 8 ds)
      | none => .error .invalidNumber
    | '0' :: 'b' :: r =>
      match undigit (fun c => c = '0' || c = '1') r with
      | some ds => integerNode (digitsValue 2 ds)
      | none => .error .invalidNumber
    | _ =>
      let (_, negative, body) := splitSign token
      if body.any fun c => c = '.' || c = 'e' || c = 'E' then decimalFloat negative body
      else
        match integerPart body with
        | some ds =>
          let v : Int := digitsValue 10 ds
          integerNode (if negative then -v else v)
        | none => .error .invalidNumber

/-- Whether a character may belong to a number or boolean token. -/
def isTokenChar (c : Char) : Bool :=
  isBareKeyChar c || c = '+' || c = '.'

/-! ## §4 Dates and times -/

/-- Exactly `n` decimal digits at the front, with their value. -/
def fixedDigits (n : Nat) (cs : List Char) : Option (Nat × List Char) :=
  let ds := cs.take n
  if ds.length = n && ds.all isDecimalDigit then some (digitsValue 10 ds, cs.drop n) else none

/-- Whether a year of the Gregorian calendar is a leap year. -/
def isLeapYear (year : Nat) : Bool := year % 4 = 0 && (year % 100 ≠ 0 || year % 400 = 0)

/-- The number of days of a month (`1` to `12`) of a year. -/
def daysInMonth (year month : Nat) : Nat :=
  match month with
  | 2 => if isLeapYear year then 29 else 28
  | 4 | 6 | 9 | 11 => 30
  | _ => 31

/-- Two digits at the front whose value is at most `top`. -/
def boundedDigits (top : Nat) (cs : List Char) : Option (Nat × List Char) :=
  match fixedDigits 2 cs with
  | some (v, r) => if v ≤ top then some (v, r) else none
  | none => none

/-- The rest of a time after its hour and colon: minutes (to 59), a colon, seconds (to 60,
for a leap second) and optionally a point with one or more digits. -/
def timeRest (cs : List Char) : Except ReadError (List Char) :=
  match boundedDigits 59 cs with
  | some (_, ':' :: r) =>
    match boundedDigits 60 r with
    | some (_, '.' :: r) =>
      let frac := r.takeWhile isDecimalDigit
      if frac.isEmpty then .error .invalidDatetime else .ok (r.drop frac.length)
    | some (_, r) => .ok r
    | none => .error .invalidDatetime
  | _ => .error .invalidDatetime

/-- A time `hh:mm:ss` with an optional fraction at the front. It is `none` unless the text
starts with an hour (to 23) and a colon; from there on, the rest must follow. -/
def partialTime (cs : List Char) : Option (Except ReadError (List Char)) :=
  match boundedDigits 23 cs with
  | some (_, ':' :: r) => some (timeRest r)
  | _ => none

/-- An optional offset after a date's time: `Z`, `z`, or a sign followed by an hour and
minutes. -/
def timeOffset (cs : List Char) : Except ReadError (List Char) :=
  match cs with
  | 'Z' :: r | 'z' :: r => .ok r
  | '+' :: r | '-' :: r =>
    match boundedDigits 23 r with
    | some (_, ':' :: r) =>
      match boundedDigits 59 r with
      | some (_, r) => .ok r
      | none => .error .invalidDatetime
    | _ => .error .invalidDatetime
  | r => .ok r

/-- The time of a date, after the date: a delimiter (`T`, `t` or a space) and a time with an
optional offset, or nothing when no time follows the delimiter. -/
def dateTime (cs : List Char) : Except ReadError (List Char) :=
  match cs with
  | d :: r =>
    if d = 'T' || d = 't' || d = ' ' then
      match partialTime r with
      | some (.ok rest) => timeOffset rest
      | some (.error e) => .error e
      | none => .ok cs
    else .ok cs
  | [] => .ok []

/-- A date `yyyy-mm-dd` with an optional time at the front. It is `none` unless the text
starts with four digits and a hyphen; from there on, a month (`01` to `12`), a hyphen and a
day of that month must follow. -/
def fullDate (cs : List Char) : Option (Except ReadError (List Char)) :=
  match fixedDigits 4 cs with
  | some (year, '-' :: r) =>
    some <|
      match boundedDigits 12 r with
      | some (month, '-' :: r) =>
        match fixedDigits 2 r with
        | some (day, r) =>
          if 1 ≤ month && 1 ≤ day && day ≤ daysInMonth year month then dateTime r
          else .error .invalidDatetime
        | none => .error .invalidDatetime
      | _ => .error .invalidDatetime
  | _ => none

/-- A date or a time at the front, as written, and the rest of the text; `none` when the
text starts like neither. -/
def datetime (cs : List Char) : Option (Reading Node) :=
  let value (rest : List Char) : Node := .datetime (String.ofList (cs.take (cs.length - rest.length)))
  match fullDate cs <|> partialTime cs with
  | some (.ok rest) => some (.ok (value rest, rest))
  | some (.error e) => some (.error e)
  | none => none

/-! ## §5 Values -/

mutual

/-- Reads one value inside `depth` arrays and inline tables; `fuel` bounds the reading. -/
def readValue (fuel depth : Nat) (cs : List Char) : Reading Node :=
  match fuel with
  | 0 => .error .nestingTooLong
  | fuel + 1 =>
    match cs with
    | '"' :: '"' :: '"' :: r =>
      (multilineBasic [] (dropFirstBreak r)).map fun (s, rest) => (.string s, rest)
    | '"' :: r => (basicString [] r).map fun (s, rest) => (.string s, rest)
    | '\'' :: '\'' :: '\'' :: r =>
      (multilineLiteral [] (dropFirstBreak r)).map fun (s, rest) => (.string s, rest)
    | '\'' :: r => (literalString [] r).map fun (s, rest) => (.string s, rest)
    | '[' :: r =>
      if nestingLimit ≤ depth + 1 then .error .tooDeep else readArray fuel (depth + 1) [] r
    | '{' :: r =>
      if nestingLimit ≤ depth + 1 then .error .tooDeep
      else
        match skipSpaces r with
        | '}' :: rest => .ok (.table [], rest)
        | rest => readInline fuel (depth + 1) [] rest
    | _ =>
      match datetime cs with
      | some result => result
      | none =>
        let token := cs.takeWhile isTokenChar
        let rest := cs.drop token.length
        if token.isEmpty then .error .unsupportedValue
        else (scalarOfToken token).map fun v => (v, rest)

/-- Array items after the opening bracket, the array being the `depth`-th container:
values separated by commas, a trailing comma allowed, with blanks, comments and line breaks
anywhere between them. -/
def readArray (fuel depth : Nat) (acc : List Node) (cs : List Char) : Reading Node :=
  match fuel with
  | 0 => .error .nestingTooLong
  | fuel + 1 =>
    match skipBlankLines cs with
    | .error e => .error e
    | .ok (']' :: r) => .ok (.array acc.reverse, r)
    | .ok rest =>
      match readValue fuel depth rest with
      | .error e => .error e
      | .ok (v, rest) =>
        match skipBlankLines rest with
        | .error e => .error e
        | .ok (',' :: r) => readArray fuel depth (v :: acc) r
        | .ok (']' :: r) => .ok (.array (v :: acc).reverse, r)
        | .ok _ => .error .malformed

/-- Inline table entries after the opening brace, the table being the `depth`-th container,
on one line, separated by commas and without a trailing comma. Dotted keys build nested
tables inside it. -/
def readInline (fuel depth : Nat) (acc : List (String × Item)) (cs : List Char) :
    Reading Node :=
  match fuel with
  | 0 => .error .nestingTooLong
  | fuel + 1 =>
    match readKey cs with
    | .error e => .error e
    | .ok (key, rest) =>
      match skipSpaces rest with
      | '=' :: r =>
        match readValue fuel depth (skipSpaces r) with
        | .error e => .error e
        | .ok (v, rest) =>
          match define acc [] key v with
          | .error e => .error e
          | .ok acc =>
            match skipSpaces rest with
            | ',' :: r => readInline fuel depth acc (skipSpaces r)
            | '}' :: r => .ok (.table (entriesToNode acc), r)
            | _ => .error .malformed
      | _ => .error .malformed

end

/-! ## §6 Documents -/

/-- A table header after its opening bracket, `[[` when `array`. -/
def header (array : Bool) (cs : List Char) : Except ReadError (List String × List Char) := do
  let (key, rest) ← (readKey cs : Except ReadError (List String × List Char))
  match skipSpaces rest, array with
  | ']' :: ']' :: r, true => pure (key, r)
  | ']' :: r, false => pure (key, r)
  | _, _ => throw .malformed

/-- Reads the lines of a document: blank lines, comments, headers and key-value pairs, into
the tree `root`, with `current` the path of the table that pairs go to. -/
def readLines (fuel : Nat) (root : List (String × Item)) (current : List String)
    (cs : List Char) : Except ReadError (List (String × Item)) :=
  match fuel with
  | 0 => .error .nestingTooLong
  | fuel + 1 => do
    match ← skipBlankLines cs with
    | [] => pure root
    | '[' :: '[' :: r =>
      let (path, rest) ← (header true r : Except ReadError (List String × List Char))
      let root ← openArrayTable root path
      readLines fuel root path (← endOfLine rest)
    | '[' :: r =>
      let (path, rest) ← (header false r : Except ReadError (List String × List Char))
      let root ← openTable root path
      readLines fuel root path (← endOfLine rest)
    | line =>
      let (key, rest) ← (readKey line : Except ReadError (List String × List Char))
      match skipSpaces rest with
      | '=' :: r =>
        let (v, rest) ←
          (readValue (r.length + 1) 0 (skipSpaces r) : Except ReadError (Node × List Char))
        let root ← define root current key v
        readLines fuel root current (← endOfLine rest)
      | _ => throw .malformed

/-- A byte order mark at the very start of a document is not part of it. -/
def dropByteOrderMark : List Char → List Char
  | '\uFEFF' :: r => r
  | cs => cs

/-- Parses a TOML document into its table. -/
def read (text : String) : Except ReadError Node := do
  let cs := dropByteOrderMark text.toList
  let root ← readLines (cs.length + 1) [] [] cs
  pure (.table (entriesToNode root))

end SteadyAdjoint.Document.Toml
