import SteadyAdjoint.Document.Node

/-!
# Reading JSON

`Json.read` parses one JSON text into a `Node`. The grammar is the strict one: no comments,
no trailing commas, no `NaN`, one value followed only by blanks, at most 127 nested
containers.

Numbers follow one fixed reading rule, and settings depend on it:

* digits alone are an integer while they fit in 64 bits (or, after a minus sign, down to
  `-2^63`); longer digit strings, and `-0`, are doubles;
* a number with a point or an exponent is a double computed from its digits as follows: the
  first digits that fit in 64 bits form a significand `s` and the rest only move the decimal
  exponent `k`; the double nearest to `s` is then multiplied by `10^k` or divided by `10^-k`,
  each power itself rounded once to a double (exponents past 308 are divided by `10^308`
  first). The result is the nearest double for short inputs and may be one unit off for
  seventeen-digit inputs. A result past the largest double is an error, not an infinity.

A text that is not JSON gives a `SyntaxError`: what was wrong, and the line and column where
it was found. Columns count bytes of UTF-8 from 1. An error about a character points at its
first byte, which counts as read; an error at the end of a number, an escape or the text
points just after what was read.
-/

namespace SteadyAdjoint.Document.Json

open SteadyAdjoint.Binary64

/-- What is wrong with a text that is not JSON. -/
inductive ErrorCode where
  | eofWhileParsingList
  | eofWhileParsingObject
  | eofWhileParsingString
  | eofWhileParsingValue
  | expectedColon
  | expectedListCommaOrEnd
  | expectedObjectCommaOrEnd
  | expectedSomeIdent
  | expectedSomeValue
  | invalidEscape
  | invalidNumber
  | numberOutOfRange
  | controlCharacter
  | keyMustBeAString
  | loneLeadingSurrogate
  | trailingComma
  | trailingCharacters
  | unexpectedEndOfHexEscape
  | recursionLimitExceeded
  deriving Repr, DecidableEq

/-- The wording of an error. -/
def ErrorCode.message : ErrorCode → String
  | .eofWhileParsingList => "EOF while parsing a list"
  | .eofWhileParsingObject => "EOF while parsing an object"
  | .eofWhileParsingString => "EOF while parsing a string"
  | .eofWhileParsingValue => "EOF while parsing a value"
  | .expectedColon => "expected `:`"
  | .expectedListCommaOrEnd => "expected `,` or `]`"
  | .expectedObjectCommaOrEnd => "expected `,` or `\x7d`"
  | .expectedSomeIdent => "expected ident"
  | .expectedSomeValue => "expected value"
  | .invalidEscape => "invalid escape"
  | .invalidNumber => "invalid number"
  | .numberOutOfRange => "number out of range"
  | .controlCharacter => "control character (\\u0000-\\u001F) found while parsing a string"
  | .keyMustBeAString => "key must be a string"
  | .loneLeadingSurrogate => "lone leading surrogate in hex escape"
  | .trailingComma => "trailing comma"
  | .trailingCharacters => "trailing characters"
  | .unexpectedEndOfHexEscape => "unexpected end of hex escape"
  | .recursionLimitExceeded => "recursion limit exceeded"

/-- A failure while reading: its cause, and how many bytes of the text lie after the point
where it was found. -/
structure Failure where
  code : ErrorCode
  left : Nat

/-- The length of characters in UTF-8 bytes. -/
def byteLength (cs : List Char) : Nat := cs.foldl (fun n c => n + c.utf8Size) 0

/-- A failure at the first byte of `cs`, which counts as read. -/
def failAt (code : ErrorCode) (cs : List Char) : Failure := ⟨code, byteLength cs - 1⟩

/-- A failure just before `cs`. -/
def failBefore (code : ErrorCode) (cs : List Char) : Failure := ⟨code, byteLength cs⟩

/-- Result of reading a prefix: the value and the rest of the text. -/
abbrev Reading (α : Type) := Except Failure (α × List Char)

/-! ## §1 Numbers -/

/-- Whether a character is a decimal digit. -/
def isDigit (c : Char) : Bool := '0' ≤ c && c ≤ '9'

/-- The value of a decimal digit. -/
def digitValue (c : Char) : Nat := c.toNat - '0'.toNat

/-- The largest 64-bit unsigned integer. -/
def maxSignificand : Nat := Nat.pow 2 64 - 1

/-- The largest 32-bit signed integer, the bound of a written exponent. -/
def maxExponent : Nat := Nat.pow 2 31 - 1

/-- The powers of ten `10^0 … 10^308`, each rounded once to a double. -/
def powersOfTen : Array Float := (Array.range 309).map fun k => ofRatio false (Nat.pow 10 k) 1

/-- Scales a double by `10^k` with one multiplication or division by a rounded power of ten;
exponents below `-308` divide by `10^308` first. `none` when the product overflows. -/
def scaleByTen (f : Float) (k : Int) : Option Float :=
  if h : k.natAbs ≤ 308 then
    let p := powersOfTen.getD k.natAbs 1
    if 0 ≤ k then
      let g := f * p
      if g.isInf then none else some g
    else some (f / p)
  else if f == 0 then some f
  else if 0 ≤ k then none
  else scaleByTen (f / powersOfTen.getD 308 1) (k + 308)
termination_by k.natAbs
decreasing_by omega

/-- The double of a significand and a decimal exponent, negated when `negative`, with the
text `rest` after the number. -/
def fromParts (negative : Bool) (significand : Nat) (k : Int) (rest : List Char) :
    Reading Float :=
  match scaleByTen (ofNat significand) k with
  | some f => .ok (if negative then -f else f, rest)
  | none => .error (failBefore .numberOutOfRange rest)

/-- Clamps an exponent to the 32-bit signed range. -/
def saturate (k : Int) : Int := max (-(Nat.pow 2 31 : Int)) (min k (Nat.pow 2 31 - 1))

/-- Skips a run of digits. -/
def skipDigits : List Char → List Char
  | c :: r => if isDigit c then skipDigits r else c :: r
  | [] => []

/-- The digits of a written exponent, accumulated while they fit in 32 bits. An exponent
that does not fit makes a nonzero number with a positive exponent out of range and any
other number zero. -/
def exponentDigits (zeroSignificand positiveExponent : Bool) (acc : Nat) :
    List Char → Except Failure (Option Nat × List Char)
  | c :: r =>
    if isDigit c then
      if maxExponent < acc * 10 + digitValue c then
        if !zeroSignificand && positiveExponent then .error (failBefore .numberOutOfRange r)
        else .ok (none, skipDigits r)
      else exponentDigits zeroSignificand positiveExponent (acc * 10 + digitValue c) r
    else .ok (some acc, c :: r)
  | [] => .ok (some acc, [])

/-- Reads the exponent after `e` or `E` and builds the double. -/
def exponentPart (negative : Bool) (significand : Nat) (start : Int) (cs : List Char) :
    Reading Float :=
  let (positiveExponent, cs) := match cs with
    | '+' :: r => (true, r)
    | '-' :: r => (false, r)
    | r => (true, r)
  match cs with
  | c :: r =>
    if isDigit c then
      match exponentDigits (significand = 0) positiveExponent (digitValue c) r with
      | .error e => .error e
      | .ok (none, rest) => .ok (zero negative, rest)
      | .ok (some k, rest) =>
        fromParts negative significand (saturate (if positiveExponent then start + k else start - k))
          rest
    else .error (failAt .invalidNumber (c :: r))
  | [] => .error (failBefore .eofWhileParsingValue [])

/-- After the significand stopped growing: skips the remaining fraction digits. -/
def fractionOverflow (negative : Bool) (significand : Nat) (k : Int) (cs : List Char) :
    Reading Float :=
  match skipDigits cs with
  | c :: r =>
    if c = 'e' || c = 'E' then exponentPart negative significand k r
    else fromParts negative significand k (c :: r)
  | [] => fromParts negative significand k []

/-- Fraction digits after the point; `count` of them have joined the significand. -/
def fractionDigits (negative : Bool) (significand : Nat) (before : Int) (count : Nat) :
    List Char → Reading Float
  | c :: r =>
    if isDigit c then
      if maxSignificand < significand * 10 + digitValue c then
        fractionOverflow negative significand (before - count) (c :: r)
      else fractionDigits negative (significand * 10 + digitValue c) before (count + 1) r
    else if count = 0 then .error (failAt .invalidNumber (c :: r))
    else if c = 'e' || c = 'E' then exponentPart negative significand (before - count) r
    else fromParts negative significand (before - count) (c :: r)
  | [] =>
    if count = 0 then .error (failAt .eofWhileParsingValue [])
    else fromParts negative significand (before - count) []

/-- Integer digits past 64 bits: each only raises the decimal exponent. -/
def longInteger (negative : Bool) (significand : Nat) (k : Int) : List Char → Reading Float
  | c :: r =>
    if isDigit c then longInteger negative significand (k + 1) r
    else if c = '.' then fractionDigits negative significand k 0 r
    else if c = 'e' || c = 'E' then exponentPart negative significand k r
    else fromParts negative significand k (c :: r)
  | [] => fromParts negative significand k []

/-- The node of a number whose integer digits all fit: a double if a point or an exponent
follows, an integer otherwise (a negative one only down to `-2^63`, and `-0` is a double). -/
def finishNumber (negative : Bool) (significand : Nat) : List Char → Reading Node
  | '.' :: r => (fractionDigits negative significand 0 0 r).map fun (f, rest) => (.float f, rest)
  | c :: r =>
    if c = 'e' || c = 'E' then
      (exponentPart negative significand 0 r).map fun (f, rest) => (.float f, rest)
    else .ok (integerNode negative significand, c :: r)
  | [] => .ok (integerNode negative significand, [])
where
  integerNode (negative : Bool) (significand : Nat) : Node :=
    if !negative then .integer significand
    else if 1 ≤ significand ∧ significand ≤ Nat.pow 2 63 then .integer (-(significand : Int))
    else .float (ofRatio true significand 1)

/-- Integer digits while they fit in 64 bits. -/
def integerDigits (negative : Bool) (significand : Nat) : List Char → Reading Node
  | c :: r =>
    if isDigit c then
      if maxSignificand < significand * 10 + digitValue c then
        (longInteger negative significand 0 (c :: r)).map fun (f, rest) => (.float f, rest)
      else integerDigits negative (significand * 10 + digitValue c) r
    else finishNumber negative significand (c :: r)
  | [] => finishNumber negative significand []

/-- Reads a number; a leading zero may not be followed by another digit. -/
def readNumber (cs : List Char) : Reading Node :=
  let (negative, cs) := match cs with
    | '-' :: r => (true, r)
    | r => (false, r)
  match cs with
  | '0' :: r =>
    match r with
    | c :: _ => if isDigit c then .error (failAt .invalidNumber r) else finishNumber negative 0 r
    | [] => finishNumber negative 0 []
  | c :: r =>
    if isDigit c then integerDigits negative (digitValue c) r
    else .error (failAt .invalidNumber (c :: r))
  | [] => .error (failBefore .eofWhileParsingValue [])

/-! ## §2 Strings -/

/-- The value of a hexadecimal digit. -/
def hexValue (c : Char) : Option Nat :=
  if '0' ≤ c && c ≤ '9' then some (c.toNat - '0'.toNat)
  else if 'a' ≤ c && c ≤ 'f' then some (c.toNat - 'a'.toNat + 10)
  else if 'A' ≤ c && c ≤ 'F' then some (c.toNat - 'A'.toNat + 10)
  else none

/-- Four hexadecimal digits as one UTF-16 unit. Four bytes that are not all hexadecimal
digits are an invalid escape after them; fewer than four bytes end the text inside the
string. -/
def readUnit (cs : List Char) : Except Failure (Nat × List Char) :=
  let value : Option (Nat × List Char) := match cs with
    | a :: b :: c :: d :: r =>
      match hexValue a, hexValue b, hexValue c, hexValue d with
      | some a, some b, some c, some d => some (((a * 16 + b) * 16 + c) * 16 + d, r)
      | _, _, _, _ => none
    | _ => none
  match value with
  | some v => .ok v
  | none =>
    if 4 ≤ byteLength cs then .error ⟨.invalidEscape, byteLength cs - 4⟩
    else .error ⟨.eofWhileParsingString, 0⟩

/-- The character of a `\u` escape, after the `u`. A leading surrogate must be followed by
the escape of a trailing one, and the pair is one character; a trailing surrogate alone is
an error. -/
def readUnicodeEscape (cs : List Char) : Except Failure (Char × List Char) := do
  let (u, rest) ← readUnit cs
  if 0xDC00 ≤ u ∧ u < 0xE000 then throw (failBefore .loneLeadingSurrogate rest)
  else if 0xD800 ≤ u ∧ u < 0xDC00 then
    match rest with
    | '\\' :: 'u' :: r =>
      let (v, rest) ← readUnit r
      if 0xDC00 ≤ v ∧ v < 0xE000 then
        pure (Char.ofNat (0x10000 + (u - 0xD800) * 0x400 + (v - 0xDC00)), rest)
      else throw (failBefore .loneLeadingSurrogate rest)
    | ['\\'] | [] => throw ⟨.eofWhileParsingString, 0⟩
    | '\\' :: r => throw (failAt .unexpectedEndOfHexEscape r)
    | r => throw (failAt .unexpectedEndOfHexEscape r)
  else pure (Char.ofNat u, rest)

/-- The character of a simple escape: quote, backslash, slash and the five letters. -/
def simpleEscape (c : Char) : Option Char :=
  if c = '"' then some '"' else if c = '\\' then some '\\' else if c = '/' then some '/'
  else if c = 'b' then some '\x08' else if c = 'f' then some '\x0c'
  else if c = 'n' then some '\n' else if c = 'r' then some '\r'
  else if c = 't' then some '\t' else none

/-- The characters of a string up to its closing quote. -/
def readStringChars (acc : List Char) (cs : List Char) : Reading String :=
  match cs with
  | '"' :: r => .ok (String.ofList acc.reverse, r)
  | '\\' :: c :: r =>
    match simpleEscape c with
    | some e => readStringChars (e :: acc) r
    | none =>
      if c = 'u' then
        match readUnicodeEscape r with
        | .ok (e, rest) =>
          -- the escape consumed at least four characters, so `rest` is shorter than `r`
          if _h : rest.length < r.length then readStringChars (e :: acc) rest
          else .error (failBefore .invalidEscape rest)
        | .error err => .error err
      else .error (failAt .invalidEscape (c :: r))
  | ['\\'] => .error ⟨.eofWhileParsingString, 0⟩
  | c :: r =>
    if c.toNat < 32 then .error (failAt .controlCharacter (c :: r))
    else readStringChars (c :: acc) r
  | [] => .error ⟨.eofWhileParsingString, 0⟩
termination_by cs.length
decreasing_by all_goals simp_all <;> omega

/-! ## §3 Values -/

/-- Skips blanks: space, tab, line feed and carriage return. -/
def skipBlanks : List Char → List Char
  | c :: r => if c = ' ' || c = '\t' || c = '\n' || c = '\r' then skipBlanks r else c :: r
  | [] => []

/-- The rest of a literal (`null`, `true`, `false`) after its first letter. -/
def readLiteral : List Char → List Char → Except Failure (List Char)
  | [], cs => .ok cs
  | e :: es, c :: r => if c = e then readLiteral es r else .error (failAt .expectedSomeIdent (c :: r))
  | _ :: _, [] => .error ⟨.eofWhileParsingValue, 0⟩

mutual

/-- Reads one value. `depth` is how many more containers may open; `fuel` bounds the chain
of nested calls and is never smaller than the text that is left. -/
def readValue (fuel depth : Nat) (cs : List Char) : Reading Node :=
  match fuel with
  | 0 => .error (failBefore .recursionLimitExceeded cs)
  | fuel + 1 =>
    match skipBlanks cs with
    | 'n' :: r => (readLiteral ['u', 'l', 'l'] r).map fun rest => (.null, rest)
    | 't' :: r => (readLiteral ['r', 'u', 'e'] r).map fun rest => (.bool true, rest)
    | 'f' :: r => (readLiteral ['a', 'l', 's', 'e'] r).map fun rest => (.bool false, rest)
    | '"' :: r => (readStringChars [] r).map fun (s, rest) => (.string s, rest)
    | '[' :: r =>
      if depth ≤ 1 then .error (failAt .recursionLimitExceeded ('[' :: r))
      else readItems fuel (depth - 1) [] r
    | '{' :: r =>
      if depth ≤ 1 then .error (failAt .recursionLimitExceeded ('{' :: r))
      else readEntries fuel (depth - 1) [] r
    | c :: r =>
      if c = '-' || isDigit c then readNumber (c :: r)
      else .error (failAt .expectedSomeValue (c :: r))
    | [] => .error (failAt .eofWhileParsingValue [])

/-- Reads array items after the opening bracket or an item: the closing bracket, the first
item, or a comma and the next item. -/
def readItems (fuel depth : Nat) (acc : List Node) (cs : List Char) : Reading Node :=
  match fuel with
  | 0 => .error (failBefore .recursionLimitExceeded cs)
  | fuel + 1 =>
    let next : Except Failure (List Char) :=
      match skipBlanks cs, acc with
      | c :: r, [] => .ok (c :: r)
      | ',' :: r, _ :: _ =>
        match skipBlanks r with
        | ']' :: r => .error (failAt .trailingComma (']' :: r))
        | [] => .error (failAt .eofWhileParsingValue [])
        | r => .ok r
      | c :: r, _ :: _ => .error (failAt .expectedListCommaOrEnd (c :: r))
      | [], _ => .error (failAt .eofWhileParsingList [])
    match skipBlanks cs with
    | ']' :: r => .ok (.array acc.reverse, r)
    | _ =>
      match next with
      | .error e => .error e
      | .ok r =>
        match readValue fuel depth r with
        | .error e => .error e
        | .ok (v, rest) => readItems fuel depth (v :: acc) rest

/-- Reads table entries after the opening brace or an entry: the closing brace, the first
entry, or a comma and the next entry, an entry being a quoted key, a colon and a value. -/
def readEntries (fuel depth : Nat) (acc : List (String × Node)) (cs : List Char) :
    Reading Node :=
  match fuel with
  | 0 => .error (failBefore .recursionLimitExceeded cs)
  | fuel + 1 =>
    let key : Except Failure (List Char) :=
      match skipBlanks cs, acc with
      | ',' :: r, _ :: _ => .ok (skipBlanks r)
      | c :: r, [] => .ok (c :: r)
      | c :: r, _ :: _ => .error (failAt .expectedObjectCommaOrEnd (c :: r))
      | [], _ => .error (failAt .eofWhileParsingObject [])
    match skipBlanks cs with
    | '}' :: r => .ok (.table acc.reverse, r)
    | _ =>
      match key with
      | .error e => .error e
      | .ok ('"' :: r) =>
        match readStringChars [] r with
        | .error e => .error e
        | .ok (k, rest) =>
          match skipBlanks rest with
          | ':' :: r =>
            match readValue fuel depth r with
            | .error e => .error e
            | .ok (v, rest) => readEntries fuel depth ((k, v) :: acc) rest
          | [] => .error (failAt .eofWhileParsingObject [])
          | c :: r => .error (failAt .expectedColon (c :: r))
      | .ok ('}' :: r) => .error (failAt .trailingComma ('}' :: r))
      | .ok [] => .error (failAt .eofWhileParsingValue [])
      | .ok (c :: r) => .error (failAt .keyMustBeAString (c :: r))

end

/-- A JSON syntax error: what was wrong, and the line and the column (in bytes, from 1)
where it was found. -/
structure SyntaxError where
  code : ErrorCode
  line : Nat
  column : Nat

/-- The wording of a syntax error, with its place. -/
def SyntaxError.message (e : SyntaxError) : String :=
  e.code.message ++ " at line " ++ toString e.line ++ " column " ++ toString e.column

/-- The line and column after reading the given bytes: a line feed starts a new line. -/
def position (bytes : List UInt8) : Nat × Nat :=
  bytes.foldl (fun (line, column) (b : UInt8) =>
    if b = 10 then (line + 1, 0) else (line, column + 1)) (1, 0)

/-- The syntax error of a failure while reading `text`. -/
def locate (text : String) (f : Failure) : SyntaxError :=
  let bytes := text.toUTF8.toList
  let (line, column) := position (bytes.take (bytes.length - f.left))
  { code := f.code, line, column }

/-- Parses a whole JSON text: one value and nothing after it but blanks. -/
def read (text : String) : Except SyntaxError Node :=
  let cs := text.toList
  match readValue (2 * cs.length + 4) 128 cs with
  | .ok (v, rest) =>
    match skipBlanks rest with
    | [] => .ok v
    | r => .error (locate text (failAt .trailingCharacters r))
  | .error f => .error (locate text f)

end SteadyAdjoint.Document.Json
