import SteadyAdjoint.Binary64.Shortest

/-!
# Writing doubles as text

Two layouts of the same shortest digits are used by this library.

* `toPlainString` writes the digits positionally, never with an exponent: `1000000000000`,
  `0.000000000001`, `2.5`, `-0`, and `NaN`, `inf`, `-inf` for the values that have no digits.
  A tie between two shortest decimals goes away from zero. Reports use it.
* `toJsonString` writes a number that a JSON reader takes for a double: positional with a
  `.0` for integral values up to sixteen digits (`3.0`, `1000000000000.0`), a leading `0.`
  down to `0.00001`, and scientific notation beyond (`1e-12`, `1.5e20`). Non-finite values
  have no JSON number; they are written by the caller. A tie between two shortest decimals
  goes to the even last digit.
-/

namespace SteadyAdjoint.Binary64

/-- `n` copies of the digit zero. -/
def zeros (n : Nat) : String := String.ofList (List.replicate n '0')

/-- The digits of a decimal as text, most significant first. -/
def Decimal.digitText (d : Decimal) : String := toString d.digits

/-- Positional text of `digits · 10^exponent`: the digits followed by zeros, or split by a
point, or after `0.` and leading zeros. -/
def Decimal.positional (d : Decimal) : String :=
  let ds := d.digitText
  if 0 ≤ d.exponent then ds ++ zeros d.exponent.toNat
  else
    let point : Int := (ds.length : Int) + d.exponent
    if 0 < point then
      let cs := ds.toList
      String.ofList (cs.take point.toNat) ++ "." ++ String.ofList (cs.drop point.toNat)
    else "0." ++ zeros (-point).toNat ++ ds

/-- Positional text with the shortest digits that read back as `x`, a tie away from zero. -/
def toPlainString (x : Float) : String :=
  match decode x with
  | .nan => "NaN"
  | .infinite negative => if negative then "-inf" else "inf"
  | .finite negative m e =>
    let sign := if negative then "-" else ""
    if m = 0 then sign ++ "0" else sign ++ (shortest .away m e).positional

/-- The exponent part of scientific notation, `e` and a signed integer. -/
def exponentText (k : Int) : String :=
  "e" ++ (if k < 0 then "-" ++ toString (-k).toNat else toString k.toNat)

/-- JSON text of a finite double with its shortest digits. With `L` digits and the decimal
point `k` places after the first digit's position, the layout is positional while `k` is at
most sixteen and above minus five, and scientific otherwise. -/
def Decimal.jsonLayout (d : Decimal) : String :=
  let ds := d.digitText
  let len : Int := ds.length
  let kk := len + d.exponent
  if 0 ≤ d.exponent ∧ kk ≤ 16 then ds ++ zeros d.exponent.toNat ++ ".0"
  else if 0 < kk ∧ kk ≤ 16 then
    let cs := ds.toList
    String.ofList (cs.take kk.toNat) ++ "." ++ String.ofList (cs.drop kk.toNat)
  else if -5 < kk ∧ kk ≤ 0 then "0." ++ zeros (-kk).toNat ++ ds
  else
    match ds.toList with
    | [c] => String.singleton c ++ exponentText (kk - 1)
    | c :: rest => String.singleton c ++ "." ++ String.ofList rest ++ exponentText (kk - 1)
    | [] => "0.0"

/-- JSON number text of a finite double; `none` for NaN and the infinities. -/
def toJsonString (x : Float) : Option String :=
  match decode x with
  | .nan => none
  | .infinite _ => none
  | .finite negative m e =>
    let sign := if negative then "-" else ""
    if m = 0 then some (sign ++ "0.0") else some (sign ++ (shortest .toEven m e).jsonLayout)

end SteadyAdjoint.Binary64
