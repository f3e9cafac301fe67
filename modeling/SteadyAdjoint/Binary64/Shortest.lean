import SteadyAdjoint.Binary64.Basic

/-!
# Shortest decimals of doubles

Every positive finite double `m · 2^e` owns an interval of reals that round to it: half a
unit in the last place on each side, with the lower half-gap halved at the bottom of a
binade, and both ends included exactly when `m` is even. `shortest` returns the decimal with
the fewest significant digits inside that interval, and of two such decimals the one nearer to
the double; an exact tie is settled by a `Tie`, toward the even last digit or away from zero.

The search tries one precision after another. For `p` significant digits it looks only at the
two neighbours of the double on the grid of `p`-digit decimals: the interval is convex and
holds the double, so if any `p`-digit decimal lies in it, one of the two neighbours does.
All comparisons are exact, in natural numbers.
-/

namespace SteadyAdjoint.Binary64

/-- A decimal `digits · 10^exponent`. -/
structure Decimal where
  digits : Nat
  exponent : Int
  deriving Repr, DecidableEq

/-- How an exact tie between two decimals of the same length is settled. -/
inductive Tie where
  /-- The decimal with the even last digit. -/
  | toEven
  /-- The decimal of larger magnitude. -/
  | away
  deriving DecidableEq

/-- The rounding interval of a positive double, scaled to a common denominator: the double is
`center / den`, the interval runs from `low / den` to `high / den`, and `closed` says whether
its ends belong to it. -/
structure Interval where
  center : Nat
  low : Nat
  high : Nat
  den : Nat
  closed : Bool

/-- The rounding interval of `m · 2^e`, computed at the scale `2^(e-2)` so that both
half-gaps are whole. -/
def Interval.ofFinite (m : Nat) (e : Int) : Interval :=
  let k := e - 2
  let up := Nat.pow 2 k.toNat
  let lowGap := if m = Nat.pow 2 52 ∧ subnormalExponent < e then 1 else 2
  { center := 4 * m * up
    low := (4 * m - lowGap) * up
    high := (4 * m + 2) * up
    den := Nat.pow 2 (-k).toNat
    closed := m % 2 = 0 }

/-- Compares `q · 10^s` with `x / den`. -/
def compareScaled (q : Nat) (s : Int) (x den : Nat) : Ordering :=
  if 0 ≤ s then compare (q * Nat.pow 10 s.toNat * den) x
  else compare (q * den) (x * Nat.pow 10 (-s).toNat)

/-- Whether `q · 10^s` lies in the interval. -/
def Interval.contains (i : Interval) (q : Nat) (s : Int) : Bool :=
  let aboveLow := match compareScaled q s i.low i.den with
    | .gt => true
    | .eq => i.closed
    | .lt => false
  let belowHigh := match compareScaled q s i.high i.den with
    | .lt => true
    | .eq => i.closed
    | .gt => false
  aboveLow && belowHigh

/-- The floor of the decimal logarithm of `center / den` (for a positive center): it is the
difference of the two floors or one less. -/
def Interval.decimalExponent (i : Interval) : Int :=
  let est : Int := (decimalLog i.center : Int) - (decimalLog i.den : Int)
  if compareScaled 1 est i.center i.den = .gt then est - 1 else est

/-- Removes trailing zero digits, raising the exponent for each. -/
def Decimal.trim (d : Decimal) : Decimal :=
  if h : 0 < d.digits ∧ d.digits % 10 = 0 then
    Decimal.trim ⟨d.digits / 10, d.exponent + 1⟩
  else d
termination_by d.digits
decreasing_by exact Nat.div_lt_self h.1 (by decide)

/-- The grid `10^s` of `p` significant digits around the double, with `s = E - p + 1` where
`E` is the decimal exponent, and the lower neighbour `q · 10^s` of the double on it. -/
def Interval.grid (i : Interval) (p : Nat) : Nat × Int :=
  let s := i.decimalExponent + 1 - p
  let q := if 0 ≤ s then i.center / (i.den * Nat.pow 10 s.toNat)
    else i.center * Nat.pow 10 (-s).toNat / i.den
  (q, s)

/-- Of the two neighbours `q · 10^s` and `(q + 1) · 10^s`, the one nearer to the double; an
exact tie is settled by `tie`. -/
def Interval.nearer (tie : Tie) (i : Interval) (q : Nat) (s : Int) : Decimal :=
  match compareScaled (2 * q + 1) s (2 * i.center) i.den with
  | .lt => ⟨q + 1, s⟩
  | .gt => ⟨q, s⟩
  | .eq =>
    match tie with
    | .toEven => if q % 2 = 0 then ⟨q, s⟩ else ⟨q + 1, s⟩
    | .away => ⟨q + 1, s⟩

/-- The decimal of `p` significant digits chosen inside the interval, if there is one: the
neighbour that lies inside, or the nearer when both do. -/
def Interval.pick (tie : Tie) (i : Interval) (p : Nat) : Option Decimal :=
  let (q, s) := i.grid p
  let lowIn := i.contains q s
  let highIn := i.contains (q + 1) s
  if lowIn && highIn then some (i.nearer tie q s)
  else if lowIn then some ⟨q, s⟩
  else if highIn then some ⟨q + 1, s⟩
  else none

/-- The shortest decimal in the rounding interval of the positive double `m · 2^e`, without
trailing zeros, a tie between two of them settled by `tie`. Seventeen significant digits
always suffice for a double, so the search ends at the nearer seventeen-digit neighbour. -/
def shortest (tie : Tie) (m : Nat) (e : Int) : Decimal :=
  let i := Interval.ofFinite m e
  let found := (List.range 17).findSome? fun k => i.pick tie (k + 1)
  let d := match found with
    | some d => d
    | none => i.nearer tie (i.grid 17).1 (i.grid 17).2
  d.trim

end SteadyAdjoint.Binary64
