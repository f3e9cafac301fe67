import SteadyAdjoint.Binary64.Basic
import SteadyAdjoint.Linear.Scalar

/-!
# Doubles computed in the logic

A `Double` is a double given by its 64-bit pattern, with the IEEE operations computed from
exact values. Every finite operand is `±m · 2^e` (`decodeBits`); the exact sum, product,
quotient or square root is formed in integer arithmetic, and `ratioBits` rounds it to the
nearest double, a tie going to the even mantissa and a value past the largest double to an
infinity. This is binary64 arithmetic in round-to-nearest, ties-to-even.

The special cases are those of IEEE 754:

* an operation with a NaN operand gives NaN, and so do `∞ - ∞`, `0 · ∞`, `0 / 0`, `∞ / ∞`
  and the square root of a number below zero (always the same quiet NaN);
* an exact zero sum is `-0` only when both addends are `-0`;
* a product or a quotient carries the exclusive or of the signs, also when it is zero or
  infinite, and a nonzero number over zero is an infinity;
* the square root keeps a zero as it is.

Comparisons are those of the exact values with NaN unordered: `<` and `≤` are false when a
side is NaN, and `==` is IEEE equality, true of `0` and `-0` and false of a NaN and itself.
Negation and the absolute value change only the sign bit.

Every definition is structural arithmetic on naturals, so the kernel evaluates a
computation on doubles, and `instScalarDouble` runs every solver of the library on them: a
law of a solver over `Double` is a law of that solver in binary64.
-/

namespace SteadyAdjoint.Binary64

/-! ## §1 Integer square roots -/

/-- The largest natural whose square is at most `n`, found one bit at a time from the bit
above half the length of `n` down. -/
def floorSqrt (n : Nat) : Nat := go (Nat.log2 n / 2 + 1) 0
where
  /-- Sets each of the lowest `k` bits of `r` whose setting keeps the square at most `n`,
  highest first. -/
  go : Nat → Nat → Nat
    | 0, r => r
    | k + 1, r =>
      let c := r + Nat.pow 2 k
      go k (if c * c ≤ n then c else r)

/-! ## §2 The type -/

/-- A double, given by its 64-bit pattern. Two doubles are equal when their bits are. -/
@[ext]
structure Double where
  /-- The sign bit, the eleven exponent bits and the 52 fraction bits, highest first. -/
  bits : UInt64

namespace Double

/-- The double with the given bit pattern, taken modulo `2^64`. -/
def ofBits (bits : Nat) : Double := ⟨bits.toUInt64⟩

/-- What the double denotes. -/
def value (x : Double) : Value := decodeBits x.bits.toNat

/-- The quiet NaN that every invalid operation gives. -/
def nan : Double := ofBits quietNaNBits

/-- Positive or negative infinity. -/
def infinity (negative : Bool) : Double := ofBits (infinityBits negative)

/-- Positive or negative zero. -/
def zero (negative : Bool) : Double := ofBits (zeroBits negative)

/-- The hardware double with the same bits. -/
def toFloat (x : Double) : Float := Float.ofBits x.bits

/-- The double with the same bits as a hardware double. -/
def ofFloat (x : Float) : Double := ⟨x.toBits⟩

/-- The double nearest to a natural number. -/
def ofNat (n : Nat) : Double := ofBits (ratioBits false n 1)

/-- The double nearest to `digits · 10^exponent`. -/
def ofDecimal (digits : Nat) (exponent : Int) : Double :=
  ofBits (decimalBits false digits exponent)

/-! ## §3 Exact values -/

/-- A magnitude with a sign. -/
def signed (negative : Bool) (m : Nat) : Int := if negative then -(m : Int) else m

/-- Two finite values `±mx · 2^ex` and `±my · 2^ey` as integers `a` and `b` over the
smaller exponent `e`, so that they are `a · 2^e` and `b · 2^e`. -/
def align (sx : Bool) (mx : Nat) (ex : Int) (sy : Bool) (my : Nat) (ey : Int) :
    Int × Int × Int :=
  let e := min ex ey
  (signed sx (mx * Nat.pow 2 (ex - e).toNat), signed sy (my * Nat.pow 2 (ey - e).toNat), e)

/-- The double nearest to `s · 2^e`; an exact zero is `-0` when `negZero`. -/
def ofScaled (negZero : Bool) (s e : Int) : Double :=
  if s = 0 then zero negZero
  else ofBits (ratioBits (decide (s < 0)) (s.natAbs * Nat.pow 2 e.toNat) (Nat.pow 2 (-e).toNat))

/-! ## §4 Arithmetic -/

/-- The rounded sum. -/
def add (x y : Double) : Double :=
  match x.value, y.value with
  | .nan, _ => nan
  | _, .nan => nan
  | .infinite sx, .infinite sy => if sx = sy then infinity sx else nan
  | .infinite sx, .finite .. => infinity sx
  | .finite .., .infinite sy => infinity sy
  | .finite sx mx ex, .finite sy my ey =>
    let (a, b, e) := align sx mx ex sy my ey
    ofScaled (sx && sy) (a + b) e

/-- The negation: the sign bit flipped. -/
def neg (x : Double) : Double := ofBits ((x.bits.toNat + Nat.pow 2 63) % Nat.pow 2 64)

/-- The rounded difference, the sum with the negation. -/
def sub (x y : Double) : Double := add x (neg y)

/-- The rounded product. -/
def mul (x y : Double) : Double :=
  match x.value, y.value with
  | .nan, _ => nan
  | _, .nan => nan
  | .infinite sx, .infinite sy => infinity (sx != sy)
  | .infinite sx, .finite sy my _ => if my = 0 then nan else infinity (sx != sy)
  | .finite sx mx _, .infinite sy => if mx = 0 then nan else infinity (sx != sy)
  | .finite sx mx ex, .finite sy my ey =>
    ofScaled (sx != sy) (signed (sx != sy) (mx * my)) (ex + ey)

/-- The rounded quotient. -/
def div (x y : Double) : Double :=
  match x.value, y.value with
  | .nan, _ => nan
  | _, .nan => nan
  | .infinite _, .infinite _ => nan
  | .infinite sx, .finite sy _ _ => infinity (sx != sy)
  | .finite sx _ _, .infinite sy => zero (sx != sy)
  | .finite sx mx ex, .finite sy my ey =>
    if my = 0 then (if mx = 0 then nan else infinity (sx != sy))
    else
      ofBits (ratioBits (sx != sy) (mx * Nat.pow 2 (ex - ey).toNat)
        (my * Nat.pow 2 (ey - ex).toNat))

/-- The rounded square root. The root of `m · 4^h` is `√n · 2^(h - 56)` with
`n = m · 4^56`, and `s` is the floor of `√n`. In units of `2^(h - 57)` the root is `2s` when
it is exact and lies strictly between `2s` and `2s + 2` when it is not, as `2s + 1` does.
A root of at least 56 bits has its rounding boundaries at even numbers of these units, so
`2s + 1` rounds as the root does. -/
def sqrt (x : Double) : Double :=
  match x.value with
  | .nan => nan
  | .infinite negative => if negative then nan else x
  | .finite negative m e =>
    if m = 0 then x
    else if negative then nan
    else
      let (m, h) : Nat × Int := if e % 2 = 0 then (m, e / 2) else (2 * m, (e - 1) / 2)
      let n := m * Nat.pow 4 56
      let s := floorSqrt n
      ofScaled false (2 * s + (if s * s = n then 0 else 1)) (h - 57)

/-- The absolute value: the sign bit cleared. -/
def abs (x : Double) : Double := ofBits (x.bits.toNat % Nat.pow 2 63)

/-! ## §5 Order -/

/-- How `x` compares with `y` as exact values (with `-∞` and `∞` at the ends); `none` when
either is NaN. -/
def order (x y : Double) : Option Ordering :=
  match x.value, y.value with
  | .nan, _ => none
  | _, .nan => none
  | .infinite sx, .infinite sy => some (if sx = sy then .eq else if sx then .lt else .gt)
  | .infinite sx, .finite .. => some (if sx then .lt else .gt)
  | .finite .., .infinite sy => some (if sy then .gt else .lt)
  | .finite sx mx ex, .finite sy my ey =>
    let (a, b, _) := align sx mx ex sy my ey
    some (compare a b)

/-- Whether `x` lies below `y`. -/
def lt (x y : Double) : Bool :=
  match x.order y with
  | some .lt => true
  | _ => false

/-- Whether `x` lies below or at `y`. -/
def le (x y : Double) : Bool :=
  match x.order y with
  | some .lt => true
  | some .eq => true
  | _ => false

/-- IEEE equality: the same exact value, neither a NaN. -/
def beq (x y : Double) : Bool :=
  match x.order y with
  | some .eq => true
  | _ => false

/-- Whether the double is not a number. -/
def isNaN (x : Double) : Bool :=
  match x.value with
  | .nan => true
  | _ => false

/-- Whether the double is neither infinite nor NaN. -/
def isFinite (x : Double) : Bool :=
  match x.value with
  | .finite .. => true
  | _ => false

instance : Add Double := ⟨add⟩
instance : Sub Double := ⟨sub⟩
instance : Mul Double := ⟨mul⟩
instance : Div Double := ⟨div⟩
instance : Neg Double := ⟨neg⟩
instance : LT Double := ⟨fun x y => x.lt y = true⟩
instance : LE Double := ⟨fun x y => x.le y = true⟩
instance : BEq Double := ⟨beq⟩

/-- A decimal numeral denotes the double nearest to its value. -/
instance : OfScientific Double :=
  ⟨fun digits negative exponent =>
    ofDecimal digits (if negative then -(exponent : Int) else exponent)⟩

instance decLt (x y : Double) : Decidable (x < y) :=
  inferInstanceAs (Decidable (x.lt y = true))

instance decLe (x y : Double) : Decidable (x ≤ y) :=
  inferInstanceAs (Decidable (x.le y = true))

end Double

/-- Doubles computed in the logic, with the arithmetic of `instScalarFloat`. -/
instance instScalarDouble : Scalar Double where
  ofNat := Double.ofNat
  sqrt := Double.sqrt
  abs := Double.abs
  isNaN := Double.isNaN
  isFinite := Double.isFinite
  decLt := Double.decLt
  decLe := Double.decLe

end SteadyAdjoint.Binary64
