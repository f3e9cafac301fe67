/-!
# Binary64 values as exact numbers

A double is read through its 64 bits: one sign bit, eleven exponent bits and a 52-bit
fraction. `decode` turns the bits into a `Value` that is either NaN, a signed infinity, or a
signed exact value `m · 2^e`. In the other direction `ofRatio` gives the double nearest to an
exact ratio of naturals, ties going to the even mantissa; every conversion of text to a double
in this library goes through it, so no conversion depends on a runtime's reader.

The main facts stated here are the field bounds that `decode` produces: a finite value has
a mantissa below `2^53` and an exponent of at least `-1074`.
-/

namespace SteadyAdjoint.Binary64

/-! ## §1 Decoding -/

/-- What the bits of a double denote. A finite value is `(-1)^s · mantissa · 2^exponent`;
both zeros are finite with mantissa `0`. -/
inductive Value where
  | nan
  | infinite (negative : Bool)
  | finite (negative : Bool) (mantissa : Nat) (exponent : Int)
  deriving Repr, DecidableEq

/-- The exponent of the unit in the last place of every subnormal double. -/
def subnormalExponent : Int := -1074

/-- Reads the sign, exponent and fraction fields of a 64-bit pattern. The all-ones exponent
field marks an infinity or a NaN; the zero field marks a subnormal, whose unit is `2^-1074`. -/
def decodeBits (bits : Nat) : Value :=
  let negative : Bool := decide (Nat.pow 2 63 ≤ bits % Nat.pow 2 64)
  let biased : Nat := bits / Nat.pow 2 52 % Nat.pow 2 11
  let fraction : Nat := bits % Nat.pow 2 52
  if biased = 2047 then
    if fraction = 0 then .infinite negative else .nan
  else if biased = 0 then .finite negative fraction subnormalExponent
  else .finite negative (fraction + Nat.pow 2 52) ((biased : Int) - 1075)

/-- The exact value of a double. -/
def decode (x : Float) : Value := decodeBits x.toBits.toNat

/-- A decoded finite mantissa fits in 53 bits. -/
theorem decodeBits_mantissa_lt {bits : Nat} {s : Bool} {m : Nat} {e : Int}
    (h : decodeBits bits = .finite s m e) : m < Nat.pow 2 53 := by
  simp only [decodeBits] at h
  split at h
  · split at h <;> cases h
  · split at h
    · cases h
      have := Nat.mod_lt bits (show Nat.pow 2 52 > 0 by decide)
      simp only [Nat.pow_eq] at *
      omega
    · cases h
      have := Nat.mod_lt bits (show Nat.pow 2 52 > 0 by decide)
      simp only [Nat.pow_eq] at *
      omega

/-- A decoded finite exponent is at least the subnormal exponent. -/
theorem decodeBits_exponent_ge {bits : Nat} {s : Bool} {m : Nat} {e : Int}
    (h : decodeBits bits = .finite s m e) : subnormalExponent ≤ e := by
  simp only [decodeBits] at h
  split at h
  · split at h <;> cases h
  · split at h
    · cases h
      exact Int.le_refl _
    · cases h
      unfold subnormalExponent
      omega

/-! ## §2 Encoding

Every double built in this library is first built as its bit pattern (the `…Bits`
functions, plain naturals below `2^64`) and only then read as a `Float`, so the same
construction serves the hardware doubles and `Double`, the doubles computed in the logic. -/

/-- The 64-bit pattern with the given sign, biased exponent and fraction fields. -/
def encodeBits (negative : Bool) (biased fraction : Nat) : Nat :=
  (if negative then Nat.pow 2 63 else 0) + biased * Nat.pow 2 52 + fraction

/-- The double with the given bit pattern. -/
def ofBitPattern (bits : Nat) : Float := Float.ofBits bits.toUInt64

/-- The bits of the quiet NaN whose payload has only its top bit set. -/
def quietNaNBits : Nat := encodeBits false 2047 (Nat.pow 2 51)

/-- The bits of positive or negative infinity. -/
def infinityBits (negative : Bool) : Nat := encodeBits negative 2047 0

/-- The bits of positive or negative zero. -/
def zeroBits (negative : Bool) : Nat := encodeBits negative 0 0

/-- The quiet NaN whose payload has only its top bit set. -/
def quietNaN : Float := ofBitPattern quietNaNBits

/-- Positive or negative infinity. -/
def infinity (negative : Bool) : Float := ofBitPattern (infinityBits negative)

/-- Positive or negative zero. -/
def zero (negative : Bool) : Float := ofBitPattern (zeroBits negative)

/-! ## §3 Rounding an exact ratio -/

/-- The floor of the decimal logarithm of a positive natural (and `0` for `0`): the number
of its decimal digits less one. It divides by ten at most `n` times, so `n` is enough fuel. -/
def decimalLog (n : Nat) : Nat := go n n
where
  /-- Counts the divisions by ten that leave a number of at least ten, for at most `fuel`
  divisions. -/
  go : Nat → Nat → Nat
    | 0, _ => 0
    | fuel + 1, n => if n < 10 then 0 else go fuel (n / 10) + 1

/-- `num / (den · 2^e)` as a quotient, a remainder and the divisor. -/
def scaledQuotient (num den : Nat) (e : Int) : Nat × Nat × Nat :=
  let n := num * Nat.pow 2 (-e).toNat
  let d := den * Nat.pow 2 e.toNat
  (n / d, n % d, d)

/-- Rounds the quotient `q` with remainder `r` of a division by `d` to the nearest natural;
a remainder of exactly half goes to the even neighbour. -/
def roundHalfEven (q r d : Nat) : Nat :=
  if 2 * r < d then q
  else if d < 2 * r then q + 1
  else if q % 2 = 0 then q else q + 1

/-- The nearest integer is within half a unit of the quotient. -/
theorem roundHalfEven_cases (q r d : Nat) :
    roundHalfEven q r d = q ∨ roundHalfEven q r d = q + 1 := by
  unfold roundHalfEven
  split
  · exact Or.inl rfl
  · split
    · exact Or.inr rfl
    · split
      · exact Or.inl rfl
      · exact Or.inr rfl

/-- The exponent `e` for which `num / (den · 2^e)` lies in `[2^52, 2^53)`. The floor of the
binary logarithm of `num / den` is `log2 num - log2 den` or one less. -/
def normalExponent (num den : Nat) : Int :=
  let e : Int := (Nat.log2 num : Int) - (Nat.log2 den : Int) - 52
  if (scaledQuotient num den e).1 < Nat.pow 2 52 then e - 1 else e

/-- The bits of a rounded mantissa `m` (at most `2^53`) at exponent `e`: a carry to `2^53`
moves to the next binade, a mantissa below `2^52` is subnormal, and an exponent past the
largest binade overflows to infinity. -/
def packBits (negative : Bool) (m : Nat) (e : Int) : Nat :=
  let (m, e) := if m = Nat.pow 2 53 then (Nat.pow 2 52, e + 1) else (m, e)
  if 971 < e then infinityBits negative
  else if m < Nat.pow 2 52 then encodeBits negative 0 m
  else encodeBits negative (e + 1075).toNat (m - Nat.pow 2 52)

/-- The bits of the double nearest to `num / den`, negated when `negative`; a tie goes to
the even mantissa. A zero numerator gives a signed zero and a zero denominator an
infinity. -/
def ratioBits (negative : Bool) (num den : Nat) : Nat :=
  if den = 0 then infinityBits negative
  else if num = 0 then zeroBits negative
  else
    let e := max (normalExponent num den) subnormalExponent
    let (q, r, d) := scaledQuotient num den e
    packBits negative (roundHalfEven q r d) e

/-- The double nearest to `num / den`, negated when `negative`. -/
def ofRatio (negative : Bool) (num den : Nat) : Float :=
  ofBitPattern (ratioBits negative num den)

/-- The double nearest to a natural number. -/
def ofNat (n : Nat) : Float := ofRatio false n 1

/-- The bits of the double nearest to `digits · 10^exponent`. Exponents far outside the
range of doubles are settled without building their powers: a nonzero value overflows or
underflows. -/
def decimalBits (negative : Bool) (digits : Nat) (exponent : Int) : Nat :=
  if digits = 0 then zeroBits negative
  else if 400 < exponent then infinityBits negative
  else if exponent < -(400 + (decimalLog digits : Int)) then zeroBits negative
  else if 0 ≤ exponent then ratioBits negative (digits * Nat.pow 10 exponent.toNat) 1
  else ratioBits negative digits (Nat.pow 10 (-exponent).toNat)

/-- The double nearest to `digits · 10^exponent`. -/
def ofDecimal (negative : Bool) (digits : Nat) (exponent : Int) : Float :=
  ofBitPattern (decimalBits negative digits exponent)

end SteadyAdjoint.Binary64
