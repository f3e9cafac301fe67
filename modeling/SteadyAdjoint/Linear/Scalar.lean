/-!
# Numbers of the solvers

The solvers of this library are written once, for any type of numbers with the operations of
`Scalar`: the four operations of arithmetic, negation, the square root and the absolute
value, the order with its decisions, an equality test, and the tests for NaN and finiteness.
Numerals in the solvers (`0`, `1`, `2`, `0.5`, `1e-12`) are `Scalar.ofNat` and `OfScientific`
values.

Doubles are the numbers that run (`instScalarFloat`), with IEEE semantics: a NaN makes every
comparison false, `==` is IEEE equality (so `0.0 == -0.0`), and each numeral is the double the
literal denotes. A number system without NaN or infinities, the real numbers for instance,
is an instance as well; a law proved of a solver over it is a law of the same definition
computed exactly.
-/

namespace SteadyAdjoint

/-- The operations on numbers that the solvers use. -/
class Scalar (R : Type) extends Add R, Sub R, Mul R, Div R, Neg R, LT R, LE R, BEq R,
    OfScientific R where
  /-- The number of a natural numeral. -/
  ofNat : Nat → R
  /-- The square root. -/
  sqrt : R → R
  /-- The absolute value. -/
  abs : R → R
  /-- Whether a value is not a number. -/
  isNaN : R → Bool
  /-- Whether a value is neither infinite nor NaN. -/
  isFinite : R → Bool
  /-- Whether `a < b` holds is decided. -/
  decLt : ∀ a b : R, Decidable (a < b)
  /-- Whether `a ≤ b` holds is decided. -/
  decLe : ∀ a b : R, Decidable (a ≤ b)

namespace Scalar

/-- A natural numeral denotes `Scalar.ofNat` of its value. -/
instance (priority := low) instOfNatScalar {R : Type} [Scalar R] {n : Nat} : OfNat R n :=
  ⟨Scalar.ofNat n⟩

instance (priority := low) instDecidableLtScalar {R : Type} [Scalar R] (a b : R) :
    Decidable (a < b) :=
  Scalar.decLt a b

instance (priority := low) instDecidableLeScalar {R : Type} [Scalar R] (a b : R) :
    Decidable (a ≤ b) :=
  Scalar.decLe a b

end Scalar

/-- Doubles with IEEE arithmetic: the numbers that run. -/
instance instScalarFloat : Scalar Float where
  ofNat := Float.ofNat
  sqrt := Float.sqrt
  abs := Float.abs
  isNaN := Float.isNaN
  isFinite := Float.isFinite
  decLt := Float.decLt
  decLe := Float.decLe

end SteadyAdjoint
