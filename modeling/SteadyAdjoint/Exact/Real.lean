import Mathlib.Analysis.Real.Sqrt
import SteadyAdjoint.Linear.Scalar

/-!
# Exact arithmetic

The real numbers as numbers of the solvers: every operation is exact, no value is NaN or
infinite, and the order is decided classically. A statement about a solver "in exact
arithmetic" is a statement about its definition at `ℝ`; the lemmas here say what each
operation of `Scalar` is there, so that proofs never unfold the instance.
-/

namespace SteadyAdjoint

/-- The real numbers, computed exactly. -/
noncomputable instance instScalarReal : Scalar ℝ where
  ofNat n := (n : ℝ)
  sqrt := Real.sqrt
  abs x := |x|
  isNaN _ := false
  isFinite _ := true
  decLt a b := Real.decidableLT a b
  decLe a b := Real.decidableLE a b

namespace Scalar

@[simp] theorem ofNat_real (n : ℕ) : (Scalar.ofNat n : ℝ) = (n : ℝ) := rfl

/-- A numeral written in a solver is the real numeral. -/
@[simp] theorem numeral_real (n : ℕ) :
    (@OfNat.ofNat ℝ n instOfNatScalar) = ((OfNat.ofNat n : ℕ) : ℝ) := rfl

@[simp] theorem sqrt_real (x : ℝ) : Scalar.sqrt x = Real.sqrt x := rfl

@[simp] theorem abs_real (x : ℝ) : Scalar.abs x = |x| := rfl

@[simp] theorem isNaN_real (x : ℝ) : Scalar.isNaN x = false := rfl

@[simp] theorem isFinite_real (x : ℝ) : Scalar.isFinite x = true := rfl

end Scalar

end SteadyAdjoint
