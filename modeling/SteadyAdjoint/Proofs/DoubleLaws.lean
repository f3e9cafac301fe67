import SteadyAdjoint.Proofs.Cache
import SteadyAdjoint.Binary64.Double

/-!
# The laws of step sizes in binary64

The kept factorisation of a linear step is safe when step sizes are never zeros and when two
step sizes that compare equal under `==` have the same reciprocal (`Integrator.StepLaws`).
This module proves both of `Double`, the doubles computed in the logic.

The order of doubles is read through an integer key: a finite double is its exact value in
units of `2^-1074`, the smallest subnormal, and the infinities lie beyond every finite
double (`Double.order_eq`). A nonzero double is the only one with its key, since a decoded
mantissa is normal unless the exponent is the least one (`Double.value_eq_of_key_eq`): so
`==` of nonzero doubles is equality of what they denote, and a quotient reads nothing else. Zero is
where this fails, `0 == -0` with reciprocals `∞` and `-∞`, and no step size is a zero: the
difference of two doubles is a multiple of `2^-1074`, which rounds to a positive double when
it is positive (`Double.sub_pos`).

## Main statements

* `Double.order_eq`: the order of doubles is the order of their keys.
* `Double.value_eq_of_key_eq`: a nonzero key determines the value.
* `Double.ratioBits_pos`: a positive ratio of at least `2^-1074` rounds to a positive double.
* `Double.stepLaws`: the laws of step sizes hold of doubles.
-/

namespace SteadyAdjoint.Binary64

/-! ## §1 Fields of an encoding -/

/-- A decoded finite exponent is at most that of the largest binade. -/
theorem decodeBits_exponent_le {bits : Nat} {s : Bool} {m : Nat} {e : Int}
    (h : decodeBits bits = .finite s m e) : e ≤ 971 := by
  simp only [decodeBits] at h
  split at h
  · split at h <;> cases h
  · split at h
    · cases h
      unfold subnormalExponent
      omega
    · cases h
      have := Nat.mod_lt (bits / Nat.pow 2 52) (show Nat.pow 2 11 > 0 by decide)
      simp only [Nat.pow_eq] at *
      omega

/-- A decoded mantissa below `2^52` belongs to a subnormal. -/
theorem decodeBits_normal {bits : Nat} {s : Bool} {m : Nat} {e : Int}
    (h : decodeBits bits = .finite s m e) : 2 ^ 52 ≤ m ∨ e = subnormalExponent := by
  simp only [decodeBits] at h
  split at h
  · split at h <;> cases h
  · split at h
    · cases h
      exact .inr rfl
    · cases h
      simp only [Nat.pow_eq]
      exact .inl (Nat.le_add_left _ _)

/-- The fields of an encoding read back, when they fit. -/
theorem decodeBits_encodeBits {negative : Bool} {biased fraction : Nat} (hBiased : biased < 2047)
    (hFraction : fraction < 2 ^ 52) :
    decodeBits (encodeBits negative biased fraction) =
      if biased = 0 then .finite negative fraction subnormalExponent
      else .finite negative (fraction + 2 ^ 52) ((biased : Int) - 1075) := by
  have hSign : decide (Nat.pow 2 63 ≤ encodeBits negative biased fraction % Nat.pow 2 64) =
      negative := by
    cases negative <;> simp [encodeBits, Nat.pow_eq] <;> omega
  have hBiased' : encodeBits negative biased fraction / Nat.pow 2 52 % Nat.pow 2 11 = biased := by
    cases negative <;> simp [encodeBits, Nat.pow_eq] <;> omega
  have hFraction' : encodeBits negative biased fraction % Nat.pow 2 52 = fraction := by
    cases negative <;> simp [encodeBits, Nat.pow_eq] <;> omega
  simp only [decodeBits, hSign, hBiased', hFraction', Nat.pow_eq, if_neg (Nat.ne_of_lt hBiased)]

/-! ## §2 The key of a value -/

/-- What a double that is not NaN denotes, as an integer: a finite double is its exact value
in units of `2^-1074`, and the infinities lie beyond every finite double. -/
def Value.key : Value → Int
  | .nan => 0
  | .infinite negative => Double.signed negative (2 ^ 2100)
  | .finite negative m e => Double.signed negative (m * 2 ^ (e - subnormalExponent).toNat)

/-- The value with the opposite sign. -/
def Value.neg : Value → Value
  | .nan => .nan
  | .infinite negative => .infinite !negative
  | .finite negative m e => .finite (!negative) m e

theorem Double.signed_mul (negative : Bool) (m k : Nat) :
    Double.signed negative (m * k) = Double.signed negative m * k := by
  cases negative <;> simp [Double.signed]

/-- A finite double has a key strictly between those of the infinities. -/
theorem decodeBits_key_lt {bits : Nat} {s : Bool} {m : Nat} {e : Int}
    (h : decodeBits bits = .finite s m e) :
    m * 2 ^ (e - subnormalExponent).toNat < 2 ^ 2100 := by
  have hm := decodeBits_mantissa_lt h
  have hk : (e - subnormalExponent).toNat ≤ 2045 := by
    have := decodeBits_exponent_le h
    unfold subnormalExponent
    omega
  simp only [Nat.pow_eq] at hm
  have hScaled :
      m * 2 ^ (e - subnormalExponent).toNat < 2 ^ (53 + (e - subnormalExponent).toNat) := by
    rw [Nat.pow_add]
    exact Nat.mul_lt_mul_of_pos_right hm (Nat.two_pow_pos _)
  exact lt_of_lt_of_le hScaled (pow_le_pow_right₀ (by decide) (by omega))

/-- Scaling both sides by a positive number keeps a comparison. -/
theorem compare_mul_pos {a b c : Int} (hc : 0 < c) : compare (a * c) (b * c) = compare a b := by
  rw [← cmp_eq_compare, ← cmp_eq_compare, (strictMono_mul_right_of_pos hc).cmp_map_eq]

namespace Double

/-- The key of a finite value over a smaller exponent `e`: the mantissa shifted to `e`, times
the scale of `e`. -/
theorem key_eq_scaled {s : Bool} {m : Nat} {e e' : Int} (he : e ≤ e')
    (hLow : subnormalExponent ≤ e) :
    (Value.finite s m e').key =
      signed s (m * 2 ^ (e' - e).toNat) * (2 ^ (e - subnormalExponent).toNat : Nat) := by
  have hSplit : (e' - subnormalExponent).toNat =
      (e' - e).toNat + (e - subnormalExponent).toNat := by omega
  rw [Value.key, ← signed_mul, hSplit, Nat.pow_add, Nat.mul_assoc]

/-- Aligning two finite values to their smaller exponent scales both keys by one power of two,
so the aligned integers compare as the keys do. -/
theorem compare_align {sx sy : Bool} {mx my : Nat} {ex ey : Int} (hx : subnormalExponent ≤ ex)
    (hy : subnormalExponent ≤ ey) :
    compare (align sx mx ex sy my ey).1 (align sx mx ex sy my ey).2.1 =
      compare (Value.finite sx mx ex).key (Value.finite sy my ey).key := by
  rw [key_eq_scaled (min_le_left ex ey) (le_min hx hy),
    key_eq_scaled (min_le_right ex ey) (le_min hx hy), compare_mul_pos (by positivity)]
  simp only [align, Nat.pow_eq]

/-- A finite key lies strictly between the keys of the two infinities. -/
theorem key_finite_bounds {x : Double} {s : Bool} {m : Nat} {e : Int}
    (h : x.value = .finite s m e) :
    signed true (2 ^ 2100) < (Value.finite s m e).key ∧
      (Value.finite s m e).key < signed false (2 ^ 2100) := by
  have hBound := decodeBits_key_lt h
  cases s <;> simp only [Value.key, signed, if_true, Bool.false_eq_true, if_false] <;> omega

/-- No finite key is the key of an infinity. -/
theorem key_finite_ne_infinite {x : Double} {s : Bool} {m : Nat} {e : Int}
    (h : x.value = .finite s m e) (negative : Bool) :
    (Value.finite s m e).key ≠ (Value.infinite negative).key := by
  have hBounds := key_finite_bounds h
  cases negative
  · exact hBounds.2.ne
  · exact hBounds.1.ne'

/-- **The order of doubles is the order of their keys**, when neither is NaN. -/
theorem order_eq {x y : Double} (hx : x.isNaN = false) (hy : y.isNaN = false) :
    x.order y = some (compare x.value.key y.value.key) := by
  unfold isNaN at hx hy
  unfold order
  cases hvx : x.value with
  | nan => simp [hvx] at hx
  | infinite sx =>
    cases hvy : y.value with
    | nan => simp [hvy] at hy
    | infinite sy =>
      have hInfinities : signed true (2 ^ 2100) < signed false (2 ^ 2100) := by
        simp only [signed, if_true, Bool.false_eq_true, if_false]
        omega
      cases sx <;> cases sy
      · exact congrArg some (compare_eq_iff_eq.mpr rfl).symm
      · exact congrArg some (compare_gt_iff_gt.mpr hInfinities).symm
      · exact congrArg some (compare_lt_iff_lt.mpr hInfinities).symm
      · exact congrArg some (compare_eq_iff_eq.mpr rfl).symm
    | finite sy my ey =>
      have hBounds := key_finite_bounds hvy
      cases sx
      · exact congrArg some (compare_gt_iff_gt.mpr hBounds.2).symm
      · exact congrArg some (compare_lt_iff_lt.mpr hBounds.1).symm
  | finite sx mx ex =>
    cases hvy : y.value with
    | nan => simp [hvy] at hy
    | infinite sy =>
      have hBounds := key_finite_bounds hvx
      cases sy
      · exact congrArg some (compare_lt_iff_lt.mpr hBounds.2).symm
      · exact congrArg some (compare_gt_iff_gt.mpr hBounds.1).symm
    | finite sy my ey =>
      exact congrArg some (compare_align (decodeBits_exponent_ge hvx) (decodeBits_exponent_ge hvy))

/-- A NaN is unordered. -/
theorem order_eq_none {x y : Double} (h : x.isNaN = true ∨ y.isNaN = true) : x.order y = none := by
  unfold isNaN at h
  unfold order
  split <;> simp_all

/-! ## §3 The comparisons -/

/-- `x < y` holds when neither is NaN and the key of `x` is the smaller. -/
theorem lt_iff {x y : Double} :
    x < y ↔ x.isNaN = false ∧ y.isNaN = false ∧ x.value.key < y.value.key := by
  show x.lt y = true ↔ _
  cases hx : x.isNaN
  · cases hy : y.isNaN
    · rw [lt, order_eq hx hy, ← compare_lt_iff_lt]
      cases compare x.value.key y.value.key <;> simp
    · simp [lt, order_eq_none (.inr hy)]
  · simp [lt, order_eq_none (.inl hx)]

/-- `x ≤ y` holds when neither is NaN and the key of `x` is not the greater. -/
theorem le_iff {x y : Double} :
    x ≤ y ↔ x.isNaN = false ∧ y.isNaN = false ∧ x.value.key ≤ y.value.key := by
  show x.le y = true ↔ _
  cases hx : x.isNaN
  · cases hy : y.isNaN
    · rw [le, order_eq hx hy, ← compare_le_iff_le]
      cases compare x.value.key y.value.key <;> simp
    · simp [le, order_eq_none (.inr hy)]
  · simp [le, order_eq_none (.inl hx)]

/-- `x == y` holds when neither is NaN and their keys are equal. -/
theorem beq_iff {x y : Double} :
    (x == y) = true ↔ x.isNaN = false ∧ y.isNaN = false ∧ x.value.key = y.value.key := by
  show x.beq y = true ↔ _
  cases hx : x.isNaN
  · cases hy : y.isNaN
    · rw [beq, order_eq hx hy, ← compare_eq_iff_eq (a := x.value.key) (b := y.value.key)]
      cases compare x.value.key y.value.key <;> simp
    · simp [beq, order_eq_none (.inr hy)]
  · simp [beq, order_eq_none (.inl hx)]

/-! ## §4 Canonical values -/

/-- Of two equal scaled mantissas, the one below `2^53` does not have the smaller scale unless
they are the same: a normal mantissa, or one at the least scale, shifted up by a bit reaches
`2^53`. -/
theorem scaled_eq_of_le {m m' k k' : Nat} (hm : m < 2 ^ 53) (hNormal : 2 ^ 52 ≤ m' ∨ k' = 0)
    (hk : k ≤ k') (h : m * 2 ^ k = m' * 2 ^ k') : k = k' ∧ m = m' := by
  obtain ⟨d, rfl⟩ := Nat.exists_eq_add_of_le hk
  have hShift : m = m' * 2 ^ d := by
    refine Nat.eq_of_mul_eq_mul_right (Nat.two_pow_pos k) ?_
    rw [h, Nat.pow_add]
    ring
  cases d with
  | zero => simp [hShift]
  | succ d =>
    -- a shifted normal mantissa is at least `2^53`
    have hNormal' : 2 ^ 52 ≤ m' := hNormal.resolve_right (by omega)
    have hLarge : 2 ^ 53 ≤ m := by
      calc 2 ^ 53 = 2 ^ 52 * 2 ^ 1 := by norm_num
        _ ≤ m' * 2 ^ (d + 1) :=
          Nat.mul_le_mul hNormal' (Nat.pow_le_pow_right (by decide) (by omega))
        _ = m := hShift.symm
    omega

theorem signed_inj {s s' : Bool} {m m' : Nat} (h : signed s m = signed s' m')
    (hZero : signed s m ≠ 0) : s = s' ∧ m = m' := by
  cases s <;> cases s' <;> simp [signed] at h hZero ⊢ <;> omega

/-- **A nonzero key determines the value**: its sign, exponent and mantissa. -/
theorem value_eq_of_key_eq {x y : Double} (hx : x.isNaN = false) (hy : y.isNaN = false)
    (hKey : x.value.key = y.value.key) (hZero : x.value.key ≠ 0) : x.value = y.value := by
  unfold isNaN at hx hy
  cases hvx : x.value with
  | nan => simp [hvx] at hx
  | infinite sx =>
    rw [hvx] at hKey hZero
    cases hvy : y.value with
    | nan => simp [hvy] at hy
    | infinite sy =>
      rw [hvy] at hKey
      rw [(signed_inj hKey hZero).1]
    | finite sy my ey =>
      rw [hvy] at hKey
      exact absurd hKey.symm (key_finite_ne_infinite hvy sx)
  | finite sx mx ex =>
    rw [hvx] at hKey hZero
    cases hvy : y.value with
    | nan => simp [hvy] at hy
    | infinite sy =>
      rw [hvy] at hKey
      exact absurd hKey (key_finite_ne_infinite hvx sy)
    | finite sy my ey =>
      rw [hvy] at hKey
      obtain ⟨rfl, hScaled⟩ := signed_inj hKey hZero
      have hxLow := decodeBits_exponent_ge hvx
      have hyLow := decodeBits_exponent_ge hvy
      -- a mantissa below `2^52` sits at the least exponent, whose scale is `2^0`
      have hxNormal : 2 ^ 52 ≤ mx ∨ (ex - subnormalExponent).toNat = 0 :=
        (decodeBits_normal hvx).imp_right fun h => by rw [h]; simp
      have hyNormal : 2 ^ 52 ≤ my ∨ (ey - subnormalExponent).toNat = 0 :=
        (decodeBits_normal hvy).imp_right fun h => by rw [h]; simp
      have hxLt : mx < 2 ^ 53 := by simpa using decodeBits_mantissa_lt hvx
      have hyLt : my < 2 ^ 53 := by simpa using decodeBits_mantissa_lt hvy
      have hSame : (ex - subnormalExponent).toNat = (ey - subnormalExponent).toNat ∧ mx = my := by
        rcases le_total (ex - subnormalExponent).toNat (ey - subnormalExponent).toNat with hle | hle
        · exact scaled_eq_of_le hxLt hyNormal hle hScaled
        · obtain ⟨hk, hm⟩ := scaled_eq_of_le hyLt hxNormal hle hScaled.symm
          exact ⟨hk.symm, hm.symm⟩
      obtain ⟨hk, rfl⟩ := hSame
      have hExponent : ex = ey := by omega
      rw [hExponent]

/-! ## §5 Zero and negation -/

theorem value_ofBits (n : Nat) : (ofBits n).value = decodeBits (n % 2 ^ 64) := by
  simp [value, ofBits]

/-- Zero is the double with every bit clear. -/
theorem zero_value : (0 : Double).value = .finite false 0 subnormalExponent := by decide

@[simp] theorem zero_isNaN : (0 : Double).isNaN = false := by decide

@[simp] theorem zero_key : (0 : Double).value.key = 0 := by
  rw [zero_value]
  simp [Value.key, signed]

/-- Negation flips the sign bit and keeps the other fields. -/
theorem value_neg (x : Double) : (neg x).value = x.value.neg := by
  have hBits : x.bits.toNat < 2 ^ 64 := x.bits.toNat_lt
  unfold neg
  rw [value_ofBits]
  unfold value
  generalize x.bits.toNat = b at hBits ⊢
  have hSign : decide (Nat.pow 2 63 ≤ (b + Nat.pow 2 63) % Nat.pow 2 64 % 2 ^ 64 % Nat.pow 2 64) =
      !decide (Nat.pow 2 63 ≤ b % Nat.pow 2 64) := by
    simp only [Nat.pow_eq]
    by_cases h : 2 ^ 63 ≤ b
    · rw [decide_eq_false (by omega), decide_eq_true (by omega)]
      rfl
    · rw [decide_eq_true (by omega), decide_eq_false (by omega)]
      rfl
  have hBiased : (b + Nat.pow 2 63) % Nat.pow 2 64 % 2 ^ 64 / Nat.pow 2 52 % Nat.pow 2 11 =
      b / Nat.pow 2 52 % Nat.pow 2 11 := by
    simp only [Nat.pow_eq]
    omega
  have hFraction :
      (b + Nat.pow 2 63) % Nat.pow 2 64 % 2 ^ 64 % Nat.pow 2 52 = b % Nat.pow 2 52 := by
    simp only [Nat.pow_eq]
    omega
  unfold decodeBits
  simp only [hSign, hBiased, hFraction]
  split_ifs <;> rfl

/-! ## §6 Rounding a positive ratio -/

/-- The quotient of a scaled division is below `K` when the scaled dividend is. -/
theorem scaledQuotient_lt_iff {num den K : Nat} {e : Int} (hden : den ≠ 0) :
    (scaledQuotient num den e).1 < K ↔ num * 2 ^ (-e).toNat < K * (den * 2 ^ e.toNat) := by
  simp only [scaledQuotient, Nat.pow_eq]
  exact Nat.div_lt_iff_lt_mul (Nat.mul_pos (Nat.pos_of_ne_zero hden) (Nat.two_pow_pos _))

/-- The quotient of a scaled division is at least one when the scaled divisor is at most the
scaled dividend. -/
theorem one_le_scaledQuotient {num den : Nat} {e : Int} (hden : den ≠ 0)
    (h : den * 2 ^ e.toNat ≤ num * 2 ^ (-e).toNat) : 1 ≤ (scaledQuotient num den e).1 := by
  simp only [scaledQuotient, Nat.pow_eq]
  rw [Nat.le_div_iff_mul_le (Nat.mul_pos (Nat.pos_of_ne_zero hden) (Nat.two_pow_pos _))]
  simpa using h

/-- Lowering the exponent by one doubles the scaled dividend against the scaled divisor. -/
theorem scaled_lt_pred {num den K : Nat} {e : Int}
    (h : num * 2 ^ (-e).toNat < K * (den * 2 ^ e.toNat)) :
    num * 2 ^ (-(e - 1)).toNat < 2 * K * (den * 2 ^ (e - 1).toNat) := by
  rcases le_or_gt e 0 with he | he
  · -- at or below zero the dividend gains the factor
    have hNeg : (-(e - 1)).toNat = (-e).toNat + 1 := by omega
    have hPos : (e - 1).toNat = e.toNat := by omega
    rw [hNeg, hPos, Nat.pow_succ]
    calc num * (2 ^ (-e).toNat * 2) = 2 * (num * 2 ^ (-e).toNat) := by ring
      _ < 2 * (K * (den * 2 ^ e.toNat)) := by omega
      _ = 2 * K * (den * 2 ^ e.toNat) := by ring
  · -- above zero the divisor loses it
    have hNeg : (-(e - 1)).toNat = (-e).toNat := by omega
    have hPos : e.toNat = (e - 1).toNat + 1 := by omega
    rw [hNeg]
    rw [hPos, Nat.pow_succ] at h
    calc num * 2 ^ (-e).toNat < K * (den * (2 ^ (e - 1).toNat * 2)) := h
      _ = 2 * K * (den * 2 ^ (e - 1).toNat) := by ring

/-- Below the binary logarithm of the ratio the scaled divisor is at most the scaled
dividend. -/
theorem scaled_le_of_le_log2 {num den : Nat} {e : Int} (hnum : num ≠ 0)
    (he : e ≤ (Nat.log2 num : Int) - Nat.log2 den - 1) :
    den * 2 ^ e.toNat ≤ num * 2 ^ (-e).toNat := by
  have hDen : den < 2 ^ (Nat.log2 den + 1) := Nat.lt_log2_self
  have hNum : 2 ^ Nat.log2 num ≤ num := Nat.log2_self_le hnum
  calc den * 2 ^ e.toNat ≤ 2 ^ (Nat.log2 den + 1) * 2 ^ e.toNat := Nat.mul_le_mul_right _ hDen.le
    _ = 2 ^ (Nat.log2 den + 1 + e.toNat) := (Nat.pow_add _ _ _).symm
    _ ≤ 2 ^ (Nat.log2 num + (-e).toNat) := Nat.pow_le_pow_right (by decide) (by omega)
    _ = 2 ^ Nat.log2 num * 2 ^ (-e).toNat := Nat.pow_add _ _ _
    _ ≤ num * 2 ^ (-e).toNat := Nat.mul_le_mul_right _ hNum

/-- At the exponent `log2 num - log2 den - 52` the scaled ratio is below `2^53`. -/
theorem scaled_lt_at_log2 {num den : Nat} (hden : den ≠ 0) :
    num * 2 ^ (-((Nat.log2 num : Int) - Nat.log2 den - 52)).toNat <
      2 ^ 53 * (den * 2 ^ ((Nat.log2 num : Int) - Nat.log2 den - 52).toNat) := by
  have hNum : num < 2 ^ (Nat.log2 num + 1) := Nat.lt_log2_self
  have hDen : 2 ^ Nat.log2 den ≤ den := Nat.log2_self_le hden
  calc num * 2 ^ (-((Nat.log2 num : Int) - Nat.log2 den - 52)).toNat
      < 2 ^ (Nat.log2 num + 1) * 2 ^ (-((Nat.log2 num : Int) - Nat.log2 den - 52)).toNat :=
        Nat.mul_lt_mul_of_pos_right hNum (Nat.two_pow_pos _)
    _ = 2 ^ (53 + (Nat.log2 den + ((Nat.log2 num : Int) - Nat.log2 den - 52).toNat)) := by
        rw [← Nat.pow_add]
        congr 1
        omega
    _ = 2 ^ 53 * (2 ^ Nat.log2 den * 2 ^ ((Nat.log2 num : Int) - Nat.log2 den - 52).toNat) := by
        rw [Nat.pow_add, Nat.pow_add]
    _ ≤ 2 ^ 53 * (den * 2 ^ ((Nat.log2 num : Int) - Nat.log2 den - 52).toNat) :=
        Nat.mul_le_mul_left _ (Nat.mul_le_mul_right _ hDen)

/-- The normal exponent is at most `log2 num - log2 den - 52`. -/
theorem normalExponent_le (num den : Nat) :
    normalExponent num den ≤ (Nat.log2 num : Int) - Nat.log2 den - 52 := by
  unfold normalExponent
  dsimp only
  split <;> omega

/-- **At the normal exponent the scaled ratio is below `2^53`.** -/
theorem scaled_lt_normalExponent (num : Nat) {den : Nat} (hden : den ≠ 0) :
    num * 2 ^ (-normalExponent num den).toNat <
      2 ^ 53 * (den * 2 ^ (normalExponent num den).toNat) := by
  unfold normalExponent
  dsimp only
  split
  · -- a quotient below `2^52` at one exponent is below `2^53` at the next one down
    rename_i hSmall
    rw [scaledQuotient_lt_iff hden] at hSmall
    simpa using scaled_lt_pred hSmall
  · exact scaled_lt_at_log2 hden

/-- At the exponent of a rounding, the normal one or the least, the quotient of a ratio of at
least `2^-1074` has between one and 53 bits. -/
theorem ratio_quotient_bounds {num den : Nat} (hnum : num ≠ 0) (hden : den ≠ 0)
    (hSmall : den ≤ num * 2 ^ 1074) :
    1 ≤ (scaledQuotient num den (max (normalExponent num den) subnormalExponent)).1 ∧
      (scaledQuotient num den (max (normalExponent num den) subnormalExponent)).1 < 2 ^ 53 := by
  have hBelow := scaled_lt_normalExponent num hden
  rcases le_total (normalExponent num den) subnormalExponent with hLeast | hNormal
  · -- below the least exponent the ratio is subnormal: it is scaled by `2^1074` alone
    rw [max_eq_right hLeast]
    have hScale : (-subnormalExponent).toNat = 1074 := rfl
    have hUnscaled : subnormalExponent.toNat = 0 := rfl
    have hNoScale : (normalExponent num den).toNat = 0 := by
      unfold subnormalExponent at hLeast
      omega
    have hMore : 2 ^ 1074 ≤ 2 ^ (-normalExponent num den).toNat :=
      pow_le_pow_right₀ (by decide) (by unfold subnormalExponent at hLeast; omega)
    rw [hNoScale] at hBelow
    refine ⟨one_le_scaledQuotient hden ?_, ?_⟩
    · rw [hScale, hUnscaled, Nat.pow_zero, Nat.mul_one]
      exact hSmall
    rw [scaledQuotient_lt_iff hden, hScale, hUnscaled]
    calc num * 2 ^ 1074 ≤ num * 2 ^ (-normalExponent num den).toNat := Nat.mul_le_mul_left _ hMore
      _ < 2 ^ 53 * (den * 2 ^ 0) := hBelow
  · rw [max_eq_left hNormal]
    refine ⟨one_le_scaledQuotient hden (scaled_le_of_le_log2 hnum ?_), ?_⟩
    · have := normalExponent_le num den
      omega
    · exact (scaledQuotient_lt_iff hden).mpr hBelow

/-- A double that is positive infinity or a positive finite value lies above zero. -/
theorem pos_of_value {x : Double}
    (h : x.value = .infinite false ∨ ∃ m e, 0 < m ∧ x.value = .finite false m e) : 0 < x := by
  have hNaN : x.isNaN = false := by
    rcases h with h | ⟨m, e, -, h⟩ <;> simp [isNaN, h]
  refine lt_iff.mpr ⟨zero_isNaN, hNaN, ?_⟩
  rw [zero_key]
  rcases h with h | ⟨m, e, hm, h⟩
  · rw [h]
    show (0 : Int) < ((2 ^ 2100 : Nat) : Int)
    exact Int.natCast_pos.mpr (pow_pos (by decide) 2100)
  · rw [h]
    simp only [Value.key, signed, Bool.false_eq_true, if_false]
    exact_mod_cast Nat.mul_pos hm (Nat.two_pow_pos _)

/-- An encoding whose fields fit is below `2^64`, so it is its own bit pattern. -/
theorem value_ofBits_encodeBits {biased fraction : Nat} (hBiased : biased < 2047)
    (hFraction : fraction < 2 ^ 52) :
    (ofBits (encodeBits false biased fraction)).value =
      if biased = 0 then .finite false fraction subnormalExponent
      else .finite false (fraction + 2 ^ 52) ((biased : Int) - 1075) := by
  have hBits : encodeBits false biased fraction < 2 ^ 64 := by
    simp only [encodeBits, Nat.pow_eq, Bool.false_eq_true, if_false]
    omega
  rw [value_ofBits, Nat.mod_eq_of_lt hBits, decodeBits_encodeBits hBiased hFraction]

/-- **A positive mantissa of at most 53 bits packs into a positive double**, or into infinity
past the largest binade. -/
theorem packBits_pos {m : Nat} {e : Int} (hm : 0 < m) (hm' : m ≤ 2 ^ 53)
    (he : subnormalExponent ≤ e) : 0 < ofBits (packBits false m e) := by
  unfold packBits
  -- a mantissa of `2^53` carries into the next binade
  obtain ⟨m', e', hCarry, hPos, hLt, hLow⟩ : ∃ m' e',
      (if m = Nat.pow 2 53 then (Nat.pow 2 52, e + 1) else (m, e)) = (m', e') ∧
        0 < m' ∧ m' < 2 ^ 53 ∧ subnormalExponent ≤ e' := by
    by_cases h : m = Nat.pow 2 53
    · exact ⟨_, _, if_pos h, by simp, by simp, by omega⟩
    · simp only [Nat.pow_eq] at h
      exact ⟨_, _, if_neg h, hm, by omega, he⟩
  rw [hCarry]
  dsimp only
  simp only [Nat.pow_eq]
  apply pos_of_value
  split
  · exact .inl (by decide)
  split
  · rename_i hSubnormal
    rw [value_ofBits_encodeBits (by decide) hSubnormal]
    exact .inr ⟨m', _, hPos, rfl⟩
  · rename_i hOverflow hNormal
    have hBiased : (e' + 1075).toNat < 2047 := by omega
    rw [value_ofBits_encodeBits hBiased (by omega)]
    have hNonzero : (e' + 1075).toNat ≠ 0 := by
      unfold subnormalExponent at hLow
      omega
    rw [if_neg hNonzero]
    exact .inr ⟨_, _, by omega, rfl⟩

/-- **A positive ratio of at least `2^-1074` rounds to a positive double.** -/
theorem ratioBits_pos {num den : Nat} (hnum : num ≠ 0) (hden : den ≠ 0)
    (hSmall : den ≤ num * 2 ^ 1074) : 0 < ofBits (ratioBits false num den) := by
  have hBounds := ratio_quotient_bounds hnum hden hSmall
  unfold ratioBits
  rw [if_neg hden, if_neg hnum]
  dsimp only
  generalize scaledQuotient num den (max (normalExponent num den) subnormalExponent) = t
    at hBounds ⊢
  obtain ⟨q, r, d⟩ := t
  dsimp only at hBounds ⊢
  -- the rounded mantissa is the quotient or one more
  have hRound := roundHalfEven_cases q r d
  exact packBits_pos (by omega) (by omega) (le_max_right _ _)

/-- A positive multiple of `2^e`, with `e` at least the least exponent, rounds to a positive
double. -/
theorem ofScaled_pos {negZero : Bool} {s e : Int} (hs : 0 < s) (he : subnormalExponent ≤ e) :
    0 < ofScaled negZero s e := by
  unfold ofScaled
  rw [if_neg hs.ne', decide_eq_false (not_lt.mpr hs.le)]
  have hMagnitude : 1 ≤ s.natAbs * Nat.pow 2 e.toNat :=
    Nat.mul_pos (Int.natAbs_pos.mpr hs.ne') (Nat.two_pow_pos _)
  apply ratioBits_pos (by omega) (Nat.two_pow_pos _).ne'
  -- the divisor is at most `2^1074`, as `e` is at least `-1074`
  have hScale : (-e).toNat ≤ 1074 := by
    unfold subnormalExponent at he
    omega
  simp only [Nat.pow_eq] at hMagnitude ⊢
  exact le_trans (pow_le_pow_right₀ (by decide) hScale) (Nat.le_mul_of_pos_left _ hMagnitude)

/-! ## §7 Differences -/

-- `neg x` is rewritten through its equation, never unfolded: reducing its value would
-- compute with the symbolic bits of `x`.
theorem isNaN_neg (x : Double) : (neg x).isNaN = x.isNaN := by
  rw [isNaN, isNaN, value_neg]
  cases x.value <;> rfl

theorem signed_not (negative : Bool) (m : Nat) : signed (!negative) m = -signed negative m := by
  cases negative <;> simp [signed]

theorem align_eq (sx : Bool) (mx : Nat) (ex : Int) (sy : Bool) (my : Nat) (ey : Int) :
    align sx mx ex sy my ey =
      (signed sx (mx * 2 ^ (ex - min ex ey).toNat), signed sy (my * 2 ^ (ey - min ex ey).toNat),
        min ex ey) := by
  simp [align, Nat.pow_eq]

/-- A sum with a NaN is NaN. -/
theorem add_isNaN {x y : Double} (h : x.isNaN = true ∨ y.isNaN = true) :
    (add x y).isNaN = true := by
  unfold isNaN at h
  unfold add
  split <;> simp_all <;> decide

theorem infinity_pos : 0 < infinity false := pos_of_value (.inl (by decide))

/-- A key below that of an infinity belongs to anything but positive infinity; a key above
it, to anything but negative infinity. -/
theorem sign_of_key_lt_infinite {v : Value} {negative : Bool}
    (hBounds : signed true (2 ^ 2100) ≤ v.key ∧ v.key ≤ signed false (2 ^ 2100))
    (h : v.key < (Value.infinite negative).key) : negative = false := by
  cases negative
  · rfl
  · exact absurd (lt_of_lt_of_le h hBounds.1) (lt_irrefl _)

theorem sign_of_infinite_lt_key {v : Value} {negative : Bool}
    (hBounds : signed true (2 ^ 2100) ≤ v.key ∧ v.key ≤ signed false (2 ^ 2100))
    (h : (Value.infinite negative).key < v.key) : negative = true := by
  cases negative
  · exact absurd (lt_of_le_of_lt hBounds.2 h) (lt_irrefl _)
  · rfl

/-- Every key that is not NaN's lies between those of the infinities. -/
theorem key_bounds {x : Double} (hx : x.isNaN = false) :
    signed true (2 ^ 2100) ≤ x.value.key ∧ x.value.key ≤ signed false (2 ^ 2100) := by
  unfold isNaN at hx
  cases hv : x.value with
  | nan => simp [hv] at hx
  | infinite negative =>
    have hInfinities : signed true (2 ^ 2100) ≤ signed false (2 ^ 2100) := by
      simp only [signed, if_true, Bool.false_eq_true, if_false]
      omega
    cases negative
    · exact ⟨hInfinities, le_rfl⟩
    · exact ⟨le_rfl, hInfinities⟩
  | finite s m e =>
    have hBounds := key_finite_bounds hv
    exact ⟨hBounds.1.le, hBounds.2.le⟩

/-- **The difference over a smaller double is positive**, never a zero: an infinity when one
side is infinite, and otherwise the rounding of a positive multiple of `2^-1074`. -/
theorem add_neg_pos {a b : Double} (ha : a.isNaN = false) (hb : b.isNaN = false)
    (hKey : a.value.key < b.value.key) : 0 < add b (neg a) := by
  have haBounds := key_bounds ha
  have hbBounds := key_bounds hb
  unfold isNaN at ha hb
  rw [add, value_neg]
  cases hvb : b.value with
  | nan => simp [hvb] at hb
  | infinite sb =>
    rw [hvb] at hKey hbBounds
    obtain rfl := sign_of_key_lt_infinite haBounds hKey
    cases hva : a.value with
    | nan => simp [hva] at ha
    | infinite sa =>
      rw [hva] at hKey
      obtain rfl := sign_of_infinite_lt_key hbBounds hKey
      exact infinity_pos
    | finite sa ma ea => exact infinity_pos
  | finite sb mb eb =>
    rw [hvb] at hKey hbBounds
    cases hva : a.value with
    | nan => simp [hva] at ha
    | infinite sa =>
      rw [hva] at hKey
      obtain rfl := sign_of_infinite_lt_key hbBounds hKey
      exact infinity_pos
    | finite sa ma ea =>
      rw [hva] at hKey
      simp only [Value.neg]
      rw [align_eq]
      dsimp only
      have hLow := le_min (decodeBits_exponent_ge hvb) (decodeBits_exponent_ge hva)
      refine ofScaled_pos ?_ hLow
      -- the aligned sum is the difference of the keys, scaled down by `2^(e + 1074)`
      rw [key_eq_scaled (min_le_right eb ea) hLow, key_eq_scaled (min_le_left eb ea) hLow] at hKey
      have hAligned := lt_of_mul_lt_mul_right hKey (by positivity)
      rw [signed_not]
      omega

/-- **The difference of `b` over `a` where `b` is not at most `a` is positive, or NaN.** -/
theorem sub_pos {a b : Double} (h : ¬ b ≤ a) : 0 < b - a ∨ (b - a).isNaN = true := by
  show 0 < add b (neg a) ∨ (add b (neg a)).isNaN = true
  cases ha : a.isNaN
  · cases hb : b.isNaN
    · have hKey : a.value.key < b.value.key :=
        lt_of_not_ge fun hle => h (le_iff.mpr ⟨hb, ha, hle⟩)
      exact .inl (add_neg_pos ha hb hKey)
    · exact .inr (add_isNaN (.inl hb))
  · exact .inr (add_isNaN (.inr (by rw [isNaN_neg, ha])))

/-! ## §8 The laws of step sizes -/

/-- A quotient reads the values of its operands alone. -/
theorem div_congr_right (x : Double) {y y' : Double} (h : y.value = y'.value) : x / y = x / y' := by
  show div x y = div x y'
  unfold div
  rw [h]

/-- A finite double is not NaN. -/
theorem isNaN_of_isFinite {x : Double} (h : x.isFinite = true) : x.isNaN = false := by
  unfold isFinite at h
  unfold isNaN
  split <;> simp_all

/-- A positive double has a positive key. -/
theorem key_pos {x : Double} (h : 0 < x) : 0 < x.value.key := by
  obtain ⟨-, -, hKey⟩ := lt_iff.mp h
  rwa [zero_key] at hKey

/-- **Step sizes of doubles obey the laws of the kept factorisation.** A finite double not at
most zero, and a double not below a positive one, are positive; the difference over a
smaller double is positive; and two positive doubles equal under `==` denote the same value,
so their reciprocals are the same double. -/
theorem stepLaws : Integrator.StepLaws Double where
  not_isNaN_of_isFinite _ hFinite := isNaN_of_isFinite hFinite
  pos_of_not_le_zero x hFinite hNotLe := by
    have hx : x.isNaN = false := isNaN_of_isFinite hFinite
    refine lt_iff.mpr ⟨zero_isNaN, hx, ?_⟩
    rw [zero_key]
    exact lt_of_not_ge fun hle => hNotLe (le_iff.mpr ⟨hx, zero_isNaN, by rwa [zero_key]⟩)
  admissible_of_not_lt x lo hlo hNotLt := by
    cases hx : x.isNaN
    · -- a number not below a positive bound lies above zero
      obtain ⟨-, hLo, hLoKey⟩ := lt_iff.mp hlo
      have hKey : lo.value.key ≤ x.value.key :=
        le_of_not_gt fun hlt => hNotLt (lt_iff.mpr ⟨hx, hLo, hlt⟩)
      exact .inl (lt_iff.mpr ⟨zero_isNaN, hx, lt_of_lt_of_le hLoKey hKey⟩)
    · exact .inr hx
  admissible_sub a b h := sub_pos h
  inv_eq_of_beq a b ha hab := by
    obtain ⟨haNaN, hbNaN, hKey⟩ := beq_iff.mp hab
    -- a NaN is never `==`, so `a` is positive, and its key is not zero
    have hPos : 0 < a :=
      ha.resolve_right (by rw [show Scalar.isNaN a = a.isNaN from rfl, haNaN]; decide)
    exact div_congr_right 1 (value_eq_of_key_eq haNaN hbNaN hKey (key_pos hPos).ne')

end Double

end SteadyAdjoint.Binary64
