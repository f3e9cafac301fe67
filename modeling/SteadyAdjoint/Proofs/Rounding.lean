import SteadyAdjoint.Proofs.DoubleLaws

/-!
# Rounding to nearest against the doubles around it

`ratioBits` rounds a positive ratio `num / den` to the nearest double. This module proves the
two halves of monotonicity that a comparison with a double needs: the rounding is at least
every double at most the ratio (`Double.le_rounded`), and at most every double at least it
(`Double.rounded_le`). Both are argued on the grid of the rounding exponent, the normal
exponent of the ratio or the least one. A double at or above that exponent is a multiple of
its step, and compares with the quotient as it compares with the ratio; a double below it
lies in a lower binade, beneath every normal mantissa of the rounding.

For sums this gives `Double.le_add_of_pos`: adding a positive double never lowers a double
above `-∞`. The sum can stay where it was: it is the rounding of a number above `x`, which
rounds back to `x` when the addend is below half a unit in the last place of `x`.

## Main statements

* `Double.value_ratioBits`: the double nearest to a ratio is the packed value of its rounded
  mantissa at its rounding exponent.
* `Double.le_rounded`, `Double.rounded_le`: the rounding lies between the doubles around the
  ratio.
* `Double.key_le_ofScaled`: the double nearest to `s · 2^e` is at least every finite double at
  most `s · 2^e`.
* `Double.le_add_of_pos`: `x ≤ x + y` and `-∞ < x + y` when `-∞ < x` and `0 < y`.
-/

namespace SteadyAdjoint.Binary64

/-! ## §1 Encodings of either sign -/

namespace Double

/-- An encoding whose fields fit reads back as its sign, exponent and fraction. -/
theorem value_ofBits_encodeBits_signed (negative : Bool) {biased fraction : Nat}
    (hBiased : biased < 2047) (hFraction : fraction < 2 ^ 52) :
    (ofBits (encodeBits negative biased fraction)).value =
      if biased = 0 then .finite negative fraction subnormalExponent
      else .finite negative (fraction + 2 ^ 52) ((biased : Int) - 1075) := by
  have hBits : encodeBits negative biased fraction < 2 ^ 64 := by
    cases negative <;> simp only [encodeBits, Nat.pow_eq, Bool.false_eq_true, if_false,
      if_true] <;> omega
  rw [value_ofBits, Nat.mod_eq_of_lt hBits, decodeBits_encodeBits hBiased hFraction]

theorem value_ofBits_infinityBits (negative : Bool) :
    (ofBits (infinityBits negative)).value = .infinite negative := by
  cases negative <;> decide

/-! ## §2 Packing a rounded mantissa -/

/-- What `packBits` encodes: the mantissa `m` at the exponent `e`, a mantissa of `2^53`
carried into the next binade, and an infinity past the largest binade. -/
def packedValue (negative : Bool) (m : Nat) (e : Int) : Value :=
  let (m, e) := if m = 2 ^ 53 then (2 ^ 52, e + 1) else (m, e)
  if 971 < e then .infinite negative else .finite negative m e

/-- **`packBits` encodes its packed value**, for a positive mantissa of at most 53 bits that
is normal unless its exponent is the least. -/
theorem value_packBits (negative : Bool) {m : Nat} {e : Int} (hm : 0 < m) (hm' : m ≤ 2 ^ 53)
    (he : subnormalExponent ≤ e) (hNormal : 2 ^ 52 ≤ m ∨ e = subnormalExponent) :
    (ofBits (packBits negative m e)).value = packedValue negative m e := by
  unfold packBits packedValue
  simp only [Nat.pow_eq]
  by_cases hCarry : m = 2 ^ 53
  · -- a carry: the mantissa `2^52` in the next binade
    simp only [hCarry, if_true]
    split
    · exact value_ofBits_infinityBits negative
    · rename_i hLe
      have hBiased : (e + 1 + 1075).toNat < 2047 := by omega
      unfold subnormalExponent at he
      rw [if_neg (lt_irrefl _), value_ofBits_encodeBits_signed negative hBiased (by simp),
        if_neg (by omega)]
      congr 1
      omega
  · simp only [hCarry, if_false]
    split
    · exact value_ofBits_infinityBits negative
    · rename_i hLe
      split
      · -- a subnormal mantissa sits at the least exponent
        rename_i hSub
        have he' : e = subnormalExponent := hNormal.resolve_left (by omega)
        rw [value_ofBits_encodeBits_signed negative (by decide) hSub, if_pos rfl, he']
      · rename_i hNorm
        have hBiased : (e + 1075).toNat < 2047 := by omega
        unfold subnormalExponent at he
        rw [value_ofBits_encodeBits_signed negative hBiased (by omega), if_neg (by omega)]
        congr 1 <;> omega

/-- **A packed value is the mantissa times its scale, or an infinity beyond `2^1024`.** Its
key is `±m · 2^(e + 1074)` unless that reaches `2^2098`, the key of `2^1024`, where it
overflows. -/
theorem packedValue_cases (negative : Bool) {m : Nat} {e : Int}
    (he : subnormalExponent ≤ e) (hNormal : 2 ^ 52 ≤ m ∨ e = subnormalExponent) :
    (packedValue negative m e = .infinite negative ∧
        2 ^ 2098 ≤ m * 2 ^ (e - subnormalExponent).toNat) ∨
      ∃ m' e', packedValue negative m e = .finite negative m' e' ∧
        (Value.finite negative m' e').key =
          signed negative (m * 2 ^ (e - subnormalExponent).toNat) := by
  unfold packedValue subnormalExponent at *
  by_cases hCarry : m = 2 ^ 53
  · simp only [hCarry, if_true]
    split
    · -- `2^53 · 2^(e + 1074)` with `e ≥ 971` is at least `2^2098`
      rename_i hOver
      refine .inl ⟨rfl, ?_⟩
      calc 2 ^ 2098 = 2 ^ 53 * 2 ^ 2045 := by rw [← Nat.pow_add]
        _ ≤ 2 ^ 53 * 2 ^ (e - -1074).toNat :=
          Nat.mul_le_mul_left _ (Nat.pow_le_pow_right (by decide) (by omega))
    · refine .inr ⟨_, _, rfl, ?_⟩
      simp only [Value.key, subnormalExponent]
      congr 1
      have hk : (e + 1 - -1074).toNat = (e - -1074).toNat + 1 := by omega
      rw [hk, pow_succ, show (2 : Nat) ^ 53 = 2 ^ 52 * 2 by norm_num]
      ring
  · simp only [hCarry, if_false]
    split
    · rename_i hOver
      refine .inl ⟨rfl, ?_⟩
      have hm : 2 ^ 52 ≤ m := hNormal.resolve_right (by omega)
      calc 2 ^ 2098 = 2 ^ 52 * 2 ^ 2046 := by rw [← Nat.pow_add]
        _ ≤ m * 2 ^ (e - -1074).toNat :=
          Nat.mul_le_mul hm (Nat.pow_le_pow_right (by decide) (by omega))
    · exact .inr ⟨_, _, rfl, rfl⟩

/-! ## §3 Quotients against multiples of a power of two -/

/-- At an exponent `e` of at least `-1074`, the scale `2^(e + 1074)` of `e` in units of
`2^-1074` times the dividend's factor `2^(-e)⁺` is the divisor's factor `2^e⁺` times
`2^1074`. -/
theorem scale_mul_pow_neg {e : Int} (he : subnormalExponent ≤ e) :
    2 ^ (e - subnormalExponent).toNat * 2 ^ (-e).toNat = 2 ^ e.toNat * 2 ^ 1074 := by
  unfold subnormalExponent at he ⊢
  rw [← Nat.pow_add, ← Nat.pow_add]
  congr 1
  omega

/-- `K · 2^e` in units of `2^-1074`, against `num / den`, compares as `K` does against the
scaled quotient of `scaledQuotient` at `e`. -/
theorem scaled_mul_pow_neg (K den : Nat) {e : Int} (he : subnormalExponent ≤ e) :
    K * 2 ^ (e - subnormalExponent).toNat * den * 2 ^ (-e).toNat =
      K * (den * 2 ^ e.toNat) * 2 ^ 1074 := by
  calc K * 2 ^ (e - subnormalExponent).toNat * den * 2 ^ (-e).toNat
      = K * den * (2 ^ (e - subnormalExponent).toNat * 2 ^ (-e).toNat) := by ring
    _ = K * (den * 2 ^ e.toNat) * 2 ^ 1074 := by
      rw [scale_mul_pow_neg he, ← Nat.mul_assoc, Nat.mul_assoc K]

theorem scaled_le_iff {K num den : Nat} {e : Int} (he : subnormalExponent ≤ e) :
    K * 2 ^ (e - subnormalExponent).toNat * den ≤ num * 2 ^ 1074 ↔
      K * (den * 2 ^ e.toNat) ≤ num * 2 ^ (-e).toNat := by
  rw [← Nat.mul_le_mul_right_iff (Nat.two_pow_pos (-e).toNat), scaled_mul_pow_neg K den he,
    Nat.mul_right_comm num,
    Nat.mul_le_mul_right_iff (Nat.two_pow_pos 1074)]

theorem le_scaled_iff {K num den : Nat} {e : Int} (he : subnormalExponent ≤ e) :
    num * 2 ^ 1074 ≤ K * 2 ^ (e - subnormalExponent).toNat * den ↔
      num * 2 ^ (-e).toNat ≤ K * (den * 2 ^ e.toNat) := by
  rw [← Nat.mul_le_mul_right_iff (Nat.two_pow_pos (-e).toNat), scaled_mul_pow_neg K den he,
    Nat.mul_right_comm num,
    Nat.mul_le_mul_right_iff (Nat.two_pow_pos 1074)]

/-- An exact quotient is not rounded. -/
theorem roundHalfEven_exact (q : Nat) {d : Nat} (hd : 0 < d) : roundHalfEven q 0 d = q := by
  simp [roundHalfEven, hd]

/-- Rounding a quotient never passes a multiple of the divisor at or above the dividend: it
rounds up only with a remainder, and then the dividend is below that multiple. -/
theorem roundHalfEven_div_le {n d K : Nat} (hd : 0 < d) (h : n ≤ K * d) :
    roundHalfEven (n / d) (n % d) d ≤ K := by
  have hFloor : n / d ≤ K := Nat.div_le_of_le_mul (by rwa [Nat.mul_comm] at h)
  rcases roundHalfEven_cases (n / d) (n % d) d with hRound | hRound
  · rw [hRound]
    exact hFloor
  · have hRem : n % d ≠ 0 := by
      intro h0
      rw [h0, roundHalfEven_exact _ hd] at hRound
      omega
    have hLt : n < K * d := lt_of_le_of_ne h fun hEq => hRem (by rw [hEq, Nat.mul_mod_left])
    rw [hRound]
    exact (Nat.div_lt_iff_lt_mul hd).mpr hLt

/-! ## §4 The rounding of a ratio -/

/-- The exponent a nonzero ratio is rounded at: its normal exponent, or the least one. -/
def roundingExponent (num den : Nat) : Int := max (normalExponent num den) subnormalExponent

/-- The mantissa a nonzero ratio rounds to at its rounding exponent, before a carry. -/
def roundedMantissa (num den : Nat) : Nat :=
  let (q, r, d) := scaledQuotient num den (roundingExponent num den)
  roundHalfEven q r d

theorem subnormalExponent_le_roundingExponent (num den : Nat) :
    subnormalExponent ≤ roundingExponent num den :=
  le_max_right _ _

theorem ratioBits_eq_packBits (negative : Bool) {num den : Nat} (hnum : num ≠ 0)
    (hden : den ≠ 0) :
    ratioBits negative num den =
      packBits negative (roundedMantissa num den) (roundingExponent num den) := by
  rw [ratioBits, if_neg hden, if_neg hnum]
  rfl

/-- Below the binary logarithm of the ratio less `j` bits, the scaled quotient has at least
`j` bits. -/
theorem pow_mul_scaled_le_of_le_log2 (j : Nat) {num den : Nat} {e : Int} (hnum : num ≠ 0)
    (he : e + j ≤ (Nat.log2 num : Int) - Nat.log2 den - 1) :
    2 ^ j * (den * 2 ^ e.toNat) ≤ num * 2 ^ (-e).toNat := by
  have hDen : den < 2 ^ (Nat.log2 den + 1) := Nat.lt_log2_self
  have hNum : 2 ^ Nat.log2 num ≤ num := Nat.log2_self_le hnum
  calc 2 ^ j * (den * 2 ^ e.toNat) ≤ 2 ^ j * (2 ^ (Nat.log2 den + 1) * 2 ^ e.toNat) :=
        Nat.mul_le_mul_left _ (Nat.mul_le_mul_right _ hDen.le)
    _ = 2 ^ (j + (Nat.log2 den + 1 + e.toNat)) := by rw [← Nat.pow_add, ← Nat.pow_add]
    _ ≤ 2 ^ (Nat.log2 num + (-e).toNat) := Nat.pow_le_pow_right (by decide) (by omega)
    _ = 2 ^ Nat.log2 num * 2 ^ (-e).toNat := Nat.pow_add _ _ _
    _ ≤ num * 2 ^ (-e).toNat := Nat.mul_le_mul_right _ hNum

/-- **At the normal exponent the quotient is normal**: it has at least 53 bits. -/
theorem normal_scaledQuotient {num den : Nat} (hnum : num ≠ 0) (hden : den ≠ 0) :
    2 ^ 52 ≤ (scaledQuotient num den (normalExponent num den)).1 := by
  unfold normalExponent
  dsimp only
  split
  · -- one exponent lower: the first guess lies below the binary logarithm less 53 bits
    simp only [scaledQuotient, Nat.pow_eq]
    rw [Nat.le_div_iff_mul_le (Nat.mul_pos (Nat.pos_of_ne_zero hden) (Nat.two_pow_pos _))]
    refine pow_mul_scaled_le_of_le_log2 52 hnum ?_
    omega
  · rename_i hNormal
    simpa using hNormal

/-- At the rounding exponent the quotient has between one and 53 bits, and at least 53 unless
the exponent is the least. -/
theorem rounding_quotient_bounds {num den : Nat} (hnum : num ≠ 0) (hden : den ≠ 0)
    (hSmall : den ≤ num * 2 ^ 1074) :
    1 ≤ (scaledQuotient num den (roundingExponent num den)).1 ∧
      (scaledQuotient num den (roundingExponent num den)).1 < 2 ^ 53 ∧
      (2 ^ 52 ≤ (scaledQuotient num den (roundingExponent num den)).1 ∨
        roundingExponent num den = subnormalExponent) := by
  obtain ⟨hOne, hBelow⟩ := ratio_quotient_bounds hnum hden hSmall
  refine ⟨hOne, hBelow, ?_⟩
  unfold roundingExponent
  rcases le_total (normalExponent num den) subnormalExponent with hLeast | hNormal
  · exact .inr (max_eq_right hLeast)
  · rw [max_eq_left hNormal]
    exact .inl (normal_scaledQuotient hnum hden)

/-- The rounded mantissa is the quotient or one more. -/
theorem roundedMantissa_cases (num den : Nat) :
    roundedMantissa num den = (scaledQuotient num den (roundingExponent num den)).1 ∨
      roundedMantissa num den = (scaledQuotient num den (roundingExponent num den)).1 + 1 :=
  roundHalfEven_cases _ _ _

/-- **A rounded mantissa fits the format**: positive, at most `2^53`, and normal unless its
exponent is the least. -/
theorem roundedMantissa_bounds {num den : Nat} (hnum : num ≠ 0) (hden : den ≠ 0)
    (hSmall : den ≤ num * 2 ^ 1074) :
    0 < roundedMantissa num den ∧ roundedMantissa num den ≤ 2 ^ 53 ∧
      (2 ^ 52 ≤ roundedMantissa num den ∨ roundingExponent num den = subnormalExponent) := by
  obtain ⟨hOne, hBelow, hNormal⟩ := rounding_quotient_bounds hnum hden hSmall
  rcases roundedMantissa_cases num den with hm | hm <;> rw [hm] <;> omega

/-- **The double nearest to a ratio is the packed value of its rounded mantissa.** -/
theorem value_ratioBits (negative : Bool) {num den : Nat} (hnum : num ≠ 0) (hden : den ≠ 0)
    (hSmall : den ≤ num * 2 ^ 1074) :
    (ofBits (ratioBits negative num den)).value =
      packedValue negative (roundedMantissa num den) (roundingExponent num den) := by
  obtain ⟨hPos, hMax, hNormal⟩ := roundedMantissa_bounds hnum hden hSmall
  rw [ratioBits_eq_packBits negative hnum hden]
  exact value_packBits negative hPos hMax (subnormalExponent_le_roundingExponent num den) hNormal

/-! ## §5 Rounding between doubles -/

/-- A multiple of `2^ez` in units of `2^-1074`, seen from a lower exponent `e`. -/
theorem shift_scale (m : Nat) {e ez : Int} (hLe : e ≤ ez) (he : subnormalExponent ≤ e) :
    m * 2 ^ (ez - subnormalExponent).toNat =
      m * 2 ^ (ez - e).toNat * 2 ^ (e - subnormalExponent).toNat := by
  rw [Nat.mul_assoc, ← Nat.pow_add]
  congr 2
  omega

/-- A mantissa of 53 bits at most, at an exponent below `e`, is below the least normal
mantissa at `e`. -/
theorem scaled_lt_normal {mz : Nat} {ez e : Int} (hmz : mz < 2 ^ 53)
    (hez : subnormalExponent ≤ ez) (hLt : ez < e) :
    mz * 2 ^ (ez - subnormalExponent).toNat < 2 ^ 52 * 2 ^ (e - subnormalExponent).toNat := by
  calc mz * 2 ^ (ez - subnormalExponent).toNat
      < 2 ^ 53 * 2 ^ (ez - subnormalExponent).toNat :=
        Nat.mul_lt_mul_of_pos_right hmz (Nat.two_pow_pos _)
    _ = 2 ^ 52 * 2 ^ ((ez - subnormalExponent).toNat + 1) := by rw [Nat.pow_succ]; ring
    _ ≤ 2 ^ 52 * 2 ^ (e - subnormalExponent).toNat :=
        Nat.mul_le_mul_left _ (Nat.pow_le_pow_right (by decide) (by omega))

theorem roundedMantissa_eq (num den : Nat) :
    roundedMantissa num den =
      roundHalfEven (num * 2 ^ (-roundingExponent num den).toNat /
          (den * 2 ^ (roundingExponent num den).toNat))
        (num * 2 ^ (-roundingExponent num den).toNat % (den * 2 ^ (roundingExponent num den).toNat))
        (den * 2 ^ (roundingExponent num den).toNat) := by
  simp only [roundedMantissa, scaledQuotient, Nat.pow_eq]

/-- **Rounding a ratio never falls below a double at most the ratio.** In units of `2^-1074`,
a magnitude `mz · 2^ez` of at most 53 bits that is at most `num / den` is at most the rounded
magnitude. Monotonicity of rounding, against the doubles only: either the double lies on the
grid of the rounding exponent, where it is at most the quotient, or in a lower binade, below
every normal mantissa. -/
theorem le_rounded {num den mz : Nat} {ez : Int} (hnum : num ≠ 0) (hden : den ≠ 0)
    (hSmall : den ≤ num * 2 ^ 1074) (hmz : mz < 2 ^ 53) (hez : subnormalExponent ≤ ez)
    (h : mz * 2 ^ (ez - subnormalExponent).toNat * den ≤ num * 2 ^ 1074) :
    mz * 2 ^ (ez - subnormalExponent).toNat ≤
      roundedMantissa num den * 2 ^ (roundingExponent num den - subnormalExponent).toNat := by
  have he := subnormalExponent_le_roundingExponent num den
  obtain ⟨-, -, hNormal⟩ := rounding_quotient_bounds hnum hden hSmall
  have hq : (scaledQuotient num den (roundingExponent num den)).1 ≤ roundedMantissa num den := by
    rcases roundedMantissa_cases num den with hm | hm <;> omega
  generalize roundingExponent num den = e at he hNormal hq ⊢
  refine le_trans ?_ (Nat.mul_le_mul_right _ hq)
  rcases le_or_gt e ez with hLe | hLt
  · -- on the grid of `e`: the double's multiple of `2^e` is at most the quotient
    rw [shift_scale mz hLe he] at h ⊢
    refine Nat.mul_le_mul_right _ ?_
    simp only [scaledQuotient, Nat.pow_eq]
    rw [Nat.le_div_iff_mul_le (Nat.mul_pos (Nat.pos_of_ne_zero hden) (Nat.two_pow_pos _))]
    exact (scaled_le_iff he).mp h
  · -- in a lower binade: the exponent `e` is normal, and its quotient has 53 bits
    have hq52 : 2 ^ 52 ≤ (scaledQuotient num den e).1 := hNormal.resolve_right (by omega)
    exact (scaled_lt_normal hmz hez hLt).le.trans (Nat.mul_le_mul_right _ hq52)

/-- **Rounding a ratio never passes a double at least the ratio.** In units of `2^-1074`, a
magnitude `mz · 2^ez` of at most 53 bits that is at least `num / den` is at least the rounded
magnitude: the double cannot lie in a lower binade than the rounding, and on the grid of the
rounding exponent it is a multiple of the divisor at or above the dividend. -/
theorem rounded_le {num den mz : Nat} {ez : Int} (hnum : num ≠ 0) (hden : den ≠ 0)
    (hSmall : den ≤ num * 2 ^ 1074) (hmz : mz < 2 ^ 53) (hez : subnormalExponent ≤ ez)
    (h : num * 2 ^ 1074 ≤ mz * 2 ^ (ez - subnormalExponent).toNat * den) :
    roundedMantissa num den * 2 ^ (roundingExponent num den - subnormalExponent).toNat ≤
      mz * 2 ^ (ez - subnormalExponent).toNat := by
  have he := subnormalExponent_le_roundingExponent num den
  obtain ⟨-, -, hNormal⟩ := rounding_quotient_bounds hnum hden hSmall
  rw [roundedMantissa_eq]
  generalize roundingExponent num den = e at he hNormal ⊢
  have hd : 0 < den * 2 ^ e.toNat := Nat.mul_pos (Nat.pos_of_ne_zero hden) (Nat.two_pow_pos _)
  have hLe : e ≤ ez := by
    by_contra hLt
    -- the quotient's multiple of `2^e` is at most the ratio, so at most the double
    have hq52 : 2 ^ 52 ≤ (scaledQuotient num den e).1 := hNormal.resolve_right (by omega)
    have hFloor : (scaledQuotient num den e).1 * 2 ^ (e - subnormalExponent).toNat * den ≤
        num * 2 ^ 1074 := by
      rw [scaled_le_iff he]
      simp only [scaledQuotient, Nat.pow_eq]
      exact Nat.div_mul_le_self _ _
    have hBelow : (scaledQuotient num den e).1 * 2 ^ (e - subnormalExponent).toNat ≤
        mz * 2 ^ (ez - subnormalExponent).toNat :=
      Nat.le_of_mul_le_mul_right (hFloor.trans h) (Nat.pos_of_ne_zero hden)
    have hAbove := Nat.mul_le_mul_right (2 ^ (e - subnormalExponent).toNat) hq52
    exact absurd (scaled_lt_normal hmz hez (by omega)) (not_lt.mpr (hAbove.trans hBelow))
  rw [shift_scale mz hLe he] at h ⊢
  exact Nat.mul_le_mul_right _ (roundHalfEven_div_le hd ((le_scaled_iff he).mp h))

/-! ## §6 A positive addend never lowers a sum -/

/-- A finite double's magnitude is below `2^2098`, in units of `2^-1074` the value `2^1024`
where rounding overflows. -/
theorem magnitude_lt_overflow {x : Double} {s : Bool} {m : Nat} {e : Int}
    (h : x.value = .finite s m e) : m * 2 ^ (e - subnormalExponent).toNat < 2 ^ 2098 := by
  have hm : m < 2 ^ 53 := by simpa using decodeBits_mantissa_lt h
  have hk : (e - subnormalExponent).toNat ≤ 2045 := by
    have := decodeBits_exponent_le h
    unfold subnormalExponent
    omega
  calc m * 2 ^ (e - subnormalExponent).toNat < 2 ^ 53 * 2 ^ (e - subnormalExponent).toNat :=
        Nat.mul_lt_mul_of_pos_right hm (Nat.two_pow_pos _)
    _ ≤ 2 ^ 53 * 2 ^ 2045 := Nat.mul_le_mul_left _ (Nat.pow_le_pow_right (by decide) hk)
    _ = 2 ^ 2098 := by rw [← Nat.pow_add]

/-- The double nearest to a positive ratio is at least every positive finite double at most
the ratio. -/
theorem key_le_ratioBits {num den : Nat} (hnum : num ≠ 0) (hden : den ≠ 0)
    (hSmall : den ≤ num * 2 ^ 1074) {z : Double} {mz : Nat} {ez : Int}
    (hz : z.value = .finite false mz ez)
    (h : mz * 2 ^ (ez - subnormalExponent).toNat * den ≤ num * 2 ^ 1074) :
    (Value.finite false mz ez).key ≤ (ofBits (ratioBits false num den)).value.key := by
  have hmz : mz < 2 ^ 53 := by simpa using decodeBits_mantissa_lt hz
  have hLe := le_rounded hnum hden hSmall hmz (decodeBits_exponent_ge hz) h
  rw [value_ratioBits false hnum hden hSmall]
  rcases packedValue_cases false (subnormalExponent_le_roundingExponent num den)
      (roundedMantissa_bounds hnum hden hSmall).2.2 with ⟨hInf, -⟩ | ⟨m', e', hFin, hKey⟩
  · -- an overflow to `+∞` lies above every finite double
    rw [hInf]
    exact (key_finite_bounds hz).2.le
  · rw [hFin, hKey]
    simp only [Value.key, signed, Bool.false_eq_true, if_false]
    exact_mod_cast hLe

/-- The double nearest to a negative ratio is at least every negative finite double at most
the ratio; in particular it does not overflow to `-∞`. -/
theorem key_le_ratioBits_neg {num den : Nat} (hnum : num ≠ 0) (hden : den ≠ 0)
    (hSmall : den ≤ num * 2 ^ 1074) {z : Double} {mz : Nat} {ez : Int}
    (hz : z.value = .finite true mz ez)
    (h : num * 2 ^ 1074 ≤ mz * 2 ^ (ez - subnormalExponent).toNat * den) :
    (Value.finite true mz ez).key ≤ (ofBits (ratioBits true num den)).value.key := by
  have hmz : mz < 2 ^ 53 := by simpa using decodeBits_mantissa_lt hz
  have hLe := rounded_le hnum hden hSmall hmz (decodeBits_exponent_ge hz) h
  rw [value_ratioBits true hnum hden hSmall]
  rcases packedValue_cases true (subnormalExponent_le_roundingExponent num den)
      (roundedMantissa_bounds hnum hden hSmall).2.2 with ⟨-, hOver⟩ | ⟨m', e', hFin, hKey⟩
  · -- the rounded magnitude is at most the double's, which does not reach `2^1024`
    exact absurd (hOver.trans hLe) (not_le.mpr (magnitude_lt_overflow hz))
  · rw [hFin, hKey]
    simp only [Value.key, signed, if_true]
    exact neg_le_neg (by exact_mod_cast hLe)

theorem packedValue_ne_nan (negative : Bool) (m : Nat) (e : Int) :
    packedValue negative m e ≠ .nan := by
  unfold packedValue
  split_ifs <;> dsimp only <;> split_ifs <;> simp

/-- The double nearest to a nonzero `s · 2^e` as the rounding of a ratio. -/
theorem ofScaled_eq (negZero : Bool) {s e : Int} (hs : s ≠ 0) :
    ofScaled negZero s e =
      ofBits (ratioBits (decide (s < 0)) (s.natAbs * 2 ^ e.toNat) (2 ^ (-e).toNat)) := by
  rw [ofScaled, if_neg hs]
  simp only [Nat.pow_eq]

/-- `|s| · 2^e` for a nonzero `s` and `e` at least `-1074` is a ratio of at least
`2^-1074`. -/
theorem ofScaled_ratio_bounds {s e : Int} (hs : s ≠ 0) (he : subnormalExponent ≤ e) :
    s.natAbs * 2 ^ e.toNat ≠ 0 ∧ 2 ^ (-e).toNat ≤ s.natAbs * 2 ^ e.toNat * 2 ^ 1074 := by
  have hMagnitude : 1 ≤ s.natAbs * 2 ^ e.toNat :=
    Nat.mul_pos (Int.natAbs_pos.mpr hs) (Nat.two_pow_pos _)
  have hScale : (-e).toNat ≤ 1074 := by
    unfold subnormalExponent at he
    omega
  exact ⟨by omega,
    le_trans (pow_le_pow_right₀ (by decide) hScale) (Nat.le_mul_of_pos_left _ hMagnitude)⟩

/-- A rounding of `s · 2^e` is never NaN. -/
theorem isNaN_ofScaled (negZero : Bool) {s e : Int} (he : subnormalExponent ≤ e) :
    (ofScaled negZero s e).isNaN = false := by
  by_cases hs : s = 0
  · rw [ofScaled, if_pos hs]
    cases negZero <;> decide
  · obtain ⟨hnum, hSmall⟩ := ofScaled_ratio_bounds hs he
    rw [ofScaled_eq negZero hs, isNaN, value_ratioBits _ hnum (Nat.two_pow_pos _).ne' hSmall]
    split
    · rename_i hNaN
      exact absurd hNaN (packedValue_ne_nan _ _ _)
    · rfl

/-- **The double nearest to `s · 2^e` is at least every finite double at most `s · 2^e`**,
with keys in units of `2^-1074`. -/
theorem key_le_ofScaled (negZero : Bool) {s e : Int} (hs : s ≠ 0) (he : subnormalExponent ≤ e)
    {z : Double} {sz : Bool} {mz : Nat} {ez : Int} (hz : z.value = .finite sz mz ez)
    (h : (Value.finite sz mz ez).key ≤ s * (2 ^ (e - subnormalExponent).toNat : Nat)) :
    (Value.finite sz mz ez).key ≤ (ofScaled negZero s e).value.key := by
  obtain ⟨hnum, hSmall⟩ := ofScaled_ratio_bounds hs he
  have hden : 2 ^ (-e).toNat ≠ 0 := (Nat.two_pow_pos _).ne'
  -- `|s| · 2^e` in units of `2^-1074`, times the divisor, is the dividend times `2^1074`
  have hExact : s.natAbs * 2 ^ (e - subnormalExponent).toNat * 2 ^ (-e).toNat =
      s.natAbs * 2 ^ e.toNat * 2 ^ 1074 := by
    rw [Nat.mul_assoc, scale_mul_pow_neg he, ← Nat.mul_assoc]
  rw [ofScaled_eq negZero hs]
  rcases lt_or_gt_of_ne hs with hNeg | hPos
  · -- below zero, `z` is negative and of magnitude at least `|s| · 2^e`
    rw [decide_eq_true hNeg]
    cases sz
    · -- a positive double is not below a negative `s · 2^e`
      have hNonneg : (0 : Int) ≤ (Value.finite false mz ez).key := by
        simp only [Value.key, signed, Bool.false_eq_true, if_false]
        exact Int.natCast_nonneg _
      have hBelow : s * ((2 ^ (e - subnormalExponent).toNat : Nat) : Int) < 0 :=
        Int.mul_neg_of_neg_of_pos hNeg (Int.natCast_pos.mpr (Nat.two_pow_pos _))
      exact absurd (hNonneg.trans h) (not_le.mpr hBelow)
    · rw [← Int.neg_neg s, ← Int.ofNat_natAbs_of_nonpos hNeg.le] at h
      simp only [Value.key, signed, if_true, Int.neg_mul, neg_le_neg_iff] at h
      have hMag : s.natAbs * 2 ^ (e - subnormalExponent).toNat ≤
          mz * 2 ^ (ez - subnormalExponent).toNat := by exact_mod_cast h
      refine key_le_ratioBits_neg hnum hden hSmall hz ?_
      rw [← hExact]
      exact Nat.mul_le_mul_right _ hMag
  · rw [decide_eq_false (not_lt.mpr hPos.le)]
    cases sz
    · rw [← Int.natAbs_of_nonneg hPos.le] at h
      simp only [Value.key, signed, Bool.false_eq_true, if_false] at h
      have hMag : mz * 2 ^ (ez - subnormalExponent).toNat ≤
          s.natAbs * 2 ^ (e - subnormalExponent).toNat := by exact_mod_cast h
      refine key_le_ratioBits hnum hden hSmall hz ?_
      rw [← hExact]
      exact Nat.mul_le_mul_right _ hMag
    · -- a negative double lies below the positive rounding
      have hRound := key_pos (ratioBits_pos hnum hden hSmall)
      have hNonpos : (Value.finite true mz ez).key ≤ 0 := by
        simp only [Value.key, signed, if_true]
        omega
      exact hNonpos.trans hRound.le

theorem key_zero (negative : Bool) : (zero negative).value.key = 0 := by
  cases negative <;> decide

theorem value_infinity (negative : Bool) : (infinity negative).value = .infinite negative := by
  cases negative <;> decide

/-- A key above that of `-∞` is not the key of `-∞`. -/
theorem sign_of_key_gt_negInfinity {negative : Bool}
    (h : (infinity true).value.key < (Value.infinite negative).key) : negative = false := by
  rw [value_infinity] at h
  cases negative
  · rfl
  · exact absurd h (lt_irrefl _)

/-- A positive key belongs to a positive value. -/
theorem sign_of_infinite_key_pos {negative : Bool} (h : 0 < (Value.infinite negative).key) :
    negative = false := by
  cases negative
  · rfl
  · simp only [Value.key, signed, if_true] at h
    omega

theorem sign_of_finite_key_pos {negative : Bool} {m : Nat} {e : Int}
    (h : 0 < (Value.finite negative m e).key) : negative = false := by
  cases negative
  · rfl
  · simp only [Value.key, signed, if_true] at h
    omega

/-- **A positive addend never lowers a sum, and the sum of a double above `-∞` stays above
it.** The sum is the rounding of a number above `x`, and rounding to nearest is monotone and
leaves the double `x` where it is; it may round back to `x` itself, when `y` is below half a
unit in the last place of `x`. -/
theorem le_add_of_pos {x y : Double} (hx : infinity true < x) (hy : 0 < y) :
    x ≤ x + y ∧ infinity true < x + y := by
  obtain ⟨hInfNaN, hxNaN, hxKey⟩ := lt_iff.mp hx
  obtain ⟨-, hyNaN, hyKey⟩ := lt_iff.mp hy
  rw [zero_key] at hyKey
  suffices h : (add x y).isNaN = false ∧ x.value.key ≤ (add x y).value.key from
    ⟨le_iff.mpr ⟨hxNaN, h.1, h.2⟩, lt_iff.mpr ⟨hInfNaN, h.1, hxKey.trans_le h.2⟩⟩
  unfold isNaN at hxNaN hyNaN
  rw [add]
  cases hvx : x.value with
  | nan => simp [hvx] at hxNaN
  | infinite sx =>
    rw [hvx] at hxKey
    obtain rfl := sign_of_key_gt_negInfinity hxKey
    cases hvy : y.value with
    | nan => simp [hvy] at hyNaN
    | infinite sy =>
      -- `∞ + ∞` is `∞`
      rw [hvy] at hyKey
      obtain rfl := sign_of_infinite_key_pos hyKey
      simp only [if_true, value_infinity]
      exact ⟨by decide, le_rfl⟩
    | finite sy my ey =>
      dsimp only
      rw [value_infinity]
      exact ⟨by decide, le_rfl⟩
  | finite sx mx ex =>
    cases hvy : y.value with
    | nan => simp [hvy] at hyNaN
    | infinite sy =>
      rw [hvy] at hyKey
      obtain rfl := sign_of_infinite_key_pos hyKey
      dsimp only
      rw [value_infinity]
      exact ⟨by decide, (key_finite_bounds hvx).2.le⟩
    | finite sy my ey =>
      rw [hvy] at hyKey
      obtain rfl := sign_of_finite_key_pos hyKey
      dsimp only
      rw [align_eq]
      dsimp only
      have hLow := le_min (decodeBits_exponent_ge hvx) (decodeBits_exponent_ge hvy)
      refine ⟨isNaN_ofScaled _ hLow, ?_⟩
      -- the aligned sum is `x`'s aligned integer plus a nonnegative one
      have hxScaled := key_eq_scaled (s := sx) (m := mx) (min_le_left ex ey) hLow
      have hAddend : 0 ≤ signed false (my * 2 ^ (ey - min ex ey).toNat) := Int.natCast_nonneg _
      have hScale : (0 : Int) ≤ ((2 ^ (min ex ey - subnormalExponent).toNat : Nat) : Int) :=
        Int.natCast_nonneg _
      by_cases hS : signed sx (mx * 2 ^ (ex - min ex ey).toNat) +
          signed false (my * 2 ^ (ey - min ex ey).toNat) = 0
      · -- an exact zero sum: `x` was at most zero
        rw [hS, ofScaled, if_pos rfl, key_zero, hxScaled]
        exact Int.mul_nonpos_of_nonpos_of_nonneg (by omega) hScale
      · refine key_le_ofScaled _ hS hLow hvx ?_
        rw [hxScaled]
        exact Int.mul_le_mul_of_nonneg_right (by omega) hScale

end Double

end SteadyAdjoint.Binary64
