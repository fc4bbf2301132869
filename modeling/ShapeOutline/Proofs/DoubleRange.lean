import Mathlib
import ShapeOutline.Scalar.Binary

/-! The range of machine numbers. A finite result is rounded to an exponent that fits
or else becomes the infinity of its sign. Rounding a finite double to a whole number
and dividing one by a thousand fit; multiplying one by a thousand need not. -/

namespace ShapeOutline

namespace Double

open Float.Model Float.Model.UnpackedFloat

theorem targetExponent_eq (t : ℤ) : Format.binary64.targetExponent t = max (t - 53) (-1074) := rfl

theorem isFinite_unpack_iff (b : BitVec 64) :
    (UnpackedFloat.unpack Format.binary64 b).isFinite = true ↔
      @unpackExponent Format.binary64 b ≠ -1#11 := by
  unfold UnpackedFloat.unpack
  dsimp only
  split_ifs with h1 h2 h3 h4 <;> simp_all [UnpackedFloat.isFinite]

theorem unpack_pack_infinity (s : Sign) :
    (Float.Model.pack (.infinity s)).unpack = .infinity s := by
  cases s <;> rfl

theorem unpack_pack_zero (s : Sign) : (Float.Model.pack (.zero s)).unpack = .zero s := by
  cases s <;> rfl

/-- An exponent above that of the largest double is packed as infinity. -/
theorem unpack_pack_of_lt {s : Sign} {m : ℕ} {e : ℤ} {hm : 0 < m} (he : 971 < e) :
    (Float.Model.pack (.finite s m e hm)).unpack = .infinity s := by
  rw [← unpack_pack_infinity s]
  have hbiased : 2 ^ 11 ≤ (e + 1023 + 52).toNat + 1 := by omega
  have hpack : UnpackedFloat.pack Format.binary64 (.finite s m e hm) =
      UnpackedFloat.pack Format.binary64 (.infinity s) := if_pos hbiased
  simp only [Float.Model.pack, hpack]

theorem isFinite_pack_of_le {s : Sign} {m : ℕ} {e : ℤ} {hm : 0 < m} (he : e ≤ 971) :
    (Float.Model.pack (.finite s m e hm)).unpack.isFinite = true := by
  change (UnpackedFloat.unpack Format.binary64
    (UnpackedFloat.pack Format.binary64 (.finite s m e hm))).isFinite = true
  have hbiased : ¬2 ^ 11 ≤ (e + 1023 + 52).toNat + 1 := by omega
  rw [isFinite_unpack_iff]
  change unpackExponent (if 2 ^ 11 ≤ (e + 1023 + 52).toNat + 1 then _ else
    if m.log2 + 1 = 53 then _ else _) ≠ _
  rw [if_neg hbiased]
  split_ifs
  · rw [unpackExponent_packComponents, Ne, ← BitVec.toNat_inj]
    change (e + 1023 + 52).toNat % 2 ^ 11 ≠ 2 ^ 11 - 1
    omega
  · rw [unpackExponent_packComponents]
    decide

theorem mantissa_shiftRight (em : ExtendedMantissa) (k : ℕ) :
    (em >>> k).mantissa = em.mantissa / 2 ^ k := by
  induction k with
  | zero => exact (Nat.div_one _).symm
  | succ k ih =>
    change (em >>> k).mantissa / 2 = _
    rw [ih, Nat.div_div_eq_div_mul, pow_succ]

theorem roundedMantissa_le (em : ExtendedMantissa) : em.roundedMantissa ≤ em.mantissa + 1 := by
  rcases em with ⟨m, round, sticky⟩
  cases round <;> cases sticky
  · exact Nat.le_succ m
  · exact Nat.le_succ m
  · exact Nat.add_le_add_left (Nat.le_of_lt_succ (Nat.mod_lt m (by norm_num))) m
  · exact le_rfl

theorem shiftToTargetExponent_snd (m : ℕ) (e : ℤ) (acc : Accuracy) :
    (shiftToTargetExponent Format.binary64 m e acc).2 =
      max e (Format.binary64.targetExponent (totalExponent m e)) := by
  change e + ((Format.binary64.targetExponent (totalExponent m e) - e).toNat : ℤ) = _
  omega

/-- The digits that a number is rounded to. Rounding up may carry, which asks for a second shift. -/
def roundedDigits (m : ℕ) (e : ℤ) (acc : Accuracy) : ℕ :=
  let first := shiftToTargetExponent Format.binary64 m e acc
  (shiftToTargetExponent Format.binary64 first.1.roundedMantissa first.2 .exact).1.mantissa

def roundedExponent (m : ℕ) (e : ℤ) (acc : Accuracy) : ℤ :=
  let first := shiftToTargetExponent Format.binary64 m e acc
  max first.2 (Format.binary64.targetExponent (totalExponent first.1.roundedMantissa first.2))

/-- What is rounded keeps its sign. -/
theorem roundWithAccuracy_cases (s : Sign) (m : ℕ) (e : ℤ) (acc : Accuracy) :
    (roundedDigits m e acc = 0 ∧ roundWithAccuracy Format.binary64 s m e acc = .zero s) ∨
      ∃ hm, roundWithAccuracy Format.binary64 s m e acc =
        .finite s (roundedDigits m e acc) (roundedExponent m e acc) hm := by
  unfold roundWithAccuracy roundedDigits roundedExponent
  dsimp only
  rw [← shiftToTargetExponent_snd _ _ .exact]
  split_ifs with h
  · exact .inl ⟨h, rfl⟩
  · exact .inr ⟨Nat.pos_of_ne_zero h, rfl⟩

/-- A rounded number is finite or the infinity of its sign. -/
theorem rounded_cases (s : Sign) (m : ℕ) (e : ℤ) (acc : Accuracy) :
    let x := (Float.Model.pack (roundWithAccuracy Format.binary64 s m e acc)).unpack
    x.isFinite = true ∨ x = .infinity s := by
  intro x
  rcases roundWithAccuracy_cases s m e acc with ⟨-, h⟩ | ⟨hm, h⟩
  · left
    simp only [x, h, unpack_pack_zero]
    rfl
  · rcases le_or_gt (roundedExponent m e acc) 971 with he | he
    · left
      simp only [x, h, isFinite_pack_of_le he]
    · right
      simp only [x, h, unpack_pack_of_lt he]

theorem isFinite_rounded_of_le (s : Sign) {m : ℕ} {e : ℤ} {acc : Accuracy}
    (h : roundedExponent m e acc ≤ 971) :
    (Float.Model.pack (roundWithAccuracy Format.binary64 s m e acc)).unpack.isFinite = true := by
  rcases roundWithAccuracy_cases s m e acc with ⟨-, hr⟩ | ⟨hm, hr⟩
  · rw [hr, unpack_pack_zero]
    rfl
  · rw [hr]
    exact isFinite_pack_of_le h

theorem not_isFinite_rounded_of_lt (s : Sign) {m : ℕ} {e : ℤ} {acc : Accuracy}
    (hdigits : roundedDigits m e acc ≠ 0) (h : 971 < roundedExponent m e acc) :
    (Float.Model.pack (roundWithAccuracy Format.binary64 s m e acc)).unpack.isFinite = false := by
  rcases roundWithAccuracy_cases s m e acc with ⟨h0, -⟩ | ⟨hm, hr⟩
  · exact absurd h0 hdigits
  · rw [hr, unpack_pack_of_lt h]
    rfl

theorem log2_mono {m n : ℕ} (h : m ≤ n) : m.log2 ≤ n.log2 := by
  rcases Nat.eq_zero_or_pos m with rfl | hm
  · exact Nat.zero_le _
  · rw [Nat.le_log2 (by omega)]
    exact (Nat.log2_self_le hm.ne').trans h

theorem log2_add_one_le (n : ℕ) : (n + 1).log2 ≤ n.log2 + 1 := by
  rw [← Nat.lt_succ_iff, Nat.log2_lt (by omega), pow_succ]
  have := Nat.lt_log2_self (n := n)
  omega

theorem log2_div_two_pow_add_le (m k : ℕ) : (m / 2 ^ k).log2 + k ≤ max m.log2 k := by
  rcases Nat.eq_zero_or_pos (m / 2 ^ k) with h | h
  · rw [h]
    simp
  · have hle : 2 ^ ((m / 2 ^ k).log2 + k) ≤ m := by
      rw [pow_add]
      exact (Nat.mul_le_mul_right _ (Nat.log2_self_le h.ne')).trans (Nat.div_mul_le_self m _)
    have hm : m ≠ 0 := by
      rintro rfl
      simp at h
    exact le_max_of_le_left ((Nat.le_log2 hm).2 hle)

theorem log2_mul_two_pow {m : ℕ} (hm : 0 < m) (k : ℕ) : (m * 2 ^ k).log2 = m.log2 + k := by
  rw [Nat.log2_eq_iff (by positivity), add_right_comm, pow_add, pow_add _ _ k]
  exact ⟨Nat.mul_le_mul_right _ (Nat.log2_self_le hm.ne'),
    Nat.mul_lt_mul_of_pos_right Nat.lt_log2_self (by positivity)⟩

/-- A number with a factor of two to spare below the overflow is rounded to a finite one. -/
theorem isFinite_rounded (s : Sign) {m : ℕ} {e : ℤ} (he : e ≤ 971)
    (ht : totalExponent m e ≤ 1023) (acc : Accuracy) :
    (Float.Model.pack (roundWithAccuracy Format.binary64 s m e acc)).unpack.isFinite = true := by
  apply isFinite_rounded_of_le
  unfold roundedExponent
  dsimp only
  set first := shiftToTargetExponent Format.binary64 m e acc
  set k := (Format.binary64.targetExponent (totalExponent m e) - e).toNat with hk
  have he1 : first.2 = e + k := rfl
  have hm1 : first.1.mantissa = m / 2 ^ k := by
    change (ExtendedMantissa.ofMantissaAndAccuracy m acc >>> k).mantissa = _
    rw [mantissa_shiftRight]
    rcases acc with _ | (_ | _ | _) <;> rfl
  have hrounded : first.1.roundedMantissa.log2 ≤ (m / 2 ^ k).log2 + 1 := by
    have hle := roundedMantissa_le first.1
    rw [hm1] at hle
    exact (log2_mono hle).trans (log2_add_one_le _)
  have hshift := log2_div_two_pow_add_le m k
  rw [targetExponent_eq] at hk
  rw [targetExponent_eq, he1]
  unfold totalExponent at *
  omega

theorem le_roundedMantissa (em : ExtendedMantissa) : em.mantissa ≤ em.roundedMantissa := by
  rcases em with ⟨m, round, sticky⟩
  cases round <;> cases sticky
  · exact le_rfl
  · exact le_rfl
  · exact Nat.le_add_right m _
  · exact Nat.le_succ m

theorem roundedMantissa_of_odd (em : ExtendedMantissa) (h : em.mantissa % 2 = 1) :
    em.roundedMantissa = em.mantissa + em.roundBit.toNat := by
  rcases em with ⟨m, round, sticky⟩
  cases round <;> cases sticky
  · rfl
  · rfl
  · exact congrArg (m + ·) h
  · rfl

theorem roundBit_shiftRight (em : ExtendedMantissa) (k : ℕ) :
    (em >>> (k + 1)).roundBit = (em.mantissa / 2 ^ k % 2 != 0) := by
  change ((em >>> k).mantissa % 2 != 0) = _
  rw [mantissa_shiftRight]

/-- From its half on, the last place that is cut off is carried into the next power of two. -/
theorem roundedMantissa_shiftRight_lt_iff (em : ExtendedMantissa) (k : ℕ)
    (h : em.mantissa / 2 ^ (k + 1) < 2 ^ 53) :
    (em >>> (k + 1)).roundedMantissa < 2 ^ 53 ↔ em.mantissa < (2 ^ 54 - 1) * 2 ^ k := by
  have hmantissa := mantissa_shiftRight em (k + 1)
  have hbit := roundBit_shiftRight em k
  have hle := roundedMantissa_le (em >>> (k + 1))
  rw [← Nat.div_lt_iff_lt_mul (by positivity)]
  have hhalf : em.mantissa / 2 ^ (k + 1) = em.mantissa / 2 ^ k / 2 := by
    rw [Nat.div_div_eq_div_mul, pow_succ]
  rw [hmantissa] at hle
  rw [hhalf] at h hle hmantissa
  rcases lt_or_ge (em.mantissa / 2 ^ k / 2) (2 ^ 53 - 1) with hlt | hge
  · omega
  · -- all digits are ones, so the next one decides
    rw [roundedMantissa_of_odd _ (by omega), hmantissa, hbit]
    rcases Nat.mod_two_eq_zero_or_one (em.mantissa / 2 ^ k) with hmod | hmod <;> simp [hmod] <;>
      omega

/-- Where a number of many digits is cut: behind its first 53. -/
theorem div_two_pow_mem {m k : ℕ} (hm : 0 < m) (hk : m.log2 = 52 + k) :
    2 ^ 52 ≤ m / 2 ^ k ∧ m / 2 ^ k < 2 ^ 53 := by
  rw [Nat.le_div_iff_mul_le (by positivity), Nat.div_lt_iff_lt_mul (by positivity), ← pow_add,
    ← pow_add]
  refine ⟨hk ▸ Nat.log2_self_le hm.ne', ?_⟩
  have hlt := Nat.lt_log2_self (n := m)
  rwa [hk, add_right_comm] at hlt

theorem shiftToTargetExponent_of_target {m : ℕ} {e : ℤ} {k : ℕ}
    (h : Format.binary64.targetExponent (totalExponent m e) = e + k) :
    shiftToTargetExponent Format.binary64 m e .exact =
      (ExtendedMantissa.ofMantissaAndAccuracy m .exact >>> k, e + k) := by
  unfold shiftToTargetExponent shiftToExponent
  dsimp only
  rw [h, add_sub_cancel_left, Int.toNat_natCast]

/-- The first shift cuts the number to the digits kept, the second one takes up a carry. -/
theorem rounded_of_shifts {m r : ℕ} {e : ℤ} {k carry : ℕ}
    (hr : (ExtendedMantissa.ofMantissaAndAccuracy m .exact >>> k).roundedMantissa = r)
    (hfirst : Format.binary64.targetExponent (totalExponent m e) = e + k)
    (hsecond : Format.binary64.targetExponent (totalExponent r (e + k)) = e + k + carry) :
    roundedDigits m e .exact = r / 2 ^ carry ∧ roundedExponent m e .exact = e + k + carry := by
  constructor
  · unfold roundedDigits
    rw [shiftToTargetExponent_of_target hfirst]
    dsimp only
    rw [hr, shiftToTargetExponent_of_target hsecond]
    exact mantissa_shiftRight _ _
  · unfold roundedExponent
    rw [shiftToTargetExponent_of_target hfirst]
    dsimp only
    rw [hr, hsecond]
    omega

/-- Rounding carries to a digit more only if it ends at a power of two. -/
theorem log2_roundedMantissa {em : ExtendedMantissa} (hlo : 2 ^ 52 ≤ em.mantissa)
    (hhi : em.mantissa < 2 ^ 53) :
    em.roundedMantissa.log2 = 52 + if em.roundedMantissa < 2 ^ 53 then 0 else 1 := by
  have hge := hlo.trans (le_roundedMantissa em)
  have hle := roundedMantissa_le em
  split_ifs with hlt
  · exact (Nat.log2_eq_iff (by omega)).2 ⟨hge, hlt⟩
  · exact (Nat.log2_eq_iff (by omega)).2 ⟨not_lt.1 hlt, by omega⟩

/-- A number that is not short of the overflow is rounded to one of 53 digits, carrying at most
once. -/
theorem rounded_of_le {m : ℕ} {e : ℤ} (hm : 0 < m) (he : e ≤ 970)
    (ht : 1024 ≤ totalExponent m e) :
    roundedDigits m e .exact ≠ 0 ∧ totalExponent m e - 53 ≤ roundedExponent m e .exact ∧
      (totalExponent m e = 1024 →
        (roundedExponent m e .exact ≤ 971 ↔ m < (2 ^ 54 - 1) * 2 ^ (970 - e).toNat)) := by
  obtain ⟨k, hk⟩ : ∃ k : ℕ, totalExponent m e - 53 = e + (k + 1 : ℕ) :=
    ⟨(totalExponent m e - 53 - e - 1).toNat, by omega⟩
  have hlog : m.log2 = 52 + (k + 1) := by
    unfold totalExponent at hk
    omega
  obtain ⟨hlo, hhi⟩ := div_two_pow_mem hm hlog
  set em := ExtendedMantissa.ofMantissaAndAccuracy m .exact >>> (k + 1)
  have hmantissa : em.mantissa = m / 2 ^ (k + 1) := mantissa_shiftRight _ _
  have hcarry := log2_roundedMantissa (hmantissa ▸ hlo) (hmantissa ▸ hhi)
  have hpos : 2 ^ 52 ≤ em.roundedMantissa := (hmantissa ▸ hlo).trans (le_roundedMantissa em)
  set carry := if em.roundedMantissa < 2 ^ 53 then 0 else 1 with hcases
  have hfirst : Format.binary64.targetExponent (totalExponent m e) = e + (k + 1 : ℕ) := by
    rw [targetExponent_eq]
    omega
  have hsecond : Format.binary64.targetExponent
      (totalExponent em.roundedMantissa (e + (k + 1 : ℕ))) = e + (k + 1 : ℕ) + carry := by
    rw [targetExponent_eq, totalExponent, hcarry]
    omega
  obtain ⟨hdigits, hexponent⟩ := rounded_of_shifts (r := em.roundedMantissa) rfl hfirst hsecond
  rw [hdigits, hexponent]
  refine ⟨?_, by omega, fun hlimit => ?_⟩
  · split_ifs at hcases <;> rw [hcases] <;> omega
  · have hk' : (970 - e).toNat = k := by omega
    have hcut : em.roundedMantissa < 2 ^ 53 ↔ m < (2 ^ 54 - 1) * 2 ^ k :=
      roundedMantissa_shiftRight_lt_iff (.ofMantissaAndAccuracy m .exact) k hhi
    rw [hk', ← hcut]
    split_ifs at hcases <;> omega

/-- The number halfway from the largest double to the next power of two. -/
def overflow : ℚ := 2 ^ 1024 - 2 ^ 970

theorem overflow_eq : overflow = (2 ^ 54 - 1) * 2 ^ 970 := by
  rw [overflow, sub_one_mul, ← pow_add]

theorem two_pow_lt_overflow {k : ℕ} (hk : k ≤ 1023) : (2 : ℚ) ^ k < overflow :=
  calc (2 : ℚ) ^ k ≤ 2 ^ (53 + 970) := pow_le_pow_right₀ one_le_two hk
    _ = 2 ^ 53 * 2 ^ 970 := pow_add _ _ _
    _ < (2 ^ 54 - 1) * 2 ^ 970 := mul_lt_mul_of_pos_right (by norm_num) (by positivity)
    _ = overflow := overflow_eq.symm

theorem lt_two_pow_totalExponent (m : ℕ) (e : ℤ) : (m * 2 ^ e : ℚ) < 2 ^ totalExponent m e := by
  have hdigits : (m : ℚ) < 2 ^ (m.log2 + 1) := by exact_mod_cast Nat.lt_log2_self
  rw [totalExponent, zpow_add₀ two_ne_zero, ← Nat.cast_succ, zpow_natCast]
  exact mul_lt_mul_of_pos_right hdigits (by positivity)

theorem two_pow_totalExponent_le {m : ℕ} (hm : 0 < m) (e : ℤ) :
    (2 : ℚ) ^ (totalExponent m e - 1) ≤ m * 2 ^ e := by
  have hdigits : (2 : ℚ) ^ m.log2 ≤ m := by exact_mod_cast Nat.log2_self_le hm.ne'
  have htotal : totalExponent m e - 1 = m.log2 + e := by
    unfold totalExponent
    omega
  rw [htotal, zpow_add₀ two_ne_zero, zpow_natCast]
  exact mul_le_mul_of_nonneg_right hdigits (by positivity)

/-- Exactly the numbers below the overflow are rounded to finite ones. -/
theorem isFinite_rounded_iff (s : Sign) {m : ℕ} {e : ℤ} (hm : 0 < m) (he : e ≤ 970) :
    (Float.Model.pack (roundWithAccuracy Format.binary64 s m e .exact)).unpack.isFinite = true ↔
      m * 2 ^ e < overflow := by
  have hpos : (0 : ℚ) < 2 ^ e := by positivity
  rcases lt_trichotomy (totalExponent m e) 1024 with hlt | heq | hgt
  · refine iff_of_true (isFinite_rounded s (by omega) (by omega) _) ?_
    calc (m * 2 ^ e : ℚ) < 2 ^ totalExponent m e := lt_two_pow_totalExponent m e
      _ ≤ 2 ^ ((1023 : ℕ) : ℤ) := zpow_le_zpow_right₀ one_le_two (by omega)
      _ = 2 ^ 1023 := zpow_natCast _ _
      _ < overflow := two_pow_lt_overflow le_rfl
  · obtain ⟨hdigits, -, hcut⟩ := rounded_of_le hm he heq.ge
    have hfinite : (Float.Model.pack
        (roundWithAccuracy Format.binary64 s m e .exact)).unpack.isFinite = true ↔
          roundedExponent m e .exact ≤ 971 := by
      refine ⟨fun h => ?_, isFinite_rounded_of_le s⟩
      by_contra hexp
      rw [not_isFinite_rounded_of_lt s hdigits (not_le.1 hexp)] at h
      exact nomatch h
    have hsplit : (2 : ℚ) ^ 970 = 2 ^ (970 - e).toNat * 2 ^ e := by
      rw [← zpow_natCast, ← zpow_natCast, ← zpow_add₀ two_ne_zero]
      congr 1
      omega
    have hcast : ((2 : ℚ) ^ 54 - 1) * 2 ^ (970 - e).toNat =
        ((2 ^ 54 - 1) * 2 ^ (970 - e).toNat : ℕ) := by
      push_cast
      norm_num
    rw [hfinite, hcut heq, overflow_eq, hsplit, ← mul_assoc, mul_lt_mul_iff_left₀ hpos, hcast,
      Nat.cast_lt]
  · obtain ⟨hdigits, hexp, -⟩ := rounded_of_le hm he hgt.le
    refine iff_of_false ?_ (not_lt.2 ?_)
    · rw [not_isFinite_rounded_of_lt s hdigits (by omega)]
      exact Bool.false_ne_true
    · calc overflow ≤ 2 ^ (1024 : ℤ) := sub_le_self _ (by positivity)
        _ ≤ 2 ^ (totalExponent m e - 1) := zpow_le_zpow_right₀ one_le_two (by omega)
        _ ≤ m * 2 ^ e := two_pow_totalExponent_le hm e

/-- The exponent and the fraction of a double, as its bits hold them. -/
def exponentBits (x : Float) : BitVec 11 :=
  @unpackExponent Format.binary64 x.toBits.toBitVec

def fractionBits (x : Float) : BitVec 52 :=
  @unpackMantissa Format.binary64 x.toBits.toBitVec

theorem toNat_exponentBits (x : Float) :
    (exponentBits x).toNat = x.toBits.toNat / 2 ^ 52 % 2 ^ 11 := by
  rw [exponentBits, unpackExponent_def, BitVec.extractLsb'_toNat, Nat.shiftRight_eq_div_pow]
  rfl

theorem toNat_fractionBits (x : Float) : (fractionBits x).toNat = x.toBits.toNat % 2 ^ 52 := by
  rw [fractionBits, unpackMantissa_def, BitVec.extractLsb'_toNat]
  rfl

theorem parts_mantissa (x : Float) : (Binary.parts x).mantissa =
    if exponentBits x = 0 then (fractionBits x).toNat else 2 ^ 52 + (fractionBits x).toNat := by
  simp only [← BitVec.toNat_inj, toNat_exponentBits, toNat_fractionBits]
  rfl

theorem parts_exponent (x : Float) : (Binary.parts x).exponent =
    if exponentBits x = 0 then -1074 else ((exponentBits x).toNat : ℤ) - 1075 := by
  simp only [← BitVec.toNat_inj, toNat_exponentBits]
  rfl

theorem parts_mantissa_lt (x : Float) : (Binary.parts x).mantissa < 2 ^ 53 := by
  have hfraction := (fractionBits x).isLt
  rw [parts_mantissa]
  split_ifs <;> omega

theorem exponentBits_ne {x : Float} (hx : x.isFinite = true) : exponentBits x ≠ -1#11 :=
  (isFinite_unpack_iff x.toBits.toBitVec).1 hx

theorem parts_exponent_le {x : Float} (hx : x.isFinite = true) :
    (Binary.parts x).exponent ≤ 971 := by
  have hle : (exponentBits x).toNat ≤ 2047 := Nat.le_pred_of_lt (exponentBits x).isLt
  have hne : (exponentBits x).toNat ≠ 2047 := fun h =>
    exponentBits_ne hx (BitVec.toNat_inj.1 h)
  rw [parts_exponent]
  split_ifs <;> omega

/-- A finite double is unpacked as zero or into its parts. -/
theorem unpack_of_isFinite {x : Float} (hx : x.isFinite = true) :
    ((Binary.parts x).mantissa = 0 ∧ ∃ s, x.toModel.unpack = .zero s) ∨
      ∃ s hm, x.toModel.unpack =
        .finite s (Binary.parts x).mantissa (Binary.parts x).exponent hm := by
  have hparts {s : Sign} {m : ℕ} {e : ℤ} {hm : 0 < m} (hmantissa : m = (Binary.parts x).mantissa)
      (hexponent : e = (Binary.parts x).exponent) : ∃ s' hm', UnpackedFloat.finite s m e hm =
        .finite s' (Binary.parts x).mantissa (Binary.parts x).exponent hm' := by
    subst hmantissa hexponent
    exact ⟨s, hm, rfl⟩
  have hunpack : x.toModel.unpack =
      UnpackedFloat.unpack Format.binary64 x.toBits.toBitVec := rfl
  have hnormal : (1#1 ++ fractionBits x).toNat = 2 ^ 52 + (fractionBits x).toNat := by
    rw [BitVec.toNat_append, ← Nat.shiftLeft_add_eq_or_of_lt (BitVec.isLt _)]
    rfl
  have hne : @unpackExponent Format.binary64 x.toBits.toBitVec ≠ -1#11 :=
    exponentBits_ne hx
  rw [hunpack]
  unfold UnpackedFloat.unpack
  dsimp only
  rw [if_neg hne]
  split_ifs with h0 hm
  · exact .inl ⟨(parts_mantissa x).trans ((if_pos h0).trans (congrArg BitVec.toNat hm)), _, rfl⟩
  · refine .inr (hparts ((parts_mantissa x).trans (if_pos h0)).symm ?_)
    rw [(parts_exponent x).trans (if_pos h0), h0]
    rfl
  · exact .inr (hparts (hnormal.trans ((parts_mantissa x).trans (if_neg h0)).symm)
      ((parts_exponent x).trans (if_neg h0)).symm)

/-- The absolute value of a finite double. -/
def size (x : Float) : ℚ := (Binary.parts x).mantissa * 2 ^ (Binary.parts x).exponent

theorem size_lt_overflow {x : Float} (hx : x.isFinite = true) : size x < overflow := by
  have hmantissa : ((Binary.parts x).mantissa : ℚ) ≤ 2 ^ 53 - 1 := by
    have hlt : ((Binary.parts x).mantissa + 1 : ℚ) ≤ 2 ^ 53 := by
      exact_mod_cast parts_mantissa_lt x
    linarith
  have hexponent : (2 : ℚ) ^ (Binary.parts x).exponent ≤ 2 ^ ((971 : ℕ) : ℤ) :=
    zpow_le_zpow_right₀ one_le_two (parts_exponent_le hx)
  rw [zpow_natCast] at hexponent
  calc size x ≤ (2 ^ 53 - 1) * 2 ^ 971 :=
        mul_le_mul hmantissa hexponent (by positivity) (by norm_num)
    _ < (2 ^ 54 - 1) * 2 ^ 970 := by
        rw [pow_succ _ 970, ← mul_assoc, mul_right_comm]
        exact mul_lt_mul_of_pos_right (by norm_num) (by positivity)
    _ = overflow := overflow_eq.symm

theorem unpack_one : (1 : Float).toModel.unpack = .finite .positive (2 ^ 52) (-52) (by decide) := by
  rfl

theorem unpack_thousand :
    (1000 : Float).toModel.unpack = .finite .positive (1000 * 2 ^ 43) (-43) (by decide) := by
  rfl

theorem unpack_mul (x y : Float) :
    (x * y).toModel.unpack =
      (Float.Model.pack (.mul Format.binary64 x.toModel.unpack y.toModel.unpack)).unpack := rfl

theorem unpack_div (x y : Float) :
    (x / y).toModel.unpack =
      (Float.Model.pack (.div Format.binary64 x.toModel.unpack y.toModel.unpack)).unpack := rfl

theorem isFinite_mul_iff {x y : Float} {s t : Sign} {m n : ℕ} {e f : ℤ} {hm : 0 < m} {hn : 0 < n}
    (hx : x.toModel.unpack = .finite s m e hm) (hy : y.toModel.unpack = .finite t n f hn)
    (hef : e + f ≤ 970) :
    (x * y).isFinite = true ↔ (m * 2 ^ e : ℚ) * (n * 2 ^ f) < overflow := by
  have hvalue : (m * 2 ^ e : ℚ) * (n * 2 ^ f) = (m * n : ℕ) * 2 ^ (e + f) := by
    rw [zpow_add₀ two_ne_zero]
    push_cast
    ring
  change (x * y).toModel.unpack.isFinite = true ↔ _
  rw [unpack_mul, hx, hy, hvalue]
  exact isFinite_rounded_iff (s * t) (Nat.mul_pos hm hn) hef

theorem isFinite_mul_of_zero {x y : Float} {s t : Sign} {n : ℕ} {f : ℤ} {hn : 0 < n}
    (hx : x.toModel.unpack = .zero s) (hy : y.toModel.unpack = .finite t n f hn) :
    (x * y).isFinite = true := by
  change (x * y).toModel.unpack.isFinite = true
  rw [unpack_mul, hx, hy]
  exact congrArg UnpackedFloat.isFinite (unpack_pack_zero (s * t))

theorem isFinite_mul_one {x : Float} (hx : x.isFinite = true) : (x * 1).isFinite = true := by
  have he := parts_exponent_le hx
  rcases unpack_of_isFinite hx with ⟨-, s, h⟩ | ⟨s, hm, h⟩
  · exact isFinite_mul_of_zero h unpack_one
  · rw [isFinite_mul_iff h unpack_one (by omega)]
    have hone : ((2 ^ 52 : ℕ) : ℚ) * 2 ^ (-52 : ℤ) = 1 := by norm_num
    rw [hone, mul_one]
    exact size_lt_overflow hx

/-- The thousandfold of a finite double is finite exactly below the overflow. -/
theorem isFinite_mul_thousand_iff {x : Float} (hx : x.isFinite = true) :
    (x * 1000).isFinite = true ↔ 1000 * size x < overflow := by
  have he := parts_exponent_le hx
  rcases unpack_of_isFinite hx with ⟨h0, s, h⟩ | ⟨s, hm, h⟩
  · refine iff_of_true (isFinite_mul_of_zero h unpack_thousand) ?_
    rw [size, h0, Nat.cast_zero, zero_mul, mul_zero]
    exact one_pos.trans (two_pow_lt_overflow (k := 0) (by norm_num))
  · rw [isFinite_mul_iff h unpack_thousand (by omega)]
    have hthousand : ((1000 * 2 ^ 43 : ℕ) : ℚ) * 2 ^ (-43 : ℤ) = 1000 := by norm_num
    rw [hthousand, mul_comm]
    rfl

theorem sign_mul_positive (s : Sign) : s * .positive = s := by cases s <;> rfl

/-- The thousandfold of a finite double is finite or the infinity of its sign. -/
theorem mul_thousand_cases {x : Float} (hx : x.isFinite = true) :
    (x * 1000).isFinite = true ∨ ∃ s m e hm, x.toModel.unpack = .finite s m e hm ∧
      (x * 1000).toModel.unpack = .infinity s := by
  change (x * 1000).toModel.unpack.isFinite = true ∨ _
  rw [unpack_mul, unpack_thousand]
  rcases unpack_of_isFinite hx with ⟨-, s, h⟩ | ⟨s, hm, h⟩
  · left
    cases s <;> rw [h] <;> rfl
  · rw [h]
    rcases rounded_cases (s * .positive) ((Binary.parts x).mantissa * (1000 * 2 ^ 43))
      ((Binary.parts x).exponent + -43) .exact with hr | hr
    · exact .inl hr
    · exact .inr ⟨s, _, _, hm, rfl, hr.trans (congrArg _ (sign_mul_positive s))⟩

theorem isFinite_div_thousand {x : Float} (hx : x.isFinite = true) :
    (x / 1000).isFinite = true := by
  change (x / 1000).toModel.unpack.isFinite = true
  rw [unpack_div, unpack_thousand]
  rcases unpack_of_isFinite hx with ⟨-, s, h⟩ | ⟨s, hm, h⟩
  · cases s <;> rw [h] <;> rfl
  · have he := parts_exponent_le hx
    have hlog : (Binary.parts x).mantissa.log2 ≤ 52 :=
      (log2_mono (Nat.le_pred_of_lt (parts_mantissa_lt x))).trans (by decide)
    rw [h]
    generalize (Binary.parts x).mantissa = m at *
    generalize (Binary.parts x).exponent = e at *
    set target := min (e - -43) (Format.binary64.targetExponent
      (totalExponent m e - totalExponent (1000 * 2 ^ 43) (-43))) with htarget
    set k := (e - -43 - target).toNat
    have hten : totalExponent (1000 * 2 ^ 43) (-43) = 10 := rfl
    rw [hten, targetExponent_eq, totalExponent] at htarget
    have hquotient : (m <<< k / (1000 * 2 ^ 43)).log2 + 52 ≤ max (m.log2 + k) 52 := by
      have hle : m <<< k / (1000 * 2 ^ 43) ≤ m * 2 ^ k / 2 ^ 52 := by
        rw [Nat.shiftLeft_eq]
        exact Nat.div_le_div_left (by norm_num) (by norm_num)
      have hdiv := log2_div_two_pow_add_le (m * 2 ^ k) 52
      rw [log2_mul_two_pow hm] at hdiv
      exact (Nat.add_le_add_right (log2_mono hle) 52).trans hdiv
    refine isFinite_rounded _ (m := m <<< k / (1000 * 2 ^ 43)) (e := target) (by omega) ?_ _
    unfold totalExponent
    omega

theorem unpack_div_thousand_of_infinity {x : Float} {s : Sign}
    (h : x.toModel.unpack = .infinity s) : (x / 1000).toModel.unpack = .infinity s := by
  rw [unpack_div, unpack_thousand, h]
  cases s <;> rfl

theorem mul_two_pow_zpow_neg (n k : ℕ) : ((n * 2 ^ k : ℕ) : ℚ) * 2 ^ (-k : ℤ) = n := by
  rw [Nat.cast_mul, Nat.cast_pow, Nat.cast_ofNat, zpow_neg, zpow_natCast, ← div_eq_mul_inv,
    mul_div_cancel_right₀ _ (by positivity)]

theorem isFinite_toFloat (n : UInt64) : n.toFloat.isFinite = true := by
  change (Float.Model.pack (.normalize Format.binary64 (n.toNat : ℤ) 0 .positive)).unpack.isFinite =
    true
  have hn := n.toNat_lt
  unfold UnpackedFloat.normalize
  split
  · rename_i h
    exact absurd (Int.compare_eq_lt.1 h) (by omega)
  · rfl
  · rename_i h
    have hpos : 0 < n.toNat := by exact_mod_cast Int.compare_eq_gt.1 h
    have hsmall : (n.toNat : ℚ) < 2 ^ 64 := by exact_mod_cast hn
    rw [Int.toNat_natCast]
    set k := (0 - Format.binary64.targetExponent (totalExponent n.toNat 0)).toNat
    refine (isFinite_rounded_iff .positive (m := n.toNat <<< k) (e := 0 - k) ?_ (by omega)).2 ?_
    · rw [Nat.shiftLeft_eq]
      positivity
    · rw [Nat.shiftLeft_eq, zero_sub, mul_two_pow_zpow_neg]
      exact hsmall.trans (two_pow_lt_overflow (by norm_num))

theorem ofNat_of_lt {n : ℕ} (hn : n < 2 ^ 53) : Float.ofNat n = n.toUInt64.toFloat * 1 := by
  have hone : Float.ofBits 0x3FF0000000000000 = 1 := by rfl
  rw [← hone]
  exact dif_pos ⟨hn, by norm_num⟩

theorem unpack_ofNat_of_le {n : ℕ} (hn : 2 ^ 53 ≤ n) :
    (Float.ofNat n).toModel.unpack = (Float.Model.pack
      (roundWithAccuracy Format.binary64 .positive (n * 2 ^ 53) (-53) .exact)).unpack := by
  have hslow : Float.ofNat n = Float.ofModel (Float.Model.ofScientific n 0) :=
    dif_neg fun h => absurd h.1 (by omega)
  have hpos : 0 < n := lt_of_lt_of_le (by norm_num) hn
  have hmodel : UnpackedFloat.ofScientific Format.binary64 n 0 =
      roundWithAccuracy Format.binary64 .positive (n * 2 ^ 53) (-53) .exact := by
    have hsmall : ¬(0 : ℤ) < -((2 ^ 11 : ℤ) + n.log2) := by omega
    unfold UnpackedFloat.ofScientific
    rw [dif_neg hpos.ne', if_neg (by norm_num), if_neg hsmall, if_pos le_rfl]
    unfold UnpackedFloat.mul
    dsimp only
    rw [Int.toNat_zero, pow_zero, mul_one, Nat.shiftLeft_eq]
    rfl
  rw [hslow]
  change (Float.Model.pack (UnpackedFloat.ofScientific Format.binary64 n 0)).unpack = _
  rw [hmodel]

theorem isFinite_ofNat {n : ℕ} (hn : n < overflow) : (Float.ofNat n).isFinite = true := by
  rcases lt_or_ge n (2 ^ 53) with h | h
  · rw [ofNat_of_lt h]
    exact isFinite_mul_one (isFinite_toFloat _)
  · change (Float.ofNat n).toModel.unpack.isFinite = true
    rw [unpack_ofNat_of_le h, isFinite_rounded_iff _ (by omega) (by norm_num)]
    exact (mul_two_pow_zpow_neg n 53).trans_lt hn

theorem isFinite_neg {x : Float} (hx : x.isFinite = true) : x.neg.isFinite = true := by
  change (Float.Model.pack x.toModel.unpack.neg).unpack.isFinite = true
  rcases unpack_of_isFinite hx with ⟨-, s, h⟩ | ⟨s, hm, h⟩
  · cases s <;> rw [h] <;> rfl
  · rw [h]
    exact isFinite_pack_of_le (parts_exponent_le hx)

theorem isFinite_ofInt {n : ℤ} (hn : n.natAbs < overflow) : (Float.ofInt n).isFinite = true := by
  cases n with
  | ofNat n => exact isFinite_ofNat hn
  | negSucc n => exact isFinite_neg (isFinite_ofNat hn)

theorem natAbs_signed (p : Binary.Parts) (n : ℕ) : (p.signed n).natAbs = n := by
  unfold Binary.Parts.signed
  split_ifs
  · rw [Int.natAbs_neg, Int.natAbs_natCast]
  · exact Int.natAbs_natCast n

theorem isFinite_binary_round {x : Float} (hx : x.isFinite = true) :
    (Binary.round x).isFinite = true := by
  have hsize := size_lt_overflow hx
  have hmantissa := parts_mantissa_lt x
  unfold Binary.round
  rw [if_pos hx]
  apply isFinite_ofInt
  rw [natAbs_signed]
  unfold size at hsize
  generalize Binary.parts x = p at *
  unfold Binary.Parts.magnitude
  split_ifs with he
  · -- the number is whole already
    have hwhole : Binary.halfUp (p.mantissa * 1 * Nat.pow 2 p.exponent.toNat) 1 =
        p.mantissa * 2 ^ p.exponent.toNat := by
      rw [Binary.halfUp, mul_one, Nat.pow_eq]
      omega
    rw [hwhole, Nat.cast_mul, Nat.cast_pow, Nat.cast_ofNat, ← zpow_natCast, Int.toNat_of_nonneg he]
    exact hsize
  · have hle : Binary.halfUp (p.mantissa * 1) (Nat.pow 2 (-p.exponent).toNat) ≤ 2 ^ 53 := by
      have hden : 0 < Nat.pow 2 (-p.exponent).toNat := Nat.two_pow_pos _
      have hmul : p.mantissa ≤ Nat.pow 2 (-p.exponent).toNat * p.mantissa :=
        Nat.le_mul_of_pos_left _ hden
      rw [Binary.halfUp, mul_one]
      refine le_trans (b := p.mantissa + 1) (Nat.div_le_of_le_mul ?_) hmantissa
      rw [mul_assoc, mul_add, mul_one]
      omega
    have hsmall : ((Binary.halfUp (p.mantissa * 1) (Nat.pow 2 (-p.exponent).toNat) : ℕ) : ℚ) ≤
        2 ^ 53 := by exact_mod_cast hle
    exact hsmall.trans_lt (two_pow_lt_overflow (by norm_num))

theorem binary_round_of_not_isFinite {x : Float} (hx : x.isFinite = false) :
    Binary.round x = x := by
  unfold Binary.round
  rw [if_neg (by simp [hx])]

end Double

end ShapeOutline
