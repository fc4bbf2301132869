import Mathlib
import ShapeOutline.Proofs.PathText

/-! The numerals of a path. A decimal text that begins with no needless zero, ends in
none behind its point and gives zero no sign is shorter than any other text of its
number. All numerals are of this form, and a real number is written as the nearest
thousandth, a half of one going away from zero. -/

namespace ShapeOutline

namespace Numeral

theorem isDigit_iff {c : Char} : c.isDigit = true ↔ 48 ≤ c.toNat ∧ c.toNat ≤ 57 := by
  simp [Char.isDigit, UInt32.le_iff_toNat_le, ← Char.toNat_val]

theorem digitsValue_eq_add (acc : ℕ) (cs : List Char) :
    digitsValue acc cs = 10 ^ cs.length * acc + digitsValue 0 cs :=
  Nat.ofDigitChars_eq_ofDigitChars_zero

theorem digitsValue_concat (acc : ℕ) (cs : List Char) (c : Char) :
    digitsValue acc (cs ++ [c]) = 10 * digitsValue acc cs + (c.toNat - 48) :=
  List.foldl_append

theorem digitsValue_lt {cs : List Char} (h : ∀ c ∈ cs, c.isDigit = true) :
    digitsValue 0 cs < 10 ^ cs.length := by
  induction cs using List.reverseRecOn with
  | nil => exact Nat.one_pos
  | append_singleton cs c ih =>
    have hc := isDigit_iff.1 (h c (by simp))
    have hcs := ih fun d hd => h d (by simp [hd])
    rw [digitsValue_concat, List.length_append, List.length_singleton, pow_succ]
    omega

/-- Digits of one length are determined by their value. -/
theorem digitsValue_inj {cs ds : List Char} (hlen : cs.length = ds.length)
    (hcs : ∀ c ∈ cs, c.isDigit = true) (hds : ∀ c ∈ ds, c.isDigit = true)
    (h : digitsValue 0 cs = digitsValue 0 ds) : cs = ds := by
  induction cs using List.reverseRecOn generalizing ds with
  | nil => exact (List.length_eq_zero_iff.1 hlen.symm).symm
  | append_singleton cs c ih =>
    cases ds using List.reverseRecOn with
    | nil => simp at hlen
    | append_singleton ds d =>
      have hc := isDigit_iff.1 (hcs c (by simp))
      have hd := isDigit_iff.1 (hds d (by simp))
      rw [digitsValue_concat, digitsValue_concat] at h
      have hlast : c = d := Char.toNat_inj.1 (by omega)
      have hinit : cs = ds := by
        refine ih (by simpa using hlen) (fun e he => hcs e (by simp [he]))
          (fun e he => hds e (by simp [he])) (by omega)
      rw [hinit, hlast]

/-- Digits that do not end in zero have a value that does not. -/
theorem not_ten_dvd_digitsValue {cs : List Char} (h0 : cs ≠ [])
    (h : ∀ c ∈ cs, c.isDigit = true) (hlast : cs.getLast? ≠ some '0') :
    ¬10 ∣ digitsValue 0 cs := by
  cases cs using List.reverseRecOn with
  | nil => exact absurd rfl h0
  | append_singleton cs c =>
    have hc := isDigit_iff.1 (h c (by simp))
    have hne : c.toNat ≠ 48 := by
      intro heq
      rw [List.getLast?_concat] at hlast
      exact hlast (congrArg some (Char.toNat_inj.1 heq))
    rw [digitsValue_concat]
    omega

/-- Digits that begin with no zero are as many as their value asks for. -/
theorem pow_le_digitsValue {cs : List Char} (h0 : cs ≠ [])
    (h : ∀ c ∈ cs, c.isDigit = true) (hhead : cs.head? ≠ some '0') :
    10 ^ (cs.length - 1) ≤ digitsValue 0 cs := by
  cases cs with
  | nil => exact absurd rfl h0
  | cons c cs =>
    have hc := isDigit_iff.1 (h c (by simp))
    have hne : c.toNat ≠ 48 := by
      intro heq
      rw [List.head?_cons] at hhead
      exact hhead (congrArg some (Char.toNat_inj.1 heq))
    change 10 ^ cs.length ≤ digitsValue (10 * 0 + (c.toNat - 48)) cs
    rw [digitsValue_eq_add]
    exact (Nat.le_mul_of_pos_right _ (by omega)).trans (Nat.le_add_right _ _)

/-- Digits after a sign or none, and perhaps a point with digits behind it. -/
@[ext]
structure DecimalText where
  negative : Bool
  whole : List Char
  part : List Char
  whole_ne_nil : whole ≠ []
  isDigit_whole : ∀ c ∈ whole, c.isDigit = true
  isDigit_part : ∀ c ∈ part, c.isDigit = true

namespace DecimalText

def chars (t : DecimalText) : List Char := minus t.negative ++ (t.whole ++ pointed t.part)

/-- All of the digits, as one number. -/
def digits (t : DecimalText) : ℕ := digitsValue (digitsValue 0 t.whole) t.part

/-- The number that a text is read as. -/
def value (t : DecimalText) : ℚ := Parts.exact ⟨t.negative, t.digits, 0 - t.part.length⟩

theorem sign_chars (t : DecimalText) :
    sign t.chars = (t.negative, t.whole ++ pointed t.part) := by
  unfold chars
  cases t.negative with
  | true => rfl
  | false =>
    cases hw : t.whole with
    | nil => exact absurd hw t.whole_ne_nil
    | cons c cs => exact sign_of_isDigit (t.isDigit_whole c (hw ▸ List.mem_cons_self)) _

theorem rational?_chars (t : DecimalText) : rational? t.chars = some t.value := by
  rw [rational?, parts?_of_sign t.sign_chars t.whole_ne_nil t.isDigit_whole t.isDigit_part]
  rfl

theorem value_eq (t : DecimalText) :
    t.value = (if t.negative then -1 else 1) * (t.digits / 10 ^ t.part.length) := by
  unfold value Parts.exact
  dsimp only
  rw [zero_sub, zpow_neg, zpow_natCast]
  split_ifs <;> ring

theorem abs_value (t : DecimalText) : |t.value| = t.digits / 10 ^ t.part.length := by
  have hpos : (0 : ℚ) ≤ t.digits / 10 ^ t.part.length := by positivity
  rw [value_eq, abs_mul, abs_of_nonneg hpos]
  split_ifs <;> simp

theorem digits_eq (t : DecimalText) :
    t.digits = 10 ^ t.part.length * digitsValue 0 t.whole + digitsValue 0 t.part :=
  digitsValue_eq_add _ _

theorem length_pointed (ds : List Char) :
    (pointed ds).length = if ds = [] then 0 else ds.length + 1 := by
  cases ds <;> rfl

theorem length_chars (t : DecimalText) :
    t.chars.length = (minus t.negative).length + (t.whole.length + (pointed t.part).length) := by
  rw [chars, List.length_append, List.length_append]

/-- Texts of one number have the same whole part, and parts behind the point that differ by the
zeros they end in. -/
theorem parts_eq_of_value {t u : DecimalText} (h : t.value = u.value) :
    digitsValue 0 t.whole = digitsValue 0 u.whole ∧
      digitsValue 0 t.part * 10 ^ u.part.length = digitsValue 0 u.part * 10 ^ t.part.length := by
  have hcross : t.digits * 10 ^ u.part.length = u.digits * 10 ^ t.part.length := by
    have habs := congrArg abs h
    rw [abs_value, abs_value, div_eq_div_iff (by positivity) (by positivity)] at habs
    exact_mod_cast habs
  have ht := digitsValue_lt t.isDigit_part
  have hu := digitsValue_lt u.isDigit_part
  set a := digitsValue 0 t.whole
  set b := digitsValue 0 u.whole
  set f := digitsValue 0 t.part
  set g := digitsValue 0 u.part
  set j := t.part.length
  set k := u.part.length
  have hft : f * 10 ^ k < 10 ^ j * 10 ^ k := Nat.mul_lt_mul_of_pos_right ht (by positivity)
  have hfu : g * 10 ^ j < 10 ^ j * 10 ^ k := by
    rw [mul_comm (10 ^ j)]
    exact Nat.mul_lt_mul_of_pos_right hu (by positivity)
  have hsplit : f * 10 ^ k + 10 ^ j * 10 ^ k * a = g * 10 ^ j + 10 ^ j * 10 ^ k * b := by
    rw [digits_eq, digits_eq] at hcross
    linarith
  obtain ⟨hdiv, hmod⟩ := (Nat.div_mod_unique (by positivity)).2 ⟨hsplit, hft⟩
  obtain ⟨hdiv', hmod'⟩ := (Nat.div_mod_unique (by positivity)).2
    ⟨(rfl : g * 10 ^ j + 10 ^ j * 10 ^ k * b = _), hfu⟩
  exact ⟨hdiv.symm.trans hdiv', hmod.symm.trans hmod'⟩

/-- No zero that could be left out, and no sign of zero. -/
structure Canonical (t : DecimalText) : Prop where
  head : t.whole.head? = some '0' → t.whole = ['0']
  last : t.part.getLast? ≠ some '0'
  sign : t.negative = true → ¬(t.whole = ['0'] ∧ t.part = [])

namespace Canonical

variable {t u : DecimalText} (h : t.Canonical)
include h

theorem length_whole_le (hu : t.value = u.value) : t.whole.length ≤ u.whole.length := by
  have hpos : 0 < u.whole.length := List.length_pos_iff.2 u.whole_ne_nil
  by_cases h0 : t.whole.head? = some '0'
  · rw [h.head h0]
    exact hpos
  · have hlo := pow_le_digitsValue t.whole_ne_nil t.isDigit_whole h0
    have hhi := digitsValue_lt u.isDigit_whole
    rw [← (parts_eq_of_value hu).1] at hhi
    have := (Nat.pow_lt_pow_iff_right (by norm_num)).1 (hlo.trans_lt hhi)
    omega

theorem length_part_le (hu : t.value = u.value) : t.part.length ≤ u.part.length := by
  by_contra hlt
  rw [not_le] at hlt
  have hne : t.part ≠ [] := List.length_pos_iff.1 (Nat.zero_lt_of_lt hlt)
  have hcross := (parts_eq_of_value hu).2
  obtain ⟨d, hd⟩ := Nat.exists_eq_add_of_lt hlt
  have hvalue : digitsValue 0 t.part = 10 * (digitsValue 0 u.part * 10 ^ d) := by
    have hpow : (10 : ℕ) ^ t.part.length = 10 ^ u.part.length * (10 ^ d * 10) := by
      rw [hd, add_assoc, pow_add, pow_succ]
    rw [hpow] at hcross
    refine Nat.eq_of_mul_eq_mul_right (by positivity : 0 < 10 ^ u.part.length) ?_
    rw [hcross]
    ring
  exact not_ten_dvd_digitsValue hne t.isDigit_part h.last (hvalue ▸ Nat.dvd_mul_right _ _)

theorem digits_pos (hneg : t.negative = true) : 0 < t.digits := by
  rw [Nat.pos_iff_ne_zero]
  intro h0
  rw [digits_eq, Nat.add_eq_zero_iff] at h0
  refine h.sign hneg ⟨?_, ?_⟩
  · by_contra hw
    have hlo := pow_le_digitsValue t.whole_ne_nil t.isDigit_whole fun h0 => hw (h.head h0)
    have : digitsValue 0 t.whole = 0 := by simpa using h0.1
    have hpow : 0 < 10 ^ (t.whole.length - 1) := by positivity
    omega
  · by_contra hp
    exact not_ten_dvd_digitsValue hp t.isDigit_part h.last (Dvd.intro 0 h0.2.symm)

theorem negative_of_value (hu : t.value = u.value) (hneg : t.negative = true) :
    u.negative = true := by
  have hpos : (0 : ℚ) < t.digits / 10 ^ t.part.length :=
    div_pos (Nat.cast_pos.2 (h.digits_pos hneg)) (by positivity)
  by_contra hu'
  have hnonneg : (0 : ℚ) ≤ u.digits / 10 ^ u.part.length := by positivity
  rw [value_eq, value_eq, if_pos hneg, if_neg hu'] at hu
  linarith

/-- A canonical text is no longer than any other text of its number, and no other is as short. -/
theorem shortest (hu : t.value = u.value) :
    t.chars.length ≤ u.chars.length ∧ (u.chars.length = t.chars.length → u = t) := by
  have hwhole := h.length_whole_le hu
  have hpart := h.length_part_le hu
  have hsign : (minus t.negative).length ≤ (minus u.negative).length := by
    cases ht : t.negative with
    | false => exact Nat.zero_le _
    | true => rw [h.negative_of_value hu ht]
  have hpointed : (pointed t.part).length ≤ (pointed u.part).length := by
    rw [length_pointed, length_pointed]
    split_ifs with ht hu' <;> simp_all
  rw [length_chars, length_chars]
  refine ⟨by omega, fun heq => ?_⟩
  have hparts : t.part.length = u.part.length := by
    have hlen : (pointed t.part).length = (pointed u.part).length := by omega
    rw [length_pointed, length_pointed] at hlen
    split_ifs at hlen with ht hu' <;> simp_all
  obtain ⟨hvalue, hcross⟩ := parts_eq_of_value hu
  refine DecimalText.ext ?_ (digitsValue_inj (by omega) u.isDigit_whole t.isDigit_whole hvalue.symm)
    (digitsValue_inj hparts.symm u.isDigit_part t.isDigit_part ?_)
  · have hlen : (minus u.negative).length = (minus t.negative).length := by omega
    cases hn : u.negative <;> cases hm : t.negative <;> simp_all [minus]
  · rw [hparts] at hcross
    exact (Nat.eq_of_mul_eq_mul_right (by positivity) hcross).symm

end Canonical

/-- The text of `n / 10 ^ p`. -/
def ofDecimal (p : ℕ) (n : ℤ) : DecimalText where
  negative := decide (n < 0)
  whole := Nat.toDigits 10 (n.natAbs / 10 ^ p)
  part := fractionDigits p (n.natAbs % 10 ^ p)
  whole_ne_nil := Nat.toDigits_ne_nil
  isDigit_whole _ hc := Nat.isDigit_of_mem_toDigits (by norm_num) le_rfl hc
  isDigit_part _ hc := isDigit_of_mem_fractionDigits (Nat.mod_lt _ (by positivity)) hc

theorem chars_ofDecimal (p : ℕ) (n : ℤ) : (ofDecimal p n).chars = (decimal p n).toList :=
  (decimal_toList p n).symm

theorem value_ofDecimal (p : ℕ) (n : ℤ) : (ofDecimal p n).value = n / 10 ^ p := by
  have hread := rational?_chars (ofDecimal p n)
  rw [chars_ofDecimal, rational?_decimal] at hread
  exact (Option.some.inj hread).symm

theorem toDigits_head {n : ℕ} (hn : n ≠ 0) : (Nat.toDigits 10 n).head? ≠ some '0' := by
  induction n using Nat.strong_induction_on with
  | _ n ih =>
    rw [Nat.toDigits_eq_if (by norm_num)]
    split_ifs with hlt
    · rw [List.head?_cons, Ne, Option.some_inj]
      interval_cases n <;> simp_all [Nat.digitChar]
    · rw [List.head?_append_of_ne_nil _ Nat.toDigits_ne_nil]
      exact ih (n / 10) (by omega) (by omega)

theorem canonical_ofDecimal (p : ℕ) (n : ℤ) : (ofDecimal p n).Canonical where
  head h := by
    by_cases h0 : n.natAbs / 10 ^ p = 0
    · change Nat.toDigits 10 (n.natAbs / 10 ^ p) = ['0']
      rw [h0, Nat.toDigits_zero]
    · exact absurd h (toDigits_head h0)
  last := fractionDigits_getLast? p _
  sign hneg hzero := by
    have hpart := fractionDigits_eq_nil (Nat.mod_lt _ (by positivity)) hzero.2
    have hwhole : n.natAbs / 10 ^ p = 0 := by
      have hw : Nat.toDigits 10 (n.natAbs / 10 ^ p) = ['0'] := hzero.1
      rw [← Nat.ofDigitChars_ten_toDigits (n := n.natAbs / 10 ^ p), hw]
      rfl
    have hn : n.natAbs = 0 := by
      rw [← Nat.div_add_mod n.natAbs (10 ^ p), hwhole, hpart, mul_zero]
    have hlt : n < 0 := of_decide_eq_true hneg
    omega

end DecimalText

end Numeral

theorem decimal_inj {p : ℕ} {m n : ℤ} (h : decimal p m = decimal p n) : m = n := by
  have hread := congrArg (Numeral.rational? ·.toList) h
  simp only [Numeral.rational?_decimal, Option.some_inj] at hread
  rw [div_left_inj' (by positivity)] at hread
  exact_mod_cast hread

theorem decimal_neg {p : ℕ} {n : ℤ} (hn : 0 < n) : decimal p (-n) = "-" ++ decimal p n := by
  rw [← String.toList_inj, String.toList_append, decimal_toList, decimal_toList, Int.natAbs_neg,
    decide_eq_true (by omega : -n < 0), decide_eq_false (by omega : ¬n < 0)]
  rfl

theorem decimal_zero (p : ℕ) : decimal p 0 = "0" := by
  rw [← String.toList_inj, decimal_toList, Int.natAbs_zero, Nat.zero_mod, Nat.zero_div,
    fractionDigits_zero]
  rfl

noncomputable section

/-- No two whole numbers are both nearest, since of two that are a half away the one is no
further from zero than what is rounded. -/
theorem le_of_nearest {x : ℝ} {m n : ℤ} (hm : |m - x| ≤ 1 / 2)
    (hmaway : |m - x| = 1 / 2 → |x| < |(m : ℝ)|) (hn : |n - x| ≤ 1 / 2)
    (hnaway : |n - x| = 1 / 2 → |x| < |(n : ℝ)|) : n ≤ m := by
  by_contra hlt
  have hstep : (m : ℝ) + 1 ≤ n := by exact_mod_cast not_le.1 hlt
  have hmx := abs_le.1 hm
  have hnx := abs_le.1 hn
  obtain rfl : x = m + 1 / 2 := by linarith
  have hnext : (n : ℝ) = m + 1 := by linarith
  have hm' := hmaway (by rw [abs_eq (by norm_num)]; right; ring)
  have hn' := hnaway (by rw [abs_eq (by norm_num)]; left; rw [hnext]; ring)
  rw [hnext] at hn'
  rcases le_or_gt 0 m with hsign | hsign
  · have hpos : (0 : ℝ) ≤ m := by exact_mod_cast hsign
    rw [abs_of_nonneg (by linarith), abs_of_nonneg hpos] at hm'
    linarith
  · have hneg : (m : ℝ) + 1 ≤ 0 := by exact_mod_cast hsign
    rw [abs_of_nonpos (by linarith), abs_of_nonpos hneg] at hn'
    linarith

/-- The nearest whole number is the only one so near, with a half going away from zero. -/
theorem eq_nearestAway_iff {x : ℝ} {n : ℤ} :
    n = nearestAway x ↔ |n - x| ≤ 1 / 2 ∧ (|n - x| = 1 / 2 → |x| < |(n : ℝ)|) := by
  have hx := abs_nearestAway_sub_le x
  have haway := abs_lt_abs_nearestAway (x := x)
  constructor
  · rintro rfl
    exact ⟨hx, haway⟩
  · rintro ⟨hn, hnaway⟩
    exact le_antisymm (le_of_nearest hx haway hn hnaway) (le_of_nearest hn hnaway hx haway)

theorem nearestAway_neg (x : ℝ) : nearestAway (-x) = -nearestAway x := by
  have hnear : |((-nearestAway x : ℤ) : ℝ) - -x| = |nearestAway x - x| := by
    push_cast
    rw [← abs_neg]
    congr 1
    ring
  refine (eq_nearestAway_iff.2 ⟨?_, ?_⟩).symm
  · rw [hnear]
    exact abs_nearestAway_sub_le x
  · rw [hnear, Int.cast_neg, abs_neg, abs_neg]
    exact abs_lt_abs_nearestAway

theorem nearestAway_intCast (n : ℤ) : nearestAway n = n :=
  (eq_nearestAway_iff.2 ⟨by norm_num, fun h => by norm_num at h⟩).symm

theorem nearestAway_mono {x y : ℝ} (h : x ≤ y) : nearestAway x ≤ nearestAway y := by
  by_contra hlt
  have hstep : (nearestAway y : ℝ) + 1 ≤ nearestAway x := by exact_mod_cast not_le.1 hlt
  have hx := abs_le.1 (abs_nearestAway_sub_le x)
  have hy := abs_le.1 (abs_nearestAway_sub_le y)
  obtain rfl : x = y := by linarith
  exact hlt le_rfl

theorem thousandth_mono {x y : ℝ} (h : x ≤ y) : thousandth x ≤ thousandth y := by
  have hn := nearestAway_mono (mul_le_mul_of_nonneg_left h (by norm_num : (0 : ℝ) ≤ 1000))
  unfold thousandth
  gcongr

theorem numeral_thousandth (x : ℝ) : numeral (thousandth x : ℝ) = numeral x := by
  have hscale : (1000 : ℝ) * (thousandth x : ℝ) = nearestAway (1000 * x) := by
    unfold thousandth
    push_cast
    ring
  rw [numeral_real, numeral_real, hscale, nearestAway_intCast]

theorem numeral_neg_real (x : ℝ) : numeral (-x) = decimal 3 (-nearestAway (1000 * x)) := by
  rw [numeral_real, mul_neg, nearestAway_neg]

open Numeral in
/-- A real number is written as the nearest whole number of thousandths, a half of one going away
from zero, and in the shortest text of it. So numbers are written alike exactly if they round
alike, what is written rounds to itself, in the order of the numbers and no further than half of a
thousandth away, and negation changes the sign of what is not written as zero. -/
theorem numeral_rounds (v : ℝ) :
    (∀ n : ℤ, n = nearestAway (1000 * v) ↔
      |n - 1000 * v| ≤ 1 / 2 ∧ (|n - 1000 * v| = 1 / 2 → |1000 * v| < |(n : ℝ)|)) ∧
    (∃ t : DecimalText, t.chars = (numeral v).toList ∧ t.Canonical) ∧
    rational? (numeral v).toList = some ((nearestAway (1000 * v) : ℚ) / 1000) ∧
    (∀ u : DecimalText, rational? u.chars = some ((nearestAway (1000 * v) : ℚ) / 1000) →
      (numeral v).toList.length ≤ u.chars.length ∧
        (u.chars.length = (numeral v).toList.length → u.chars = (numeral v).toList)) ∧
    (∀ w : ℝ, numeral v = numeral w ↔ nearestAway (1000 * v) = nearestAway (1000 * w)) ∧
    (∀ q : ℚ, rational? (numeral v).toList = some q →
      numeral (q : ℝ) = numeral v ∧ |(q : ℝ) - v| ≤ 1 / 2000 ∧
        ∀ w r, v ≤ w → rational? (numeral w).toList = some r → q ≤ r) ∧
    (nearestAway (1000 * v) = 0 → numeral v = "0" ∧ numeral (-v) = "0") ∧
    (0 < nearestAway (1000 * v) → numeral (-v) = "-" ++ numeral v) ∧
    (nearestAway (1000 * v) < 0 → numeral v = "-" ++ numeral (-v)) := by
  have hread (x : ℝ) : rational? (numeral x).toList = some (thousandth x) :=
    rounds_thousandth.rational?_numeral x
  set n := nearestAway (1000 * v) with hn
  have hchars : (DecimalText.ofDecimal 3 n).chars = (numeral v).toList := by
    rw [DecimalText.chars_ofDecimal, numeral_real]
  have hcanonical := DecimalText.canonical_ofDecimal 3 n
  refine ⟨fun _ => eq_nearestAway_iff, ⟨_, hchars, hcanonical⟩, hread v, fun u hu => ?_,
    fun w => ?_, fun q hq => ?_, fun h0 => ?_, fun hpos => ?_, fun hneg => ?_⟩
  · have hvalue : (DecimalText.ofDecimal 3 n).value = u.value := by
      rw [u.rational?_chars] at hu
      rw [DecimalText.value_ofDecimal, Option.some.inj hu]
      norm_num
    obtain ⟨hle, huniq⟩ := hcanonical.shortest hvalue
    rw [← hchars]
    exact ⟨hle, fun hlen => by rw [huniq hlen]⟩
  · rw [numeral_real, numeral_real]
    exact ⟨decimal_inj, congrArg _⟩
  · rw [hread, Option.some_inj] at hq
    subst hq
    refine ⟨numeral_thousandth v, abs_thousandth_sub_le v, fun w r hvw hr => ?_⟩
    rw [hread, Option.some_inj] at hr
    exact hr ▸ thousandth_mono hvw
  · rw [numeral_real, numeral_neg_real, ← hn, h0]
    exact ⟨decimal_zero 3, decimal_zero 3⟩
  · rw [numeral_neg_real, numeral_real, ← hn, decimal_neg hpos]
  · rw [numeral_neg_real, numeral_real, ← hn, ← decimal_neg (by omega), neg_neg]

end

end ShapeOutline
