import Mathlib
import ShapeOutline.Proofs.DoubleRange
import ShapeOutline.Proofs.ExtendedReal

/-! How the finite ones among some numbers compare, whatever the others do. Real numbers
compare so, with an undefined value or without, and so do machine numbers: the finite doubles
are in order by sign, exponent and digits, where only the zeros share a place. -/

namespace ShapeOutline

open Scalar

/-- Finite numbers compare as they should. Two numbers neither of which is the smaller one are the
same if they are positive; zero may come with two signs. -/
class FiniteOrder (α : Type) [Scalar α] : Prop where
  isFinite_zero : isFinite (0 : α) = true
  isNaN_eq_false {a : α} : isFinite a = true → isNaN a = false
  asymm {a b : α} : isFinite a = true → isFinite b = true → a < b → ¬ b < a
  lt_or_lt {a b c : α} : isFinite a = true → isFinite b = true → isFinite c = true → a < c →
    a < b ∨ b < c
  eq_of_pos {a b : α} : isFinite a = true → isFinite b = true → 0 < a → 0 < b → ¬ a < b →
    ¬ b < a → a = b

noncomputable section

instance : FiniteOrder ℝ where
  isFinite_zero := rfl
  isNaN_eq_false _ := isNaN_real _
  asymm _ _ h := lt_asymm h
  lt_or_lt {a b _} _ _ _ h := (lt_or_ge a b).imp_right fun hle => hle.trans_lt h
  eq_of_pos _ _ _ _ h h' := le_antisymm (not_lt.1 h') (not_lt.1 h)

theorem Extended.eq_real_of_isFinite {a : Extended} (h : isFinite a = true) :
    ∃ x, a = real x := by
  cases a with
  | real x => exact ⟨x, rfl⟩
  | undefined => exact nomatch h

/-- The undefined value is not finite, so it takes no part. -/
instance : FiniteOrder Extended where
  isFinite_zero := rfl
  isNaN_eq_false h := by
    obtain ⟨x, rfl⟩ := Extended.eq_real_of_isFinite h
    exact isNaN_real x
  asymm ha hb h := by
    obtain ⟨x, rfl⟩ := Extended.eq_real_of_isFinite ha
    obtain ⟨y, rfl⟩ := Extended.eq_real_of_isFinite hb
    exact lt_asymm (α := ℝ) h
  lt_or_lt ha hb hc h := by
    obtain ⟨x, rfl⟩ := Extended.eq_real_of_isFinite ha
    obtain ⟨y, rfl⟩ := Extended.eq_real_of_isFinite hb
    obtain ⟨z, rfl⟩ := Extended.eq_real_of_isFinite hc
    exact FiniteOrder.lt_or_lt (α := ℝ) (b := y) rfl rfl rfl h
  eq_of_pos ha hb hapos hbpos h h' := by
    obtain ⟨x, rfl⟩ := Extended.eq_real_of_isFinite ha
    obtain ⟨y, rfl⟩ := Extended.eq_real_of_isFinite hb
    exact congrArg Extended.real (FiniteOrder.eq_of_pos (α := ℝ) rfl rfl hapos hbpos h h')

end

namespace Double

open Float.Model Float.Model.UnpackedFloat

/-- The place of a finite number: by its sign, and among numbers of one sign by the exponent and
then by the digits. -/
def place : UnpackedFloat → ℤ ×ₗ ℤ ×ₗ ℤ
  | .finite .positive m e _ => toLex (1, toLex (e, m))
  | .finite .negative m e _ => toLex (-1, toLex (-e, -m))
  | _ => toLex (0, toLex (0, 0))

theorem compare_then_eq_lt (e k : ℤ) (m n : ℕ) :
    (compare e k).then (compare m n) = .lt ↔ e < k ∨ e = k ∧ m < n := by
  simp only [Ordering.then_eq_lt, compare_lt_iff_lt, compare_eq_iff_eq]

theorem compare_eq_lt_iff {a b : UnpackedFloat} (ha : a.isFinite = true) (hb : b.isFinite = true) :
    a.compare b = some .lt ↔ place a < place b := by
  rcases a with s | _ | s | ⟨_ | _, m, e, hm⟩ <;> rcases b with t | _ | t | ⟨_ | _, n, k, hn⟩ <;>
    simp_all [UnpackedFloat.compare, UnpackedFloat.isFinite, place, Prod.Lex.toLex_lt_toLex,
      Ordering.then_eq_gt, compare_then_eq_lt, compare_gt_iff_gt]

theorem compare_self {a : UnpackedFloat} (ha : a.isFinite = true) : a.compare a = some .eq := by
  rcases a with s | _ | s | ⟨_ | _, m, e, hm⟩ <;>
    simp_all [UnpackedFloat.compare, UnpackedFloat.isFinite]

theorem lt_iff {x y : Float} (hx : x.isFinite = true) (hy : y.isFinite = true) :
    x < y ↔ place x.toModel.unpack < place y.toModel.unpack := by
  have h : x < y ↔ x.toModel.unpack.lt y.toModel.unpack = true := decide_eq_true_iff
  rw [h, ← compare_eq_lt_iff hx hy]
  exact beq_iff_eq

/-- A positive number is unpacked with the place of its parts. -/
theorem unpack_of_pos {x : Float} (hx : x.isFinite = true) (hpos : 0 < x) :
    ∃ hm, x.toModel.unpack =
      .finite .positive (Binary.parts x).mantissa (Binary.parts x).exponent hm := by
  have hzero : place (0 : Float).toModel.unpack = toLex (0, toLex (0, 0)) := by rfl
  rw [lt_iff (by rfl) hx, hzero] at hpos
  rcases unpack_of_isFinite hx with ⟨-, s, h⟩ | ⟨s, hm, h⟩
  · rw [h] at hpos
    exact absurd hpos (lt_irrefl _)
  · cases s with
    | positive => exact ⟨hm, h⟩
    | negative =>
      rw [h, place, Prod.Lex.toLex_lt_toLex] at hpos
      norm_num at hpos

def signBit (x : Float) : BitVec 1 := @unpackSign Format.binary64 x.toBits.toBitVec

theorem toNat_signBit (x : Float) : (signBit x).toNat = x.toBits.toNat / 2 ^ 63 := by
  have hlt := x.toBits.toBitVec.isLt
  change (BitVec.extractLsb 63 63 x.toBits.toBitVec).toNat = _
  rw [BitVec.extractLsb_toNat, Nat.shiftRight_eq_div_pow]
  exact Nat.mod_eq_of_lt (by omega)

/-- A positive number has no sign bit. -/
theorem toBits_lt_of_positive {x : Float} {m : ℕ} {e : ℤ} {hm : 0 < m}
    (h : x.toModel.unpack = .finite .positive m e hm) : x.toBits.toNat < 2 ^ 63 := by
  have hunpack : x.toModel.unpack =
      UnpackedFloat.unpack Format.binary64 x.toBits.toBitVec := rfl
  rw [hunpack] at h
  unfold UnpackedFloat.unpack at h
  dsimp only at h
  have hsign : Sign.ofBitVec (signBit x) = .positive := by
    split_ifs at h <;> exact (UnpackedFloat.finite.injEq .. ▸ h).1
  have hbit : signBit x = 0#1 := by
    by_contra hne
    rw [Sign.ofBitVec, if_neg hne] at hsign
    cases hsign
  have hzero := toNat_signBit x
  rw [hbit] at hzero
  exact Nat.lt_of_div_eq_zero (by positivity) hzero.symm

theorem eq_of_toBits {x y : Float} (h : x.toBits = y.toBits) : x = y := by
  rcases x with ⟨⟨b, hb⟩⟩
  rcases y with ⟨⟨c, hc⟩⟩
  obtain rfl : b = c := h
  rfl

/-- Without a sign bit the parts of a number are all there is to it. -/
theorem eq_of_parts {x y : Float} (hx : x.toBits.toNat < 2 ^ 63) (hy : y.toBits.toNat < 2 ^ 63)
    (hm : (Binary.parts x).mantissa = (Binary.parts y).mantissa)
    (he : (Binary.parts x).exponent = (Binary.parts y).exponent) : x = y := by
  rw [parts_mantissa, parts_mantissa] at hm
  rw [parts_exponent, parts_exponent] at he
  simp only [← BitVec.toNat_inj, toNat_exponentBits, toNat_fractionBits] at hm he
  refine eq_of_toBits (UInt64.toNat_inj.1 ?_)
  -- a subnormal fraction is below the leading digit of the others
  split_ifs at hm he <;> simp only [BitVec.ofNat_eq_ofNat, BitVec.toNat_zero] at * <;> omega

theorem eq_of_place {x y : Float} (hx : x.isFinite = true) (hy : y.isFinite = true)
    (hxpos : 0 < x) (hypos : 0 < y) (h : place x.toModel.unpack = place y.toModel.unpack) :
    x = y := by
  obtain ⟨hm, hux⟩ := unpack_of_pos hx hxpos
  obtain ⟨hn, huy⟩ := unpack_of_pos hy hypos
  rw [hux, huy] at h
  simp only [place, EmbeddingLike.apply_eq_iff_eq, Prod.mk.injEq, true_and] at h
  obtain ⟨hexponent, hmantissa⟩ := h
  exact eq_of_parts (toBits_lt_of_positive hux) (toBits_lt_of_positive huy)
    (Int.ofNat_inj.1 hmantissa) hexponent

end Double

open Double in
instance : FiniteOrder Float where
  isFinite_zero := by rfl
  isNaN_eq_false {a} ha := by
    have hself : Scalar.beq a a = true :=
      beq_iff_eq.2 (compare_self ha)
    change (!Scalar.beq a a) = false
    rw [hself]
    rfl
  asymm ha hb h h' := lt_asymm ((lt_iff ha hb).1 h) ((lt_iff hb ha).1 h')
  lt_or_lt {a b c} ha hb hc h := by
    rcases lt_or_ge (place a.toModel.unpack) (place b.toModel.unpack) with hab | hba
    · exact .inl ((lt_iff ha hb).2 hab)
    · exact .inr ((lt_iff hb hc).2 (hba.trans_lt ((lt_iff ha hc).1 h)))
  eq_of_pos ha hb hapos hbpos h h' := by
    refine eq_of_place ha hb hapos hbpos (le_antisymm ?_ ?_)
    · exact not_lt.1 fun hlt => h' ((lt_iff hb ha).2 hlt)
    · exact not_lt.1 fun hlt => h ((lt_iff ha hb).2 hlt)

end ShapeOutline
