import Mathlib

/-! Texts in the order of their bytes. The first byte of a code point tells how many
follow it, more for greater ones, and the bytes that follow hold its bits from the top,
so code points are in order as their bytes are, and so are texts. -/

namespace ShapeOutline
namespace Utf8

/-- The bytes that a text is encoded in. -/
def bytes (s : String) : List UInt8 := s.toByteArray.data.toList

theorem bytes_eq (s : String) : bytes s = s.toList.flatMap String.utf8EncodeChar := by
  rw [bytes, ← String.utf8Encode_toList]
  simp [List.utf8Encode]

/-- The bytes `xs` come before `ys` whatever follows the two. -/
def Ahead (xs ys : List UInt8) : Prop := ∀ us vs, xs ++ us < ys ++ vs

theorem ahead_cons {a b : ℕ} (ha : a < b) (hb : b < 256) (xs ys : List UInt8) :
    Ahead (UInt8.ofNat a :: xs) (UInt8.ofNat b :: ys) := by
  intro us vs
  have hlt : UInt8.ofNat a < UInt8.ofNat b := by
    rw [UInt8.lt_iff_toNat_lt, UInt8.toNat_ofNat', UInt8.toNat_ofNat', Nat.mod_eq_of_lt hb,
      Nat.mod_eq_of_lt (ha.trans hb)]
    exact ha
  exact List.cons_lt_cons_iff.2 (.inl hlt)

theorem Ahead.cons {xs ys : List UInt8} (h : Ahead xs ys) (x : UInt8) :
    Ahead (x :: xs) (x :: ys) :=
  fun us vs => List.cons_lt_cons_iff.2 (.inr ⟨rfl, h us vs⟩)

/-- The last `k` bytes of a code point, six bits in each. -/
def trail : ℕ → ℕ → List UInt8
  | 0, _ => []
  | k + 1, n => UInt8.ofNat (n / 64 ^ k % 64 + 128) :: trail k n

/-- How many bytes follow the first one. -/
def width (n : ℕ) : ℕ := if n ≤ 127 then 0 else if n ≤ 2047 then 1 else if n ≤ 65535 then 2 else 3

/-- The first byte, which tells how many follow. -/
def lead (n : ℕ) : ℕ :=
  if n ≤ 127 then n
  else if n ≤ 2047 then n / 64 + 192
  else if n ≤ 65535 then n / 64 ^ 2 + 224
  else n / 64 ^ 3 + 240

theorem toNat_val_lt (c : Char) : c.val.toNat < 1114112 := by
  rcases c.valid with h | h
  · exact h.trans (by norm_num)
  · exact h.2

theorem utf8EncodeChar_eq (c : Char) :
    String.utf8EncodeChar c =
      UInt8.ofNat (lead c.val.toNat) :: trail (width c.val.toNat) c.val.toNat := by
  have hc := toNat_val_lt c
  unfold String.utf8EncodeChar lead width
  generalize c.val.toNat = n at *
  dsimp only
  split_ifs with h1 h2 h3
  · rfl
  · rw [Nat.mod_eq_of_lt (by omega)]
    simp [trail]
  · rw [Nat.mod_eq_of_lt (by omega)]
    simp [trail]
  · rw [Nat.mod_eq_of_lt (by omega)]
    simp [trail]

/-- Code points that agree in their upper bits are told apart by the bytes of the lower ones. -/
theorem trail_ahead {m n : ℕ} (h : m < n) (k : ℕ) (hk : m / 64 ^ k = n / 64 ^ k) :
    Ahead (trail k m) (trail k n) := by
  induction k with
  | zero => simp only [pow_zero, Nat.div_one] at hk; omega
  | succ k ih =>
    have hle : m / 64 ^ k ≤ n / 64 ^ k := Nat.div_le_div_right h.le
    rw [pow_succ, ← Nat.div_div_eq_div_mul, ← Nat.div_div_eq_div_mul] at hk
    rcases hle.eq_or_lt with heq | hlt
    · rw [trail, trail, heq]
      exact (ih heq).cons _
    · exact ahead_cons (by omega) (by omega) _ _

theorem utf8EncodeChar_ahead {c d : Char} (h : c < d) :
    Ahead (String.utf8EncodeChar c) (String.utf8EncodeChar d) := by
  have hlt : c.val.toNat < d.val.toNat := h
  have hd := toNat_val_lt d
  rw [utf8EncodeChar_eq, utf8EncodeChar_eq]
  generalize c.val.toNat = m at *
  generalize d.val.toNat = n at *
  have hlead : lead n < 256 := by
    unfold lead
    split_ifs <;> omega
  have hcases : lead m < lead n ∨ lead m = lead n ∧ width m = width n ∧
      m / 64 ^ width m = n / 64 ^ width m := by
    unfold lead width
    split_ifs <;> omega
  rcases hcases with hless | ⟨heq, hwidth, htop⟩
  · exact ahead_cons hless hlead _ _
  · rw [heq, ← hwidth]
    exact (trail_ahead hlt _ htop).cons _

/-- Texts in the order of their code points are in the order of their bytes. -/
theorem bytes_lt_bytes {s t : String} (h : s < t) : bytes s < bytes t := by
  rw [String.lt_iff_toList_lt] at h
  rw [bytes_eq, bytes_eq]
  generalize s.toList = cs at *
  generalize t.toList = ds at *
  induction h with
  | @nil d ds =>
    rw [List.flatMap_nil, List.flatMap_cons, utf8EncodeChar_eq]
    exact List.nil_lt_cons _ _
  | @cons c cs ds _ ih => exact List.append_left_lt ih
  | @rel c cs d ds h => exact utf8EncodeChar_ahead h _ _

end Utf8

end ShapeOutline
