import Mathlib
import ShapeOutline.Decimal
import ShapeOutline.Numeral

/-! Decimal text read back. The numeral of `n / 10 ^ p` is a sign, digits and
perhaps a point with digits behind it, the last of them not zero, and denotes just
that number. -/

namespace ShapeOutline

theorem isDigit_of_mem_fixedDigits {p r : ℕ} (h : r < 10 ^ p) {c : Char}
    (hc : c ∈ fixedDigits p r) : c.isDigit = true := by
  induction p generalizing r with
  | zero => exact nomatch hc
  | succ p ih =>
    rcases List.mem_cons.1 hc with rfl | hc
    · rw [Nat.isDigit_digitChar, decide_eq_true_eq]
      exact Nat.div_lt_of_lt_mul (by rwa [pow_succ] at h)
    · exact ih (Nat.mod_lt _ (by positivity)) hc

theorem length_fixedDigits (p r : ℕ) : (fixedDigits p r).length = p := by
  induction p generalizing r with
  | zero => rfl
  | succ p ih => exact congrArg (· + 1) (ih (r % 10 ^ p))

/-- The digits behind the point continue those before it. -/
theorem ofDigitChars_fixedDigits {p r : ℕ} (h : r < 10 ^ p) (whole : ℕ) :
    Nat.ofDigitChars 10 (fixedDigits p r) whole = whole * 10 ^ p + r := by
  induction p generalizing r whole with
  | zero =>
    obtain rfl : r = 0 := by simpa using h
    simp [fixedDigits]
  | succ p ih =>
    have hdigit : r / 10 ^ p < 10 := Nat.div_lt_of_lt_mul (by rwa [pow_succ] at h)
    have hrest := ih (Nat.mod_lt r (by positivity : 0 < 10 ^ p)) (10 * whole + r / 10 ^ p)
    change Nat.ofDigitChars 10 (Nat.digitChar (r / 10 ^ p) :: fixedDigits p (r % 10 ^ p)) whole = _
    rw [Nat.ofDigitChars_cons_digitChar_of_lt_ten hdigit, hrest, pow_succ]
    have := Nat.div_add_mod r (10 ^ p)
    linarith

/-- The digits behind the point, down to the last one that is not zero. -/
def fractionDigits (p r : ℕ) : List Char := (fixedDigits p r).rdropWhile (· == '0')

theorem isDigit_of_mem_fractionDigits {p r : ℕ} (h : r < 10 ^ p) {c : Char}
    (hc : c ∈ fractionDigits p r) : c.isDigit = true :=
  isDigit_of_mem_fixedDigits h ((List.rdropWhile_prefix _ _).subset hc)

theorem fractionDigits_length_le (p r : ℕ) : (fractionDigits p r).length ≤ p :=
  (List.rdropWhile_prefix _ _).length_le.trans_eq (length_fixedDigits p r)

/-- Nothing but zeros is cut. -/
theorem fractionDigits_append_zeros (p r : ℕ) :
    fractionDigits p r ++ List.replicate (p - (fractionDigits p r).length) '0' =
      fixedDigits p r := by
  have hsplit : fractionDigits p r ++ (fixedDigits p r).rtakeWhile (· == '0') = fixedDigits p r :=
    List.rdropWhile_append_rtakeWhile
  have hlen := congrArg List.length hsplit
  rw [List.length_append, length_fixedDigits] at hlen
  have hzeros : (fixedDigits p r).rtakeWhile (· == '0') =
      List.replicate (p - (fractionDigits p r).length) '0' := by
    refine List.eq_replicate_iff.2 ⟨by omega, fun c hc => ?_⟩
    exact eq_of_beq (List.mem_rtakeWhile_imp (p := (· == '0')) hc)
  rw [← hzeros, hsplit]

theorem ofDigitChars_fractionDigits {p r : ℕ} (h : r < 10 ^ p) (whole : ℕ) :
    Nat.ofDigitChars 10 (fractionDigits p r) whole * 10 ^ (p - (fractionDigits p r).length) =
      whole * 10 ^ p + r := by
  rw [← ofDigitChars_fixedDigits h, ← fractionDigits_append_zeros p r, Nat.ofDigitChars_append,
    Nat.ofDigitChars_replicate_zero, mul_comm]

theorem fractionDigits_eq_nil {p r : ℕ} (h : r < 10 ^ p) (hr : fractionDigits p r = []) :
    r = 0 := by
  have hvalue := ofDigitChars_fractionDigits h 0
  rw [hr] at hvalue
  simpa using hvalue.symm

theorem fractionDigits_getLast? (p r : ℕ) : (fractionDigits p r).getLast? ≠ some '0' := by
  intro h
  obtain ⟨hne, hlast⟩ := List.mem_getLast?_eq_getLast h
  exact List.rdropWhile_last_not _ _ hne (beq_iff_eq.2 hlast.symm)

theorem fixedDigits_zero (p : ℕ) : fixedDigits p 0 = List.replicate p '0' := by
  induction p with
  | zero => rfl
  | succ p ih =>
    change Nat.digitChar (0 / 10 ^ p) :: fixedDigits p (0 % 10 ^ p) = _
    rw [Nat.zero_div, Nat.zero_mod, ih]
    rfl

theorem fractionDigits_zero (p : ℕ) : fractionDigits p 0 = [] := by
  rw [fractionDigits, fixedDigits_zero]
  exact List.rdropWhile_eq_nil_iff.2 fun c hc => beq_iff_eq.2 (List.eq_of_mem_replicate hc)

/-- A point and digits, or nothing. -/
def pointed : List Char → List Char
  | [] => []
  | ds => '.' :: ds

def minus : Bool → List Char
  | true => ['-']
  | false => []

theorem fixedDecimal_toList (p : ℕ) (n : ℤ) :
    (fixedDecimal p n).toList = minus (decide (n < 0)) ++ Nat.toDigits 10 (n.natAbs / 10 ^ p) ++
      '.' :: fixedDigits p (n.natAbs % 10 ^ p) := by
  unfold fixedDecimal
  split_ifs with h <;> simp [minus, h]

theorem trimEnd_toList (c : Char) (s : String) :
    (trimEnd c s).toList = s.toList.rdropWhile (· == c) :=
  String.toList_ofList

/-- What ends in a digit does not end in a point. -/
theorem rdropWhile_point {cs : List Char} (h : ∀ c, cs.getLast? = some c → c.isDigit = true) :
    cs.rdropWhile (· == '.') = cs := by
  refine List.rdropWhile_eq_self_iff.2 fun hne hpoint => ?_
  have hdigit := h _ (List.getLast?_eq_getLast_of_ne_nil hne)
  rw [eq_of_beq hpoint] at hdigit
  exact nomatch hdigit

theorem rdropWhile_append_cons {α : Type} (p : α → Bool) {c : α} (hc : ¬p c = true)
    (cs ds : List α) : (cs ++ c :: ds).rdropWhile p = cs ++ c :: ds.rdropWhile p := by
  induction ds using List.reverseRecOn with
  | nil => exact List.rdropWhile_concat_neg p cs c hc
  | append_singleton ds d ih =>
    rw [← List.cons_append, ← List.append_assoc]
    by_cases hd : p d
    · rw [List.rdropWhile_concat_pos _ _ _ hd, List.rdropWhile_concat_pos _ _ _ hd, ih]
    · rw [List.rdropWhile_concat_neg _ _ _ hd, List.rdropWhile_concat_neg _ _ _ hd,
        List.append_assoc, List.cons_append]

/-- The two trims leave the point only with digits behind it. -/
theorem decimal_toList (p : ℕ) (n : ℤ) :
    (decimal p n).toList = minus (decide (n < 0)) ++
      (Nat.toDigits 10 (n.natAbs / 10 ^ p) ++ pointed (fractionDigits p (n.natAbs % 10 ^ p))) := by
  have hmod : n.natAbs % 10 ^ p < 10 ^ p := Nat.mod_lt _ (by positivity)
  rw [decimal, trimEnd_toList, trimEnd_toList, fixedDecimal_toList,
    rdropWhile_append_cons _ (by decide), ← fractionDigits, ← List.append_assoc]
  set cs := minus (decide (n < 0)) ++ Nat.toDigits 10 (n.natAbs / 10 ^ p) with hcs
  cases hds : fractionDigits p (n.natAbs % 10 ^ p) with
  | nil =>
    rw [List.rdropWhile_concat_pos _ _ _ (by decide), pointed, List.append_nil]
    refine rdropWhile_point fun c hc => ?_
    rw [hcs, List.getLast?_append_of_ne_nil _ Nat.toDigits_ne_nil] at hc
    exact Nat.isDigit_of_mem_toDigits (by norm_num) le_rfl (List.mem_of_getLast? hc)
  | cons d ds =>
    refine rdropWhile_point fun c hc => isDigit_of_mem_fractionDigits hmod ?_
    rw [List.getLast?_append_of_ne_nil _ (List.cons_ne_nil _ _), List.getLast?_cons_cons,
      ← hds] at hc
    exact List.mem_of_getLast? hc

/-- A numeral is made of digits, a sign and a point. -/
theorem mem_decimal {p : ℕ} {n : ℤ} {c : Char} (hc : c ∈ (decimal p n).toList) :
    c.isDigit = true ∨ c = '-' ∨ c = '.' := by
  rw [decimal_toList, List.mem_append, List.mem_append] at hc
  rcases hc with hc | hc | hc
  · cases hn : decide (n < 0) with
    | true => exact .inr (.inl (List.mem_singleton.1 (by rwa [hn] at hc)))
    | false => exact nomatch (by rwa [hn] at hc : c ∈ minus false)
  · exact .inl (Nat.isDigit_of_mem_toDigits (by norm_num) le_rfl hc)
  · cases hds : fractionDigits p (n.natAbs % 10 ^ p) with
    | nil => exact nomatch (by rwa [hds] at hc : c ∈ pointed [])
    | cons d ds =>
      rw [hds] at hc
      rcases List.mem_cons.1 hc with rfl | hc
      · exact .inr (.inr rfl)
      · rw [← hds] at hc
        exact .inl (isDigit_of_mem_fractionDigits (Nat.mod_lt _ (by positivity)) hc)

namespace Numeral

variable {whole ds : List Char}

theorem digits_pointed (hw : ∀ c ∈ whole, c.isDigit = true) :
    digits (whole ++ pointed ds) = (whole, pointed ds) := by
  have hpoint : (pointed ds).takeWhile Char.isDigit = [] ∧
      (pointed ds).dropWhile Char.isDigit = pointed ds := by
    cases ds with
    | nil => exact ⟨rfl, rfl⟩
    | cons d ds => exact ⟨rfl, rfl⟩
  rw [digits, List.takeWhile_append_of_pos hw, List.dropWhile_append_of_pos hw, hpoint.1, hpoint.2,
    List.append_nil]

theorem fraction_pointed (hd : ∀ c ∈ ds, c.isDigit = true) : fraction (pointed ds) = (ds, []) := by
  cases ds with
  | nil => rfl
  | cons d ds =>
    change digits (d :: ds) = (d :: ds, [])
    rw [digits, List.takeWhile_eq_self_iff.2 hd, List.dropWhile_eq_nil_iff.2 hd]

theorem sign_of_isDigit {c : Char} (h : c.isDigit = true) (cs : List Char) :
    sign (c :: cs) = (false, c :: cs) := by
  have hminus : c ≠ '-' := by rintro rfl; exact nomatch h
  have hplus : c ≠ '+' := by rintro rfl; exact nomatch h
  unfold sign
  split
  · exact absurd (List.cons.inj ‹_›).1 hminus
  · exact absurd (List.cons.inj ‹_›).1 hplus
  · rfl

theorem parts?_of_sign {cs : List Char} {negative : Bool}
    (hs : sign cs = (negative, whole ++ pointed ds)) (h0 : whole ≠ [])
    (hw : ∀ c ∈ whole, c.isDigit = true) (hd : ∀ c ∈ ds, c.isDigit = true) :
    parts? cs = some ⟨negative, digitsValue (digitsValue 0 whole) ds, 0 - ds.length⟩ := by
  have hwhole : whole.isEmpty = false := by rwa [List.isEmpty_eq_false_iff]
  simp only [parts?, hs, digits_pointed hw, fraction_pointed hd, hwhole, Bool.false_and,
    Bool.false_eq_true, if_false, exponent, Option.map_some]

/-- The exact value of a numeral. -/
def Parts.exact (p : Parts) : ℚ :=
  (if p.negative then -(p.digits : ℚ) else p.digits) * 10 ^ p.exponent

def rational? (cs : List Char) : Option ℚ := (parts? cs).map Parts.exact

/-- The text of a decimal is read as the number it is the text of. -/
theorem rational?_decimal (p : ℕ) (n : ℤ) :
    rational? (decimal p n).toList = some ((n : ℚ) / 10 ^ p) := by
  set whole := Nat.toDigits 10 (n.natAbs / 10 ^ p)
  set ds := fractionDigits p (n.natAbs % 10 ^ p)
  have hmod : n.natAbs % 10 ^ p < 10 ^ p := Nat.mod_lt _ (by positivity)
  have hdigit : ∀ c ∈ whole, c.isDigit = true :=
    fun c hc => Nat.isDigit_of_mem_toDigits (by norm_num) le_rfl hc
  have hsign : sign (decimal p n).toList = (decide (n < 0), whole ++ pointed ds) := by
    rw [decimal_toList]
    cases decide (n < 0) with
    | true => rfl
    | false =>
      change sign (whole ++ pointed ds) = (false, whole ++ pointed ds)
      cases hcs : whole with
      | nil => exact absurd hcs Nat.toDigits_ne_nil
      | cons c cs => exact sign_of_isDigit (hdigit c (hcs ▸ List.mem_cons_self)) _
  have hvalue : digitsValue (digitsValue 0 whole) ds * 10 ^ (p - ds.length) = n.natAbs := by
    have hcut := ofDigitChars_fractionDigits hmod (n.natAbs / 10 ^ p)
    rw [Nat.div_add_mod'] at hcut
    change Nat.ofDigitChars 10 ds (Nat.ofDigitChars 10 whole 0) * _ = _
    rw [Nat.ofDigitChars_ten_toDigits]
    exact hcut
  have hlen : ds.length ≤ p := fractionDigits_length_le p _
  have habs : (digitsValue (digitsValue 0 whole) ds : ℚ) * 10 ^ (0 - ds.length : ℤ) =
      n.natAbs / 10 ^ p := by
    rw [eq_div_iff (by positivity), mul_assoc, ← zpow_natCast, ← zpow_add₀ (by norm_num)]
    have hexp : (0 - ds.length : ℤ) + p = (p - ds.length : ℕ) := by omega
    rw [hexp, zpow_natCast, ← hvalue]
    push_cast
    rfl
  rw [rational?, parts?_of_sign hsign Nat.toDigits_ne_nil hdigit
    (fun c hc => isDigit_of_mem_fractionDigits hmod hc), Option.map_some, Parts.exact,
    Option.some_inj]
  dsimp only
  by_cases hn : n < 0
  · have hneg : (n.natAbs : ℚ) = -n := by
      rw [Nat.cast_natAbs, abs_of_neg hn, Int.cast_neg]
    rw [decide_eq_true hn, if_pos rfl, neg_mul, habs, hneg]
    ring
  · have hpos : (n.natAbs : ℚ) = n := by
      rw [Nat.cast_natAbs, abs_of_nonneg (not_lt.1 hn)]
    rw [decide_eq_false hn, if_neg Bool.false_ne_true, habs, hpos]

end Numeral

end ShapeOutline
