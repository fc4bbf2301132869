import Mathlib
import ShapeOutline.Proofs.Concatenation
import ShapeOutline.Proofs.DoubleRange
import ShapeOutline.Proofs.Lookup
import ShapeOutline.Proofs.ShortestDecimal

/-! The numbers in a text, as doubles write them. A double is written as a decimal
numeral unless its thousandfold overflows, and what is not finite as zero. A finite
one that is too large for its thousandths is written as an infinity, and so the text
of a path has nothing but numerals in it exactly if no number of the path is. -/

namespace ShapeOutline

open Numeral

/-- A shortest decimal text with at most three digits behind the point. -/
def IsNumeral (cs : List Char) : Prop :=
  ∃ t : DecimalText, t.chars = cs ∧ t.Canonical ∧ t.part.length ≤ 3

theorem isNumeral_decimal (n : ℤ) : IsNumeral (decimal 3 n).toList :=
  ⟨.ofDecimal 3 n, DecimalText.chars_ofDecimal 3 n, DecimalText.canonical_ofDecimal 3 n,
    fractionDigits_length_le 3 _⟩

theorem isNumeral_zero : IsNumeral "0".toList := decimal_zero 3 ▸ isNumeral_decimal 0

theorem Numeral.DecimalText.mem_chars {t : DecimalText} {c : Char} (hc : c ∈ t.chars) :
    c.isDigit = true ∨ c = '-' ∨ c = '.' := by
  rw [chars, List.mem_append, List.mem_append] at hc
  rcases hc with hc | hc | hc
  · cases hn : t.negative with
    | true =>
      rw [hn] at hc
      exact .inr (.inl (List.mem_singleton.1 hc))
    | false =>
      rw [hn] at hc
      exact absurd hc List.not_mem_nil
  · exact .inl (t.isDigit_whole c hc)
  · cases hp : t.part with
    | nil =>
      rw [hp] at hc
      exact absurd hc List.not_mem_nil
    | cons d ds =>
      rw [hp] at hc
      rcases List.mem_cons.1 hc with rfl | hc
      · exact .inr (.inr rfl)
      · exact .inl (t.isDigit_part c (hp ▸ hc))

theorem Numeral.DecimalText.chars_ne_nil (t : DecimalText) : t.chars ≠ [] :=
  List.append_ne_nil_of_right_ne_nil _ (List.append_ne_nil_of_left_ne_nil t.whole_ne_nil _)

/-- What is spelled with a letter is no numeral. -/
theorem not_isNumeral {cs : List Char} {c : Char} (hc : c ∈ cs) (hdigit : c.isDigit = false)
    (hminus : c ≠ '-') (hpoint : c ≠ '.') : ¬IsNumeral cs := by
  rintro ⟨t, rfl, -, -⟩
  rcases DecimalText.mem_chars hc with h | h | h
  · exact absurd h (by simp [hdigit])
  · exact hminus h
  · exact hpoint h

/-- The number is finite, but its thousandfold is nearer to infinity than to any double. -/
def Overflows (v : Float) : Prop := v.isFinite = true ∧ Double.overflow ≤ 1000 * Double.size v

theorem overflows_iff {v : Float} :
    Overflows v ↔ v.isFinite = true ∧ (v * 1000).isFinite = false := by
  refine and_congr_right fun hv => ?_
  rw [← not_lt, ← Double.isFinite_mul_thousand_iff hv, Bool.not_eq_true]

theorem numeral_of_not_isFinite {v : Float} (h : v.isFinite = false) : numeral v = "0" := by
  unfold numeral
  exact if_pos (by simpa [Scalar.isFinite] using h)

theorem numeral_of_isFinite {v : Float} (h : v.isFinite = true) :
    numeral v =
      let r := Binary.round (v * 1000) / 1000
      if r.beq 0 then "0"
      else if r.isFinite then decimal 3 (Binary.scaled 1000 r)
      else if r < 0 then "-inf" else "inf" := by
  unfold numeral
  exact if_neg (by simpa [Scalar.isFinite] using h)

theorem isNumeral_numeral {v : Float} (h : ¬Overflows v) : IsNumeral (numeral v).toList := by
  by_cases hv : v.isFinite = true
  · have hproduct : (v * 1000).isFinite = true := by
      by_contra hinf
      exact h (overflows_iff.2 ⟨hv, by simpa using hinf⟩)
    have hr : (Binary.round (v * 1000) / 1000).isFinite = true :=
      Double.isFinite_div_thousand (Double.isFinite_binary_round hproduct)
    rw [numeral_of_isFinite hv]
    dsimp only
    split_ifs with h0
    · exact isNumeral_zero
    · exact isNumeral_decimal _
  · rw [numeral_of_not_isFinite (by simpa using hv)]
    exact isNumeral_zero

open Float.Model in
/-- Below zero are the negative ones of the numbers that are neither zero nor undefined. -/
theorem lt_zero_iff {v : Float} {s : UnpackedFloat.Sign}
    (h : v.toModel.unpack = .infinity s ∨ ∃ m e hm, v.toModel.unpack = .finite s m e hm) :
    v < 0 ↔ s = .negative := by
  change decide (v.toModel.unpack.lt (0 : Float).toModel.unpack = true) = true ↔ _
  have hzero : (0 : Float).toModel.unpack = .zero .positive := by rfl
  rw [decide_eq_true_iff, hzero]
  rcases h with h | ⟨m, e, hm, h⟩
  all_goals
    rw [h]
    cases s with
    | positive => exact iff_of_false Bool.false_ne_true nofun
    | negative => exact iff_of_true rfl rfl

/-- A number whose thousandfold overflows is written as the infinity of its sign. -/
theorem numeral_of_overflows {v : Float} (h : Overflows v) :
    numeral v = if v < 0 then "-inf" else "inf" := by
  obtain ⟨hv, hproduct⟩ := overflows_iff.1 h
  obtain hfinite | ⟨s, m, e, hm, hs, hinf⟩ := Double.mul_thousand_cases hv
  · rw [hproduct] at hfinite
    exact nomatch hfinite
  rw [numeral_of_isFinite hv, Double.binary_round_of_not_isFinite hproduct]
  set r := v * 1000 / 1000
  have hrinf : r.toModel.unpack = .infinity s := Double.unpack_div_thousand_of_infinity hinf
  have hrfinite : r.isFinite = false := by
    change r.toModel.unpack.isFinite = false
    rw [hrinf]
    rfl
  have hrzero : r.beq 0 = false := by
    change r.toModel.unpack.beq (0 : Float).toModel.unpack = false
    rw [hrinf]
    cases s <;> rfl
  have hsign : r < 0 ↔ v < 0 := by
    rw [lt_zero_iff (.inl hrinf), lt_zero_iff (.inr ⟨m, e, hm, hs⟩)]
  simp only [hrzero, hrfinite, Bool.false_eq_true, if_false, hsign]

theorem isNumeral_numeral_iff (v : Float) : IsNumeral (numeral v).toList ↔ ¬Overflows v := by
  refine ⟨fun h hv => ?_, isNumeral_numeral⟩
  rw [numeral_of_overflows hv] at h
  split_ifs at h
  · exact not_isNumeral (c := 'i') (by decide) rfl (by decide) (by decide) h
  · exact not_isNumeral (c := 'i') (by decide) rfl (by decide) (by decide) h

def isSeparator (c : Char) : Bool := [' ', ',', 'M', 'L', 'C', 'Q', 'A', 'Z'].contains c

/-- What stands between the blanks, the commas and the letters of the commands. -/
def numbersIn (cs : List Char) : List (List Char) :=
  (cs.splitOnP isSeparator).filter fun w => !w.isEmpty

theorem isSeparator_of_isDigit {c : Char} (h : c.isDigit = true) : isSeparator c = false := by
  rw [← Bool.not_eq_true, isSeparator, List.contains_iff_mem]
  simp only [List.mem_cons, List.not_mem_nil, or_false]
  rintro (rfl | rfl | rfl | rfl | rfl | rfl | rfl | rfl) <;> exact absurd h (by decide)

theorem numbersIn_of_forall {w : List Char} (hw : w ≠ []) (hsep : ∀ c ∈ w, isSeparator c = false) :
    numbersIn w = [w] := by
  rw [numbersIn, List.splitOnP_eq_singleton hsep]
  simp [hw]

theorem numbersIn_append_cons (cs ds : List Char) {c : Char} (hc : isSeparator c = true) :
    numbersIn (cs ++ c :: ds) = numbersIn cs ++ numbersIn ds := by
  rw [numbersIn, List.splitOnP_append_cons cs ds hc, List.filter_append]
  rfl

theorem numbersIn_cons (cs : List Char) {c : Char} (hc : isSeparator c = true) :
    numbersIn (c :: cs) = numbersIn cs :=
  numbersIn_append_cons [] cs hc

theorem numbersIn_intercalate (ws : List String) :
    numbersIn (" ".intercalate ws).toList = ws.flatMap (numbersIn ·.toList) := by
  induction ws with
  | nil => rfl
  | cons w ws ih =>
    cases ws with
    | nil => simp
    | cons x ws =>
      rw [String.intercalate_cons_of_ne_nil (List.cons_ne_nil _ _), String.toList_append,
        String.toList_append, List.append_assoc, List.flatMap_cons, ← ih]
      exact numbersIn_append_cons _ _ rfl

section Texts

variable {α : Type} [Scalar α]

theorem numeral_cases (v : α) :
    (∃ n : ℤ, numeral v = decimal 3 n) ∨ numeral v = "inf" ∨ numeral v = "-inf" := by
  have hzero : ∃ n : ℤ, "0" = decimal 3 n := ⟨0, (decimal_zero 3).symm⟩
  unfold numeral
  dsimp only
  split_ifs
  · exact .inl hzero
  · exact .inl hzero
  · exact .inl ⟨_, rfl⟩
  · exact .inr (.inr rfl)
  · exact .inr (.inl rfl)

/-- A numeral is one piece of a text. -/
theorem numbersIn_numeral (v : α) : numbersIn (numeral v).toList = [(numeral v).toList] := by
  obtain ⟨n, hn⟩ | hn | hn := numeral_cases v
  · rw [hn]
    refine numbersIn_of_forall ?_ fun c hc => ?_
    · rw [← DecimalText.chars_ofDecimal]
      exact DecimalText.chars_ne_nil _
    · rcases mem_decimal hc with h | rfl | rfl
      · exact isSeparator_of_isDigit h
      · rfl
      · rfl
  · rw [hn]
    rfl
  · rw [hn]
    rfl

namespace Command

/-- The numerals of a command, the flags of an arc among them. -/
def numerals : Command α → List String
  | arc radii rotation large sweep p =>
    [numeral radii.x, numeral radii.y, numeral rotation, flag large, flag sweep, numeral p.x,
      numeral p.y]
  | c => c.numbers.map numeral

theorem numbersIn_flag (b : Bool) : numbersIn (flag b).toList = [(flag b).toList] := by
  cases b <;> rfl

theorem numbersIn_point (p : Point α) :
    numbersIn p.text.toList = [(numeral p.x).toList, (numeral p.y).toList] := by
  have htext : p.text.toList = (numeral p.x).toList ++ ',' :: (numeral p.y).toList := by
    simp [Point.text]
  rw [htext, numbersIn_append_cons _ _ rfl, numbersIn_numeral, numbersIn_numeral]
  rfl

theorem numbersIn_words (c : Command α) :
    c.words.flatMap (numbersIn ·.toList) = c.numerals.map String.toList := by
  have hflags (large sweep : Bool) :
      numbersIn ((flag large).toList ++ ',' :: (flag sweep).toList) =
        [(flag large).toList, (flag sweep).toList] := by
    rw [numbersIn_append_cons _ _ rfl, numbersIn_flag, numbersIn_flag]
    rfl
  have hletter (l : Char) (hl : isSeparator l = true) (p : Point α) :
      numbersIn (l :: p.text.toList) = [(numeral p.x).toList, (numeral p.y).toList] := by
    rw [numbersIn_cons _ hl, numbersIn_point]
  cases c with
  | move p => simp [words, numerals, numbers, hletter 'M' rfl]
  | line p => simp [words, numerals, numbers, hletter 'L' rfl]
  | cubic a b p => simp [words, numerals, numbers, hletter 'C' rfl, numbersIn_point]
  | quad a p => simp [words, numerals, numbers, hletter 'Q' rfl, numbersIn_point]
  | arc radii rotation large sweep p =>
    simp [words, numerals, hletter 'A' rfl, numbersIn_point, numbersIn_numeral, hflags]
  | close => rfl

end Command

theorem Path.numbersIn_text (p : Path α) :
    numbersIn p.text.toList = (p.commands.flatMap Command.numerals).map String.toList := by
  rw [Path.text_eq_words, numbersIn_intercalate, List.flatMap_assoc, List.map_flatMap]
  exact congrArg (List.flatMap · _) (funext Command.numbersIn_words)

end Texts

theorem isNumeral_flag (b : Bool) : IsNumeral (Command.flag b).toList := by
  cases b with
  | false => exact isNumeral_zero
  | true => exact isNumeral_decimal 1000

theorem Command.isNumeral_numerals_iff (c : Command Float) :
    (∀ w ∈ c.numerals, IsNumeral w.toList) ↔ ∀ v ∈ c.numbers, ¬Overflows v := by
  cases c <;> simp [numerals, numbers, isNumeral_numeral_iff, isNumeral_flag]

/-- A text has only numerals for its numbers exactly if no number written in it overflows. -/
theorem Path.isNumeral_numbersIn_iff (p : Path Float) :
    (∀ w ∈ numbersIn p.text.toList, IsNumeral w) ↔
      ∀ c ∈ p.commands, ∀ v ∈ c.numbers, ¬Overflows v := by
  simp only [Path.numbersIn_text, List.forall_mem_map, List.forall_mem_flatMap,
    Command.isNumeral_numerals_iff]

/-- A double is written as the shortest numeral of at most three digits behind the point, unless it
is finite and its thousandfold overflows; then an infinity is written under its sign. So the text
of a preset has only numerals for its numbers exactly if no number of its path is so large. -/
theorem numerals_unless_overflow (v : Float) (name : String) (w h : Float)
    (a : Adjustments Float) :
    (IsNumeral (numeral v).toList ↔ ¬Overflows v) ∧
    (Overflows v → numeral v = if v < 0 then "-inf" else "inf") ∧
    (v.isFinite = false → numeral v = "0") ∧
    let path := (outlineOf name (Frame.ofSides w h a)).path
    (∀ n ∈ numbersIn path.text.toList, IsNumeral n) ↔
      ∀ c ∈ path.commands, ∀ u ∈ c.numbers, ¬Overflows u :=
  ⟨isNumeral_numeral_iff v, numeral_of_overflows, numeral_of_not_isFinite,
    (outlineOf name (Frame.ofSides w h a)).path.isNumeral_numbersIn_iff⟩

/-- A rectangle that is finite but very wide, the text of which has infinities in it. -/
theorem wide_rect_written_infinite :
    (1e308 : Float).isFinite = true ∧ numeral (1e308 : Float) = "inf" ∧
      ¬IsNumeral (numeral (1e308 : Float)).toList ∧
      (outlineOf "rect" (Frame.ofSides (1e308 : Float) 1 {})).path.text =
        "M0,0 Linf,0 Linf,1 L0,1 Z" ∧
      ¬∀ n ∈ numbersIn (outlineOf "rect" (Frame.ofSides (1e308 : Float) 1 {})).path.text.toList,
        IsNumeral n := by
  have hnumeral : numeral (1e308 : Float) = "inf" := by decide +kernel
  have hinf : ¬IsNumeral "inf".toList :=
    not_isNumeral (c := 'i') (by decide) rfl (by decide) (by decide)
  have hrect : Preset.ofName? "rect" = some .rect :=
    Preset.ofName?_eq_some_iff.2 (sameName_iff.1 (beq_iff_eq.2 rfl))
  have htext : (outlineOf "rect" (Frame.ofSides (1e308 : Float) 1 {})).path.text =
      "M0,0 Linf,0 Linf,1 L0,1 Z" := by
    rw [outlineOf, hrect]
    decide +kernel
  refine ⟨by decide +kernel, hnumeral, hnumeral ▸ hinf, htext, fun h => hinf (h _ ?_)⟩
  rw [htext]
  decide

end ShapeOutline
