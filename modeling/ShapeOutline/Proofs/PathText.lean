import Mathlib
import ShapeOutline.Proofs.Calls
import ShapeOutline.Proofs.ExtendedReal
import ShapeOutline.Proofs.NumeralText

/-! The text of a path read back. A decoder splits the text at its blanks and
reads off the commands, every number as the thousandth it was rounded to; so two
paths are written alike exactly if their commands round alike. -/

namespace ShapeOutline

variable {α β : Type}

def Point.map (f : α → β) (p : Point α) : Point β := ⟨f p.x, f p.y⟩

/-- A command with each of its numbers replaced. -/
def Command.map (f : α → β) : Command α → Command β
  | move p => move (p.map f)
  | line p => line (p.map f)
  | cubic a b p => cubic (a.map f) (b.map f) (p.map f)
  | quad a p => quad (a.map f) (p.map f)
  | arc radii rotation large sweep p => arc (radii.map f) (f rotation) large sweep (p.map f)
  | close => close

namespace PathText

def pair? (w : List Char) : Option (Point ℚ) :=
  match w.splitOn ',' with
  | [x, y] =>
    match Numeral.rational? x, Numeral.rational? y with
    | some x, some y => some ⟨x, y⟩
    | _, _ => none
  | _ => none

def flags? : List Char → Option (Bool × Bool)
  | ['0', ',', '0'] => some (false, false)
  | ['0', ',', '1'] => some (false, true)
  | ['1', ',', '0'] => some (true, false)
  | ['1', ',', '1'] => some (true, true)
  | _ => none

/-- The commands that a list of words spells. -/
def commands? : List (List Char) → Option (List (Command ℚ))
  | [] => some []
  | ['Z'] :: ws => do return .close :: (← commands? ws)
  | ('M' :: p) :: ws => do return .move (← pair? p) :: (← commands? ws)
  | ('L' :: p) :: ws => do return .line (← pair? p) :: (← commands? ws)
  | ('C' :: a) :: b :: p :: ws => do
    return .cubic (← pair? a) (← pair? b) (← pair? p) :: (← commands? ws)
  | ('Q' :: a) :: p :: ws => do return .quad (← pair? a) (← pair? p) :: (← commands? ws)
  | ('A' :: radii) :: rotation :: flags :: p :: ws => do
    let (large, sweep) ← flags? flags
    return .arc (← pair? radii) (← Numeral.rational? rotation) large sweep (← pair? p) ::
      (← commands? ws)
  | _ => none

/-- The commands that the whole of a text spells. -/
def decode (text : String) : Option (List (Command ℚ)) :=
  match text.toList with
  | [] => some []
  | cs => commands? (cs.splitOn ' ')

end PathText

variable [Scalar α]

namespace Command

/-- The words of a command, which single blanks divide. -/
def words : Command α → List String
  | move p => ["M" ++ p.text]
  | line p => ["L" ++ p.text]
  | cubic a b p => ["C" ++ a.text, b.text, p.text]
  | quad a p => ["Q" ++ a.text, p.text]
  | arc radii rotation large sweep p =>
    ["A" ++ radii.text, numeral rotation, flag large ++ "," ++ flag sweep, p.text]
  | close => ["Z"]

theorem words_ne_nil (c : Command α) : c.words ≠ [] := by
  cases c <;> exact List.cons_ne_nil _ _

theorem text_eq_words (c : Command α) : c.text = " ".intercalate c.words := by
  cases c <;> simp [text, words, String.append_assoc]

end Command

theorem Path.text_eq_words (p : Path α) :
    p.text = " ".intercalate (p.commands.flatMap Command.words) := by
  unfold text
  induction p.commands with
  | nil => rfl
  | cons c rest ih =>
    rw [List.map_cons, List.flatMap_cons]
    cases rest with
    | nil => simpa using c.text_eq_words
    | cons d rest =>
      have hrest : (d :: rest).flatMap Command.words ≠ [] := by
        rw [List.flatMap_cons]
        exact List.append_ne_nil_of_left_ne_nil d.words_ne_nil _
      have hmap : (d :: rest).map Command.text ≠ [] := List.cons_ne_nil _ _
      rw [String.intercalate_cons_of_ne_nil hmap, ih,
        String.intercalate_append_of_ne_nil c.words_ne_nil hrest, ← c.text_eq_words]

theorem PathText.flags?_flag (large sweep : Bool) :
    flags? ((Command.flag large).toList ++ ',' :: (Command.flag sweep).toList) =
      some (large, sweep) := by
  cases large <;> cases sweep <;> rfl

/-- Every number `v` is written as the decimal of `ρ v`, a whole number of thousandths. -/
def Rounds (ρ : α → ℚ) : Prop := ∀ v, ∃ n : ℤ, numeral v = decimal 3 n ∧ ρ v = n / 1000

namespace Rounds

variable {ρ : α → ℚ} (h : Rounds ρ)

include h

theorem rational?_numeral (v : α) : Numeral.rational? (numeral v).toList = some (ρ v) := by
  obtain ⟨n, hn, hv⟩ := h v
  rw [hn, Numeral.rational?_decimal, hv]
  norm_num

theorem not_mem_numeral (v : α) : ' ' ∉ (numeral v).toList ∧ ',' ∉ (numeral v).toList := by
  obtain ⟨n, hn, -⟩ := h v
  rw [hn]
  constructor <;> intro hc <;> exact absurd (mem_decimal hc) (by decide)

theorem pair?_text (p : Point α) : PathText.pair? p.text.toList = some (p.map ρ) := by
  have hlist : p.text.toList = [','].intercalate [(numeral p.x).toList, (numeral p.y).toList] := by
    simp [Point.text, List.intercalate]
  have hsplit : p.text.toList.splitOn ',' = [(numeral p.x).toList, (numeral p.y).toList] := by
    rw [hlist]
    apply List.splitOn_intercalate
    · simp [(h.not_mem_numeral p.x).2, (h.not_mem_numeral p.y).2]
    · exact List.cons_ne_nil _ _
  rw [PathText.pair?, hsplit]
  simp only [h.rational?_numeral]
  rfl

theorem blank_not_mem_text (p : Point α) : ' ' ∉ p.text.toList := by
  simp [Point.text, (h.not_mem_numeral p.x).1, (h.not_mem_numeral p.y).1]

theorem blank_not_mem_words (c : Command α) : ∀ w ∈ c.words, ' ' ∉ w.toList := by
  have hflag (b : Bool) : ' ' ∉ (Command.flag b).toList := by cases b <;> decide
  cases c <;> simp [Command.words, h.blank_not_mem_text, h.not_mem_numeral, hflag]

/-- The words of a command are read as the command, whatever words follow. -/
theorem commands?_words (c : Command α) (ws : List (List Char)) :
    PathText.commands? (c.words.map String.toList ++ ws) =
      (PathText.commands? ws).map (c.map ρ :: ·) := by
  rw [Option.map_eq_bind]
  cases c with
  | move p => simp [Command.words, PathText.commands?, h.pair?_text, Command.map, Function.comp_def]
  | line p => simp [Command.words, PathText.commands?, h.pair?_text, Command.map, Function.comp_def]
  | cubic a b p =>
    simp [Command.words, PathText.commands?, h.pair?_text, Command.map, Function.comp_def]
  | quad a p =>
    simp [Command.words, PathText.commands?, h.pair?_text, Command.map, Function.comp_def]
  | arc radii rotation large sweep p =>
    simp [Command.words, PathText.commands?, h.pair?_text, h.rational?_numeral,
      PathText.flags?_flag, Command.map, Function.comp_def]
  | close => simp [Command.words, PathText.commands?, Command.map, Function.comp_def]

theorem commands?_flatMap_words (cs : List (Command α)) :
    PathText.commands? ((cs.flatMap Command.words).map String.toList) =
      some (cs.map (Command.map ρ)) := by
  induction cs with
  | nil => rfl
  | cons c rest ih =>
    rw [List.flatMap_cons, List.map_append, h.commands?_words, ih, Option.map_some, List.map_cons]

/-- A text is read as the commands it was written for, with every number rounded. -/
theorem decode_text (p : Path α) :
    PathText.decode p.text = some (p.commands.map (Command.map ρ)) := by
  cases hp : p.commands with
  | nil =>
    have htext : p.text = "" := by rw [Path.text, hp]; rfl
    rw [htext]
    rfl
  | cons c rest =>
    set words := (p.commands.flatMap Command.words).map String.toList with hwords
    have hchars : p.text.toList = [' '].intercalate words := by
      rw [Path.text_eq_words, String.toList_intercalate]
      rfl
    have hne : words ≠ [] := by
      rw [hwords, hp, List.flatMap_cons, List.map_append]
      exact List.append_ne_nil_of_left_ne_nil (fun h => c.words_ne_nil (List.map_eq_nil_iff.1 h)) _
    have hblank : ∀ w ∈ words, ' ' ∉ w := by
      intro w hw
      obtain ⟨s, hs, rfl⟩ := List.mem_map.1 hw
      obtain ⟨d, -, hd⟩ := List.mem_flatMap.1 hs
      exact h.blank_not_mem_words d s hd
    have hsplit : p.text.toList.splitOn ' ' = words := by
      rw [hchars, List.splitOn_intercalate ' ' hblank hne]
    have hread : PathText.commands? words = some (p.commands.map (Command.map ρ)) :=
      h.commands?_flatMap_words p.commands
    rw [← hp, ← hread, ← hsplit]
    unfold PathText.decode
    split
    · -- no command is written as nothing
      rename_i hempty
      rw [← hsplit, hempty] at hread
      exact nomatch hread
    · rfl

/-- How the number of so many thousandths is written. -/
theorem numeral_eq (v : α) : numeral v = decimal 3 ⌊1000 * ρ v⌋ := by
  obtain ⟨n, hn, hv⟩ := h v
  have hfloor : 1000 * ρ v = (n : ℚ) := by rw [hv]; ring
  rw [hn, hfloor, Int.floor_intCast]

theorem numeral_congr {v w : α} (hvw : ρ v = ρ w) : numeral v = numeral w := by
  rw [h.numeral_eq, h.numeral_eq, hvw]

theorem text_congr {p q : Point α} (hpq : p.map ρ = q.map ρ) : p.text = q.text := by
  obtain ⟨hx, hy⟩ := Point.mk.inj hpq
  rw [Point.text, Point.text, h.numeral_congr hx, h.numeral_congr hy]

theorem command_text_congr {c d : Command α} (hcd : c.map ρ = d.map ρ) : c.text = d.text := by
  cases c with
  | move p =>
    cases d with
    | move q => rw [Command.text, Command.text, h.text_congr (Command.move.inj hcd)]
    | _ => exact nomatch hcd
  | line p =>
    cases d with
    | line q => rw [Command.text, Command.text, h.text_congr (Command.line.inj hcd)]
    | _ => exact nomatch hcd
  | cubic a b p =>
    cases d with
    | cubic a' b' p' =>
      obtain ⟨ha, hb, hp⟩ := Command.cubic.inj hcd
      rw [Command.text, Command.text, h.text_congr ha, h.text_congr hb, h.text_congr hp]
    | _ => exact nomatch hcd
  | quad a p =>
    cases d with
    | quad a' p' =>
      obtain ⟨ha, hp⟩ := Command.quad.inj hcd
      rw [Command.text, Command.text, h.text_congr ha, h.text_congr hp]
    | _ => exact nomatch hcd
  | arc radii rotation large sweep p =>
    cases d with
    | arc radii' rotation' large' sweep' p' =>
      obtain ⟨hr, ht, rfl, rfl, hp⟩ := Command.arc.inj hcd
      rw [Command.text, Command.text, h.text_congr hr, h.numeral_congr ht, h.text_congr hp]
    | _ => exact nomatch hcd
  | close =>
    cases d with
    | close => rfl
    | _ => exact nomatch hcd

/-- Two paths are written alike exactly if their commands round alike. -/
theorem text_eq_iff (p q : Path α) :
    p.text = q.text ↔ p.commands.map (Command.map ρ) = q.commands.map (Command.map ρ) := by
  constructor
  · intro hpq
    have hread := h.decode_text p
    rw [hpq, h.decode_text q] at hread
    exact (Option.some.inj hread).symm
  · intro hpq
    have htexts : p.commands.map Command.text = q.commands.map Command.text := by
      generalize p.commands = cs at hpq
      generalize q.commands = ds at hpq
      induction cs generalizing ds with
      | nil => rw [List.map_eq_nil_iff.1 hpq.symm]
      | cons c rest ih =>
        cases ds with
        | nil => exact nomatch hpq
        | cons d ds =>
          obtain ⟨hc, hrest⟩ := List.cons.inj hpq
          rw [List.map_cons, List.map_cons, h.command_text_congr hc, ih ds hrest]
    rw [Path.text, Path.text, htexts]

end Rounds

noncomputable section

/-- The nearest whole number, a half going away from zero. -/
def nearestAway (x : ℝ) : ℤ := if x < 0 then -⌊-x + 1 / 2⌋ else ⌊x + 1 / 2⌋

/-- The nearest thousandth, a half of one going away from zero. -/
def thousandth (x : ℝ) : ℚ := nearestAway (1000 * x) / 1000

theorem abs_nearestAway_sub_le (x : ℝ) : |nearestAway x - x| ≤ 1 / 2 := by
  unfold nearestAway
  rw [abs_le]
  split_ifs with hx
  · have hlo := Int.floor_le (-x + 1 / 2)
    have hhi := Int.lt_floor_add_one (-x + 1 / 2)
    push_cast
    constructor <;> linarith
  · have hlo := Int.floor_le (x + 1 / 2)
    have hhi := Int.lt_floor_add_one (x + 1 / 2)
    constructor <;> linarith

/-- A half is never rounded towards zero. -/
theorem abs_lt_abs_nearestAway {x : ℝ} (h : |nearestAway x - x| = 1 / 2) :
    |x| < |(nearestAway x : ℝ)| := by
  unfold nearestAway at h ⊢
  split_ifs at h ⊢ with hx
  · have hhi := Int.lt_floor_add_one (-x + 1 / 2)
    push_cast at h ⊢
    rcases (abs_eq (by norm_num)).1 h with h | h
    · linarith
    · rw [abs_of_neg hx, abs_of_neg (by linarith)]
      linarith
  · have hhi := Int.lt_floor_add_one (x + 1 / 2)
    rcases (abs_eq (by norm_num)).1 h with h | h
    · rw [abs_of_nonneg (not_lt.1 hx), abs_of_nonneg (by linarith)]
      linarith
    · linarith

theorem abs_thousandth_sub (x : ℝ) :
    |(thousandth x : ℝ) - x| = |nearestAway (1000 * x) - 1000 * x| / 1000 := by
  have hscale : (thousandth x : ℝ) - x = (nearestAway (1000 * x) - 1000 * x) / 1000 := by
    unfold thousandth
    push_cast
    ring
  rw [hscale, abs_div, abs_of_pos (by norm_num : (0 : ℝ) < 1000)]

theorem abs_thousandth_sub_le (x : ℝ) : |(thousandth x : ℝ) - x| ≤ 1 / 2000 := by
  have h := abs_nearestAway_sub_le (1000 * x)
  rw [abs_thousandth_sub]
  linarith

theorem abs_lt_abs_thousandth {x : ℝ} (h : |(thousandth x : ℝ) - x| = 1 / 2000) :
    |x| < |(thousandth x : ℝ)| := by
  rw [abs_thousandth_sub] at h
  have haway := abs_lt_abs_nearestAway (x := 1000 * x) (by linarith)
  unfold thousandth
  push_cast
  rw [abs_mul, abs_of_pos (by norm_num : (0 : ℝ) < 1000)] at haway
  rw [abs_div, abs_of_pos (by norm_num : (0 : ℝ) < 1000)]
  linarith

theorem nearestEven_intCast (n : ℤ) : nearestEven n = n := by
  unfold nearestEven
  rw [Int.fract_intCast, if_pos (by norm_num), Int.floor_intCast]

theorem round_real (x : ℝ) : Scalar.round x = nearestAway x := by
  change (if x < 0 then -(⌊-x + 1 / 2⌋ : ℝ) else (⌊x + 1 / 2⌋ : ℝ)) = _
  unfold nearestAway
  split_ifs
  · push_cast
    rfl
  · rfl

theorem numeral_real (x : ℝ) : numeral x = decimal 3 (nearestAway (1000 * x)) := by
  have hround : Scalar.round (x * 1000) / 1000 = (nearestAway (1000 * x) : ℝ) / 1000 := by
    rw [round_real, mul_comm]
  have hthousandths : Scalar.thousandths ((nearestAway (1000 * x) : ℝ) / 1000) =
      nearestAway (1000 * x) := by
    change nearestEven (1000 * ((nearestAway (1000 * x) : ℝ) / 1000)) = _
    rw [mul_div_cancel₀ _ (by norm_num), nearestEven_intCast]
  unfold numeral
  rw [Scalar.isFinite_real, if_neg (by simp)]
  dsimp only
  rw [Scalar.ofNat_real, hround, Scalar.beq_real, Scalar.zero_real, Scalar.isFinite_real,
    if_pos rfl, hthousandths]
  split_ifs with h0
  · have hn : nearestAway (1000 * x) = 0 := by simpa using h0
    rw [hn]
    rfl
  · rfl

theorem rounds_thousandth : Rounds thousandth :=
  fun x => ⟨nearestAway (1000 * x), numeral_real x, rfl⟩

/-- The nearest thousandth of a real number, and zero for what is none. -/
def Extended.thousandth : Extended → ℚ
  | real x => ShapeOutline.thousandth x
  | undefined => 0

theorem Extended.numeral_real (x : ℝ) : numeral (real x) = numeral x := by
  have hround : Scalar.round (real x * 1000) / 1000 = real (Scalar.round (x * 1000) / 1000) := by
    change (if (Scalar.ofNat 1000 : ℝ) = 0 then undefined else real _) = _
    rw [if_neg (by change ((1000 : ℕ) : ℝ) ≠ 0; norm_num)]
    rfl
  unfold numeral
  dsimp only
  rw [hround]
  rfl

theorem Extended.rounds_thousandth : Rounds Extended.thousandth := by
  intro v
  cases v with
  | real x =>
    have hx : numeral (real x) = decimal 3 (nearestAway (1000 * x)) :=
      (numeral_real x).trans (ShapeOutline.numeral_real x)
    exact ⟨nearestAway (1000 * x), hx, rfl⟩
  | undefined => exact ⟨0, rfl, by simp [thousandth]⟩

/-- The text that calls build is read, to its end, as the commands that they wrote, every number
rounded to the nearest thousandth and a half of one away from zero; so calls build one text exactly
if their commands round alike. What is not a number is read as zero. -/
theorem text_decodes :
    (∀ cs : List (Call ℝ), PathText.decode (Path.empty.calls cs).text =
      some ((Path.empty.history cs).map (Command.map thousandth))) ∧
    (∀ as bs : List (Call ℝ), (Path.empty.calls as).text = (Path.empty.calls bs).text ↔
      (Path.empty.history as).map (Command.map thousandth) =
        (Path.empty.history bs).map (Command.map thousandth)) ∧
    (∀ cs : List (Command Extended), PathText.decode (cs.foldl Path.push Path.empty).text =
      some (cs.map (Command.map Extended.thousandth))) ∧
    Extended.thousandth .undefined = 0 ∧
    (∀ x, Extended.thousandth (.real x) = thousandth x) ∧
    ∀ x, (∃ n : ℤ, thousandth x = n / 1000) ∧ |(thousandth x : ℝ) - x| ≤ 1 / 2000 ∧
      (|(thousandth x : ℝ) - x| = 1 / 2000 → |x| < |(thousandth x : ℝ)|) := by
  refine ⟨fun cs => ?_, fun as bs => ?_, fun cs => ?_, rfl, fun x => rfl, fun x => ?_⟩
  · rw [rounds_thousandth.decode_text, Path.calls_empty_commands]
  · rw [rounds_thousandth.text_eq_iff, Path.calls_empty_commands, Path.calls_empty_commands]
  · rw [Extended.rounds_thousandth.decode_text, Path.foldl_push_commands]
    rfl
  · exact ⟨⟨nearestAway (1000 * x), rfl⟩, abs_thousandth_sub_le x, abs_lt_abs_thousandth⟩

end
end ShapeOutline
