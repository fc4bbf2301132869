import Mathlib
import ShapeOutline.Preset.Sketch
import ShapeOutline.Proofs.Legs

/-! The two chains of a wave. Each consists of equal periods, drawn one from where the
other ends, and a half turn of the frame takes the upper chain to the lower one in the
order of drawing. -/

namespace ShapeOutline
noncomputable section

open Shape

/-- Half a turn about the middle of the frame. -/
def Frame.halfTurn (f : Frame ℝ) : Reflection ℝ := { flipX := some f.w, flipY := some f.h }

@[simp] theorem Frame.halfTurn_point (f : Frame ℝ) (p : Point ℝ) :
    f.halfTurn.point p = ⟨f.w - p.x, f.h - p.y⟩ := rfl

namespace Leg

/-- One period of a wave from where the pen is. -/
def period (span swing : ℝ) (t : Trail) : Leg :=
  let stop : Point ℝ := ⟨t.pen.x + span, t.pen.y⟩
  { trail := t
    stroke := .cubic ⟨t.pen.x + span / 3, t.pen.y - swing⟩
      ⟨t.pen.x + span * 2 / 3, t.pen.y + swing⟩ stop
    target := stop }

/-- The second leg is the image of the first one, with all its control points. -/
structure MapsTo (r : Reflection ℝ) (k l : Leg) : Prop where
  pen : l.trail.pen = r.point k.trail.pen
  stroke : l.stroke = r.stroke k.stroke
  target : l.target = r.point k.target

end Leg

/-- Equal periods lead from one point to another, each of them from the end of the one before. -/
structure WaveChain (start stop : Point ℝ) (legs : List Leg) : Prop where
  periods : ∃ span swing, ∀ l ∈ legs, l = .period span swing l.trail
  contiguous : legs.IsChain fun k l => l.trail.pen = k.target
  starts : legs.head?.map (fun l => l.trail.pen) = some start
  stops : legs.getLast?.map Leg.target = some stop

/-- The legs of a wave: two chains, and the straight sides between them. -/
structure WaveLegs where
  opening : Leg
  upper : List Leg
  side : Leg
  lower : List Leg
  closing : Leg

namespace WaveLegs

def all (o : WaveLegs) : List Leg := o.opening :: o.upper ++ o.side :: o.lower ++ [o.closing]

/-- The upper chain of `n` periods runs to the right and the lower one back to the left, as the half
turn of the upper one. -/
structure PointSymmetric (o : WaveLegs) (n : ℕ) (g : WaveGuides ℝ) (f : Frame ℝ) : Prop where
  length : o.upper.length = n
  upper : WaveChain ⟨g.leftTop, g.top⟩ ⟨g.rightTop, g.top⟩ o.upper
  lower : WaveChain ⟨g.rightBottom, g.bottom⟩ ⟨g.leftBottom, g.bottom⟩ o.lower
  turned : List.Forall₂ (Leg.MapsTo f.halfTurn) o.upper o.lower
  opening : o.opening.stroke = .move ⟨g.leftTop, g.top⟩
  side : o.side.stroke = .line ⟨g.rightBottom, g.bottom⟩
  closing : o.closing.stroke = .close ∧ o.closing.target = o.opening.target
  start_turned : f.halfTurn.point ⟨g.leftTop, g.top⟩ = ⟨g.rightBottom, g.bottom⟩
  start_turned_back : f.halfTurn.point ⟨g.rightBottom, g.bottom⟩ = ⟨g.leftTop, g.top⟩
  within : ∀ x ∈ [g.leftTop, g.rightTop, g.leftBottom, g.rightBottom], 0 ≤ x ∧ x ≤ f.w

end WaveLegs

/-- The ends of the lower chain are the ends of the upper one, seen from the other side. -/
structure Shape.WaveGuides.Fits (g : WaveGuides ℝ) (f : Frame ℝ) : Prop where
  bottom_eq : g.bottom = f.h - g.top
  leftBottom_eq : g.leftBottom = f.w - g.rightTop
  rightBottom_eq : g.rightBottom = f.w - g.leftTop
  leftTop_nonneg : 0 ≤ g.leftTop
  leftTop_le : g.leftTop ≤ g.rightTop
  rightTop_le : g.rightTop ≤ f.w

theorem Shape.WaveGuides.ofFrame_fits {f : Frame ℝ} (hf : f.Sized) (default most : ℝ) :
    (ofFrame f default most).Fits f := by
  set a2 := f.pinned "adj2" 0 (-10000) 10000 with ha2
  obtain ⟨h2, h2'⟩ : -10000 ≤ a2 ∧ a2 ≤ 10000 := f.pinned_mem "adj2" 0 (by norm_num)
  set offset := f.w * a2 / 50000 with hoffset
  have hlo := mul_le_mul_of_nonneg_left h2 hf.w_nonneg
  have hhi := mul_le_mul_of_nonneg_left h2' hf.w_nonneg
  have hw := hf.w_nonneg
  simp only [ofFrame, Scalar.zero_real, Scalar.max_real, Scalar.min_real, ← ha2, ← hoffset]
  -- the offset shortens the chains at opposite ends
  rcases le_total offset 0 with h | h
  · rw [max_eq_left (neg_nonneg.2 h), max_eq_right h, min_eq_left h]
    constructor <;> simp only <;> linarith
  · rw [max_eq_right (neg_nonpos.2 h), max_eq_left h, min_eq_right h]
    constructor <;> simp only <;> linarith

/-- `k` equal periods from where the pen is. -/
def wavePeriods (span swing : ℝ) (t : Trail) (k : ℕ) : List Leg :=
  (List.range k).map fun (i : ℕ) => .period span swing ⟨⟨t.pen.x + span * i, t.pen.y⟩, t.start⟩

section Chains

variable (span swing : ℝ) (t : Trail)

theorem wavePeriods_succ (k : ℕ) : wavePeriods span swing t (k + 1) =
    wavePeriods span swing t k ++
      [.period span swing ⟨⟨t.pen.x + span * k, t.pen.y⟩, t.start⟩] := by
  rw [wavePeriods, wavePeriods, List.range_succ, List.map_append]
  rfl

/-- Wherever a chain begins, each of its periods begins where the one before has ended. -/
theorem Path.legs_periods (k : ℕ) (rest : Sketch ℝ) :
    (bare t).legs ((wavePeriods span swing t k).map Leg.stroke ++ rest) =
      wavePeriods span swing t k ++
        (bare ⟨⟨t.pen.x + span * k, t.pen.y⟩, t.start⟩).legs rest := by
  induction k generalizing rest with
  | zero =>
    rw [Nat.cast_zero, mul_zero, add_zero]
    rfl
  | succ k ih =>
    have hnext : t.pen.x + span * ((k + 1 : ℕ) : ℝ) = t.pen.x + span * k + span := by
      push_cast
      ring
    rw [wavePeriods_succ, List.map_append, List.append_assoc, List.append_assoc, ih, hnext]
    congr 1
    exact legs_cons _ _ rest

theorem wavePeriods_contiguous (k : ℕ) :
    (wavePeriods span swing t k).IsChain fun k l => l.trail.pen = k.target := by
  rw [wavePeriods, List.isChain_map, List.isChain_range]
  intro i _
  simp only [Leg.period, Point.mk.injEq, and_true]
  push_cast
  ring

theorem wavePeriods_chain {k : ℕ} (hk : 0 < k) :
    WaveChain t.pen ⟨t.pen.x + span * k, t.pen.y⟩ (wavePeriods span swing t k) := by
  obtain ⟨m, rfl⟩ := Nat.exists_eq_add_of_lt hk
  rw [zero_add]
  refine ⟨⟨span, swing, fun l hl => ?_⟩, wavePeriods_contiguous .., ?_, ?_⟩
  · obtain ⟨i, -, rfl⟩ := List.mem_map.1 hl
    rfl
  · simp [wavePeriods, List.range_succ_eq_map, Leg.period]
  · rw [wavePeriods_succ]
    simp only [List.getLast?_append, List.getLast?_singleton, Option.some_or, Option.map_some,
      Leg.period]
    push_cast
    ring_nf

/-- A half turn takes a chain to the chain that goes back from the image of its start. -/
theorem wavePeriods_turned (f : Frame ℝ) {u : Trail} (hu : u.pen = f.halfTurn.point t.pen) (k : ℕ) :
    List.Forall₂ (Leg.MapsTo f.halfTurn) (wavePeriods span swing t k)
      (wavePeriods (-span) (-swing) u k) := by
  rw [wavePeriods, wavePeriods, List.forall₂_map_left_iff, List.forall₂_map_right_iff,
    List.forall₂_same]
  intro i _
  simp only [Leg.period, hu, Frame.halfTurn_point]
  constructor
  · ext <;> simp only [Frame.halfTurn_point]
    all_goals ring
  · simp only [Reflection.stroke, Frame.halfTurn_point]
    congr 2 <;> ring
  · ext <;> simp only [Frame.halfTurn_point]
    all_goals ring

end Chains

namespace Shape.WaveGuides

variable (g : WaveGuides ℝ) (n : ℕ)

def start : Point ℝ := ⟨g.leftTop, g.top⟩

/-- The legs of the chains of `n` periods. -/
def upper : List Leg :=
  wavePeriods ((g.rightTop - g.leftTop) / n) g.swing ⟨g.start, g.start⟩ n

def lower : List Leg :=
  wavePeriods (-((g.rightBottom - g.leftBottom) / n)) (-g.swing)
    ⟨⟨g.rightBottom, g.bottom⟩, g.start⟩ n

theorem upper_strokes : (g.upper n).map Leg.stroke = (List.range n).map (g.topPeriod n) := by
  rw [upper, wavePeriods, List.map_map]
  rfl

/-- Period `n - 1 - i` from the left is period `i` from the right. -/
theorem lower_strokes :
    (g.lower n).map Leg.stroke = (List.range n).reverse.map (g.bottomPeriod n) := by
  rw [lower, wavePeriods, List.map_map, List.range_eq_range', List.reverse_range', List.map_map,
    ← List.range_eq_range']
  refine List.map_congr_left fun i hi => ?_
  have hin := List.mem_range.1 hi
  have hn : (n : ℝ) ≠ 0 := Nat.cast_ne_zero.2 (by omega)
  have hcast : ((0 + n - 1 - i : ℕ) : ℝ) = n - 1 - i := by
    rw [Nat.cast_sub (by omega), Nat.cast_sub (by omega), Nat.cast_one, zero_add]
  have hperiod (j : ℕ) : g.bottomPeriod n j =
      let x0 := g.leftBottom + (g.rightBottom - g.leftBottom) / n * (j : ℝ)
      .cubic ⟨x0 + (g.rightBottom - g.leftBottom) / n * 2 / 3, g.bottom + g.swing⟩
        ⟨x0 + (g.rightBottom - g.leftBottom) / n / 3, g.bottom - g.swing⟩ ⟨x0, g.bottom⟩ := rfl
  have hx0 : g.leftBottom + (g.rightBottom - g.leftBottom) / n * ((0 + n - 1 - i : ℕ) : ℝ) =
      g.rightBottom - (g.rightBottom - g.leftBottom) / n * (i + 1) := by
    rw [hcast]
    field_simp
    ring
  simp only [Function.comp_apply, hperiod, hx0, Leg.period]
  congr 2 <;> ring

variable {n} (hn : 0 < n)

include hn

theorem upper_stop : g.start.x + (g.rightTop - g.leftTop) / n * n = g.rightTop := by
  rw [div_mul_cancel₀ _ (Nat.cast_ne_zero.2 hn.ne')]
  exact add_sub_cancel ..

theorem lower_stop :
    g.rightBottom + -((g.rightBottom - g.leftBottom) / n) * n = g.leftBottom := by
  rw [neg_mul, div_mul_cancel₀ _ (Nat.cast_ne_zero.2 hn.ne')]
  ring

theorem upper_chain : WaveChain g.start ⟨g.rightTop, g.top⟩ (g.upper n) := by
  have h := wavePeriods_chain ((g.rightTop - g.leftTop) / n) g.swing ⟨g.start, g.start⟩ hn
  rw [g.upper_stop hn] at h
  exact h

theorem lower_chain :
    WaveChain ⟨g.rightBottom, g.bottom⟩ ⟨g.leftBottom, g.bottom⟩ (g.lower n) := by
  have h := wavePeriods_chain (-((g.rightBottom - g.leftBottom) / n)) (-g.swing)
    ⟨⟨g.rightBottom, g.bottom⟩, g.start⟩ hn
  rw [g.lower_stop hn] at h
  exact h

/-- The legs of the whole outline. -/
def outline (n : ℕ) : WaveLegs where
  opening := ⟨⟨⟨0, 0⟩, ⟨0, 0⟩⟩, .move g.start, g.start⟩
  upper := g.upper n
  side := ⟨⟨⟨g.rightTop, g.top⟩, g.start⟩, .line ⟨g.rightBottom, g.bottom⟩,
    ⟨g.rightBottom, g.bottom⟩⟩
  lower := g.lower n
  closing := ⟨⟨⟨g.leftBottom, g.bottom⟩, g.start⟩, .close, g.start⟩

theorem outline_all : (g.outline n).all = Path.empty.legs
    (.move g.start :: (List.range n).map (g.topPeriod n) ++ .line ⟨g.rightBottom, g.bottom⟩ ::
      (List.range n).reverse.map (g.bottomPeriod n) ++ [.close]) := by
  have hupper := Path.legs_periods ((g.rightTop - g.leftTop) / n) g.swing ⟨g.start, g.start⟩ n
  have hlower := Path.legs_periods (-((g.rightBottom - g.leftBottom) / n)) (-g.swing)
    ⟨⟨g.rightBottom, g.bottom⟩, g.start⟩ n
  rw [← g.upper_strokes n, ← g.lower_strokes n, List.cons_append, List.cons_append,
    List.append_assoc, List.cons_append, Path.empty_eq, Path.legs_move, upper, hupper,
    g.upper_stop hn, Path.legs_line, lower, hlower, g.lower_stop hn, Path.legs_close,
    Path.legs_nil]
  simp only [WaveLegs.all, outline, upper, lower, List.cons_append, List.append_assoc]
  rfl

/-- With the ends of the chains opposite each other the outline is point-symmetric. -/
theorem Fits.pointSymmetric {g : WaveGuides ℝ} {f : Frame ℝ} (hg : g.Fits f) :
    (g.outline n).PointSymmetric n g f := by
  obtain ⟨hbottom, hleft, hright, hlo, hmid, hhi⟩ := hg
  have hturn : f.halfTurn.point g.start = ⟨g.rightBottom, g.bottom⟩ := by
    rw [Frame.halfTurn_point, hright, hbottom]
    rfl
  have hback : f.halfTurn.point ⟨g.rightBottom, g.bottom⟩ = g.start := by
    rw [Frame.halfTurn_point, hright, hbottom, sub_sub_cancel, sub_sub_cancel]
    rfl
  -- both chains are as long
  have hspan : (g.rightBottom - g.leftBottom) / n = (g.rightTop - g.leftTop) / n := by
    rw [hright, hleft, sub_sub_sub_cancel_left]
  have hturned : List.Forall₂ (Leg.MapsTo f.halfTurn) (g.upper n) (g.lower n) := by
    rw [upper, lower, hspan]
    exact wavePeriods_turned _ _ ⟨g.start, g.start⟩ f hturn.symm n
  refine ⟨?_, g.upper_chain hn, g.lower_chain hn, hturned, rfl, rfl, ⟨rfl, rfl⟩, hturn, hback, ?_⟩
  · simp [outline, upper, wavePeriods]
  · simp only [List.forall_mem_cons, List.not_mem_nil, IsEmpty.forall_iff, implies_true, and_true]
    refine ⟨⟨?_, ?_⟩, ⟨?_, ?_⟩, ⟨?_, ?_⟩, ?_, ?_⟩ <;> linarith

end Shape.WaveGuides

/-- A wave of any number of periods is point-symmetric, in every frame and with all adjustments. -/
theorem waves_pointSymmetric {n : ℕ} (hn : 0 < n) {f : Frame ℝ} (hf : f.Sized)
    (default most : ℝ) :
    ∃ o : WaveLegs, Path.empty.legs (waves n default most f) = o.all ∧
      o.PointSymmetric n (WaveGuides.ofFrame f default most) f :=
  ⟨_, (WaveGuides.outline_all _ hn).symm,
    (WaveGuides.ofFrame_fits hf default most).pointSymmetric hn⟩

/-- A double wave in a frame that is not square, its chains shifted to the left. -/
theorem doubleWave_pointSymmetric :
    let f : Frame ℝ := ⟨90, 100, ⟨[("adj2", -10000)]⟩⟩
    0 < 2 ∧ f.Sized ∧
      ∃ o : WaveLegs, Path.empty.legs (Preset.doubleWave.sketch f) = o.all ∧
        o.PointSymmetric 2 (WaveGuides.ofFrame f 6250 12500) f := by
  intro f
  have hf : f.Sized := ⟨by norm_num [f], by norm_num [f]⟩
  exact ⟨two_pos, hf, waves_pointSymmetric two_pos hf 6250 12500⟩

end
end ShapeOutline
