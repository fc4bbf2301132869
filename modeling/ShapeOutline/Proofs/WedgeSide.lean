import Mathlib
import ShapeOutline.Preset.Sketch
import ShapeOutline.Proofs.Legs

/-! The wedge of a callout. It is let into one side of the box, in one half of it. The
side is chosen by comparing the offsets of the tip, each multiplied by the other side
of the frame. The offsets are parts of the sides already, so the side that faces the
tip is found in a square frame only. -/

namespace ShapeOutline
noncomputable section

open Shape

/-- The point of a side at a part of its length, from the left or from the top. -/
def Shape.Side.point (f : Frame ℝ) (k : ℝ) : Side → Point ℝ
  | .top => ⟨f.w * k, 0⟩
  | .right => ⟨f.w, f.h * k⟩
  | .bottom => ⟨f.w * k, f.h⟩
  | .left => ⟨0, f.h * k⟩

/-- The side that a tip faces, and whether it does so past the middle, by its offsets from the
centre in parts of the sides. -/
def facing (a b : ℝ) : Side × Bool :=
  if |b| < |a| then (if 0 < a then .right else .left, decide (0 < b))
  else (if 0 < b then .bottom else .top, decide (0 < a))

/-- The ray from the centre to the tip leaves the frame through the side, in the given half. -/
def CrossedBy (f : Frame ℝ) (tip : Point ℝ) (place : Side × Bool) : Prop :=
  ∃ k ∈ Set.Icc (0 : ℝ) 1, OnRay f.center (tip - f.center) (place.1.point f k) ∧
    (place.2 = true ↔ 1 / 2 < k)

/-- The part of a side that the wedge stands on. -/
def Shape.Tail.foot (t : Tail ℝ) : Set ℝ :=
  if t.past then Set.Ioo (1 / 2) 1 else Set.Ioo 0 (1 / 2)

/-- A straight leg on a side of the frame. -/
structure Leg.Along (f : Frame ℝ) (side : Side) (l : Leg) : Prop where
  straight : l.stroke.IsStraight
  pen : ∃ k, l.trail.pen = side.point f k
  target : ∃ k, l.target = side.point f k

/-- The straight leg of a closed box along the tail's side is interrupted by two lines, through the
tip and back to the side. -/
def LetIn (f : Frame ℝ) (t : Tail ℝ) (box s : Sketch ℝ) : Prop :=
  ∃ n l, (Path.empty.legs box)[n]? = some l ∧ l.Along f t.side ∧
    ∃ j ∈ t.foot, ∃ k ∈ t.foot,
      s = box.take n ++ Sketch.lines [t.side.point f j, t.tip, t.side.point f k] ++ box.drop n

/-- A box with round corners. -/
def roundBox (f : Frame ℝ) (d : ℝ) : Sketch ℝ :=
  [.move ⟨0, d⟩, .arc ⟨d, d⟩ 180 90, .line ⟨f.w - d, 0⟩, .arc ⟨d, d⟩ 270 90, .line ⟨f.w, f.h - d⟩,
    .arc ⟨d, d⟩ 0 90, .line ⟨d, f.h⟩, .arc ⟨d, d⟩ 90 90, .close]

section Facing

variable {a b : ℝ}

theorem facing_scaled {m n : ℝ} (hm : 0 < m) (hn : 0 < n) :
    facing (a * m) (b * n) = if |b| * n < |a| * m then
      (if 0 < a then .right else .left, decide (0 < b))
      else (if 0 < b then .bottom else .top, decide (0 < a)) := by
  simp only [facing, abs_mul, abs_of_pos hm, abs_of_pos hn, mul_pos_iff_of_pos_right hm,
    mul_pos_iff_of_pos_right hn]

/-- Scaled offsets face the same side if they compare as before, and only then. -/
theorem facing_scaled_iff {m n : ℝ} (hm : 0 < m) (hn : 0 < n) :
    facing (a * m) (b * n) = facing a b ↔ (|b| * n < |a| * m ↔ |b| < |a|) := by
  rw [facing_scaled hm hn, facing]
  by_cases h : |b| * n < |a| * m <;> by_cases h' : |b| < |a|
  · simp [h, h']
  · -- the one is on the left or right, the other at the top or bottom
    simp only [h, h', if_true, if_false, iff_false, not_true]
    split_ifs <;> simp
  · simp only [h, h', if_true, if_false, iff_true]
    split_ifs <;> simp
  · simp [h, h']

variable {f : Frame ℝ}

/-- Where a ray with the offset `u` along a side and `v` across it leaves through that side. -/
theorem crossing_mem {u v : ℝ} (hv : 0 < |v|) (h : |u| ≤ |v|) :
    (1 + u / |v|) / 2 ∈ Set.Icc (0 : ℝ) 1 ∧ (0 < u ↔ 1 / 2 < (1 + u / |v|) / 2) := by
  have hlo : -1 ≤ u / |v| := (le_div_iff₀ hv).2 (by linarith [neg_abs_le u])
  have hhi : u / |v| ≤ 1 := (div_le_one hv).2 ((le_abs_self u).trans h)
  refine ⟨⟨by linarith, by linarith⟩, ?_⟩
  rw [← div_pos_iff_of_pos_right hv]
  constructor <;> intro h <;> linarith

theorem center_add_offset (f : Frame ℝ) (a b m : ℝ) :
    f.center + (⟨f.hc + f.w * a / 100000, f.vc + f.h * b / 100000⟩ - f.center) * m =
      ⟨f.w * (1 / 2 + a * m / 100000), f.h * (1 / 2 + b * m / 100000)⟩ := by
  ext <;> simp [Frame.center, Frame.hc, Frame.vc] <;> ring

theorem facing_crossed (f : Frame ℝ) (hne : a ≠ 0 ∨ b ≠ 0) :
    CrossedBy f ⟨f.hc + f.w * a / 100000, f.vc + f.h * b / 100000⟩ (facing a b) := by
  have hfar {v : ℝ} (hv : 0 < v) : v * (50000 / |v|) / 100000 = 1 / 2 := by
    rw [abs_of_pos hv]
    field_simp
    norm_num
  have hnear {v : ℝ} (hv : v < 0) : v * (50000 / |v|) / 100000 = -(1 / 2) := by
    have h := hfar (neg_pos.2 hv)
    rw [abs_neg] at h
    linarith
  have hmid (u v : ℝ) : (1 + u / |v|) / 2 = 1 / 2 + u * (50000 / |v|) / 100000 := by ring
  unfold facing
  split_ifs with h hpos hpos
  · have ha := (abs_nonneg b).trans_lt h
    obtain ⟨hmem, hpast⟩ := crossing_mem ha h.le
    refine ⟨_, hmem, ⟨50000 / |a|, by positivity, ?_⟩, by simpa using hpast⟩
    rw [center_add_offset, hfar hpos, hmid]
    norm_num [Side.point]
  · have ha := (abs_nonneg b).trans_lt h
    have hneg : a < 0 := (not_lt.1 hpos).lt_of_ne (abs_pos.1 ha)
    obtain ⟨hmem, hpast⟩ := crossing_mem ha h.le
    refine ⟨_, hmem, ⟨50000 / |a|, by positivity, ?_⟩, by simpa using hpast⟩
    rw [center_add_offset, hnear hneg, hmid]
    norm_num [Side.point]
  · obtain ⟨hmem, hpast⟩ := crossing_mem (abs_pos.2 hpos.ne') (not_lt.1 h)
    refine ⟨_, hmem, ⟨50000 / |b|, by positivity, ?_⟩, by simpa using hpast⟩
    rw [center_add_offset, hfar hpos, hmid]
    norm_num [Side.point]
  · have hb : b ≠ 0 := by
      rintro rfl
      exact h (by simpa using hne)
    have hneg : b < 0 := (not_lt.1 hpos).lt_of_ne hb
    obtain ⟨hmem, hpast⟩ := crossing_mem (abs_pos.2 hb) (not_lt.1 h)
    refine ⟨_, hmem, ⟨50000 / |b|, by positivity, ?_⟩, by simpa using hpast⟩
    rw [center_add_offset, hnear hneg, hmid]
    norm_num [Side.point]

section Tail

variable {f : Frame ℝ} (hw : 0 < f.w) (hh : 0 < f.h)

include hw hh

/-- The offsets are compared after each has been multiplied by the other side. -/
theorem tail_facing :
    let t := Tail.ofFrame f
    (t.side, t.past) = facing (f.adjustment "adj1" (-20833) * f.h)
      (f.adjustment "adj2" 62500 * f.w) := by
  intro t
  set a := f.adjustment "adj1" (-20833) with ha
  set b := f.adjustment "adj2" 62500 with hb
  have hx : 0 < f.widthPart a ↔ 0 < a := by
    rw [show f.widthPart a = f.w * a / 100000 from rfl, div_pos_iff_of_pos_right (by norm_num),
      mul_pos_iff_of_pos_left hw]
  have hy : 0 < f.heightPart b ↔ 0 < b := by
    rw [Frame.heightPart_real, div_pos_iff_of_pos_right (by norm_num), mul_pos_iff_of_pos_left hh]
  have hdx : divOrZero (f.widthPart a * f.h) f.w = a * f.h / 100000 := by
    rw [divOrZero_real, show f.widthPart a = f.w * a / 100000 from rfl]
    field_simp
  have hdy : divOrZero (f.heightPart b * f.w) f.h = b * f.w / 100000 := by
    rw [divOrZero_real, Frame.heightPart_real]
    field_simp
  have hless : Scalar.abs (divOrZero (f.heightPart b * f.w) f.h) <
      Scalar.abs (divOrZero (f.widthPart a * f.h) f.w) ↔ |b| * f.w < |a| * f.h := by
    rw [hdx, hdy, Scalar.abs_real, Scalar.abs_real, abs_div, abs_div, abs_mul, abs_mul,
      abs_of_pos hw, abs_of_pos hh, div_lt_div_iff_of_pos_right (by norm_num)]
  rw [facing_scaled hh hw]
  simp only [t, Tail.ofFrame, ← ha, ← hb, hless, hx, hy, Scalar.zero_real]
  split_ifs <;> rfl

end Tail

end Facing

section Box

variable {f : Frame ℝ} {d : ℝ}

theorem roundBox_legs (f : Frame ℝ) (hd : 0 ≤ d) :
    Path.empty.legs (roundBox f d) =
      [⟨⟨⟨0, 0⟩, ⟨0, 0⟩⟩, .move ⟨0, d⟩, ⟨0, d⟩⟩,
        ⟨⟨⟨0, d⟩, ⟨0, d⟩⟩, .arc ⟨d, d⟩ 180 90, ⟨d, 0⟩⟩,
        ⟨⟨⟨d, 0⟩, ⟨0, d⟩⟩, .line ⟨f.w - d, 0⟩, ⟨f.w - d, 0⟩⟩,
        ⟨⟨⟨f.w - d, 0⟩, ⟨0, d⟩⟩, .arc ⟨d, d⟩ 270 90, ⟨f.w, d⟩⟩,
        ⟨⟨⟨f.w, d⟩, ⟨0, d⟩⟩, .line ⟨f.w, f.h - d⟩, ⟨f.w, f.h - d⟩⟩,
        ⟨⟨⟨f.w, f.h - d⟩, ⟨0, d⟩⟩, .arc ⟨d, d⟩ 0 90, ⟨f.w - d, f.h⟩⟩,
        ⟨⟨⟨f.w - d, f.h⟩, ⟨0, d⟩⟩, .line ⟨d, f.h⟩, ⟨d, f.h⟩⟩,
        ⟨⟨⟨d, f.h⟩, ⟨0, d⟩⟩, .arc ⟨d, d⟩ 90 90, ⟨0, f.h - d⟩⟩,
        ⟨⟨⟨0, f.h - d⟩, ⟨0, d⟩⟩, .close, ⟨0, d⟩⟩] := by
  simp [roundBox, Path.empty_eq, Path.legs_up_right _ hd, Path.legs_right_down _ hd,
    Path.legs_down_left _ hd, Path.legs_left_up _ hd]

theorem wedged_letIn (hw : 0 < f.w) (hh : 0 < f.h) (hd : 0 ≤ d) :
    LetIn f (Tail.ofFrame f) (roundBox f d) (wedged f d) := by
  set t := Tail.ofFrame f with ht
  obtain ⟨j, hj, hnear⟩ : ∃ j ∈ t.foot, ∀ s : ℝ, s * (if t.past then 7 else 2) / 12 = s * j := by
    refine ⟨(if t.past then 7 else 2) / 12, ?_, fun s => mul_div_assoc ..⟩
    cases h : t.past <;> norm_num [Tail.foot, h]
  obtain ⟨k, hk, hfar⟩ : ∃ k ∈ t.foot, ∀ s : ℝ, s * (if t.past then 10 else 5) / 12 = s * k := by
    refine ⟨(if t.past then 10 else 5) / 12, ?_, fun s => mul_div_assoc ..⟩
    cases h : t.past <;> norm_num [Tail.foot, h]
  have hx (x y : ℝ) : (⟨x, y⟩ : Point ℝ) = ⟨f.w * (x / f.w), y⟩ := by
    rw [mul_div_cancel₀ x hw.ne']
  have hy (x y : ℝ) : (⟨x, y⟩ : Point ℝ) = ⟨x, f.h * (y / f.h)⟩ := by
    rw [mul_div_cancel₀ y hh.ne']
  unfold LetIn
  rw [roundBox_legs f hd]
  cases hside : t.side with
  | top =>
    refine ⟨2, _, rfl, ⟨trivial, ⟨_, hx _ _⟩, ⟨_, hx _ _⟩⟩, j, hj, k, hk, ?_⟩
    simp [wedged, roundBox, ← ht, hside, hnear, hfar, Side.point, Sketch.lines, -mul_ite]
  | right =>
    refine ⟨4, _, rfl, ⟨trivial, ⟨_, hy _ _⟩, ⟨_, hy _ _⟩⟩, j, hj, k, hk, ?_⟩
    simp [wedged, roundBox, ← ht, hside, hnear, hfar, Side.point, Sketch.lines, -mul_ite]
  | bottom =>
    refine ⟨6, _, rfl, ⟨trivial, ⟨_, hx _ _⟩, ⟨_, hx _ _⟩⟩, k, hk, j, hj, ?_⟩
    simp [wedged, roundBox, ← ht, hside, hnear, hfar, Side.point, Sketch.lines, -mul_ite]
  | left =>
    refine ⟨8, _, rfl, ⟨trivial, ⟨_, hy _ _⟩, ⟨_, hy _ _⟩⟩, k, hk, j, hj, ?_⟩
    simp [wedged, roundBox, ← ht, hside, hnear, hfar, Side.point, Sketch.lines, -mul_ite]

end Box

/-- In both callouts a wedge through the tip is let into one side of the box. It is the side and the
half that the ray from the centre to the tip leaves through, exactly if the offsets compare as they
do when each is multiplied by the other side of the frame. -/
theorem wedge_faces_tip_iff {f : Frame ℝ} (hw : 0 < f.w) (hh : 0 < f.h) :
    let a := f.adjustment "adj1" (-20833)
    let b := f.adjustment "adj2" 62500
    let t := Tail.ofFrame f
    t.tip = ⟨f.hc + f.w * a / 100000, f.vc + f.h * b / 100000⟩ ∧
    (a ≠ 0 ∨ b ≠ 0 → CrossedBy f t.tip (facing a b)) ∧
    ((t.side, t.past) = facing a b ↔ (|b| * f.w < |a| * f.h ↔ |b| < |a|)) ∧
    (t.side, t.past) = facing (a * f.h) (b * f.w) ∧
    LetIn f t (roundBox f 0) (Preset.wedgeRectCallout.sketch f) ∧
    LetIn f t (roundBox f (f.shortPart (f.pinned "adj3" 16667 0 50000)))
      (Preset.wedgeRoundRectCallout.sketch f) := by
  intro a b t
  have htip : t.tip = ⟨f.hc + f.w * a / 100000, f.vc + f.h * b / 100000⟩ := by
    simp only [t, Tail.ofFrame]
    split_ifs <;> rfl
  have hcorner : 0 ≤ f.shortPart (f.pinned "adj3" 16667 0 50000) :=
    Frame.Sized.shortPart_nonneg ⟨hw.le, hh.le⟩ (f.pinned_mem "adj3" 16667 (by norm_num)).1
  refine ⟨htip, fun hne => ?_, ?_, tail_facing hw hh, ?_, ?_⟩
  · rw [htip]
    exact facing_crossed f hne
  · rw [tail_facing hw hh, facing_scaled_iff hh hw]
  · simpa only [Preset.sketch, wedgeRectCallout, Scalar.zero_real] using
      wedged_letIn hw hh (le_refl (0 : ℝ))
  · simpa only [Preset.sketch, wedgeRoundRectCallout, Scalar.zero_real] using
      wedged_letIn hw hh hcorner

/-- A wide frame, with the adjustments left out. -/
theorem wedge_faces_tip_wide :
    let f : Frame ℝ := ⟨200, 100, .empty⟩
    (0 < f.w ∧ 0 < f.h) ∧
    (let a := f.adjustment "adj1" (-20833)
    let b := f.adjustment "adj2" 62500
    let t := Tail.ofFrame f
    t.tip = ⟨f.hc + f.w * a / 100000, f.vc + f.h * b / 100000⟩ ∧
    (a ≠ 0 ∨ b ≠ 0 → CrossedBy f t.tip (facing a b)) ∧
    ((t.side, t.past) = facing a b ↔ (|b| * f.w < |a| * f.h ↔ |b| < |a|)) ∧
    (t.side, t.past) = facing (a * f.h) (b * f.w) ∧
    LetIn f t (roundBox f 0) (Preset.wedgeRectCallout.sketch f) ∧
    LetIn f t (roundBox f (f.shortPart (f.pinned "adj3" 16667 0 50000)))
      (Preset.wedgeRoundRectCallout.sketch f)) := by
  intro f
  have hw : 0 < f.w := by norm_num [f]
  have hh : 0 < f.h := by norm_num [f]
  exact ⟨⟨hw, hh⟩, wedge_faces_tip_iff hw hh⟩

/-- A tip to the right of a wide frame, whose wedge is on the lower side. In a square frame the
same adjustments put it on the right one. -/
theorem wedge_on_other_side :
    let adjustments : Adjustments ℝ := ⟨[("adj1", 60000), ("adj2", 50000)]⟩
    let wide := Tail.ofFrame ⟨200, 100, adjustments⟩
    let square := Tail.ofFrame ⟨100, 100, adjustments⟩
    facing 60000 50000 = (.right, true) ∧
      (wide.side, wide.past) = (.bottom, true) ∧ (square.side, square.past) = (.right, true) := by
  intro adjustments wide square
  have hoffsets (w h : ℝ) :
      (⟨w, h, adjustments⟩ : Frame ℝ).adjustment "adj1" (-20833) = 60000 ∧
        (⟨w, h, adjustments⟩ : Frame ℝ).adjustment "adj2" 62500 = 50000 := by
    simp [adjustments, Frame.adjustment, Adjustments.getD, Adjustments.get?, List.lookup]
  have hplace (w h : ℝ) (hw : 0 < w) (hh : 0 < h) :
      ((Tail.ofFrame ⟨w, h, adjustments⟩).side, (Tail.ofFrame ⟨w, h, adjustments⟩).past) =
        facing (60000 * h) (50000 * w) := by
    have h := tail_facing (f := ⟨w, h, adjustments⟩) hw hh
    rwa [(hoffsets w _).1, (hoffsets w _).2] at h
  refine ⟨by norm_num [facing], (hplace 200 100 (by norm_num) (by norm_num)).trans ?_,
    (hplace 100 100 (by norm_num) (by norm_num)).trans ?_⟩ <;> norm_num [facing]

/-- The wedge faces the tip whatever the adjustments, if the frame is a square and only then. -/
theorem wedge_always_faces_tip_iff {w h : ℝ} (hw : 0 < w) (hh : 0 < h) :
    (∀ adjustments : Adjustments ℝ,
      let f : Frame ℝ := ⟨w, h, adjustments⟩
      let t := Tail.ofFrame f
      (t.side, t.past) = facing (f.adjustment "adj1" (-20833)) (f.adjustment "adj2" 62500)) ↔
      w = h := by
  constructor
  · intro hall
    have hbad := hall ⟨[("adj1", w + h), ("adj2", 2 * h)]⟩
    simp only [tail_facing (f := ⟨w, h, _⟩) hw hh] at hbad
    rw [facing_scaled_iff hh hw] at hbad
    have hadj1 : (⟨w, h, ⟨[("adj1", w + h), ("adj2", 2 * h)]⟩⟩ : Frame ℝ).adjustment "adj1"
        (-20833) = w + h := by
      simp [Frame.adjustment, Adjustments.getD, Adjustments.get?, List.lookup]
    have hadj2 : (⟨w, h, ⟨[("adj1", w + h), ("adj2", 2 * h)]⟩⟩ : Frame ℝ).adjustment "adj2"
        62500 = 2 * h := by
      simp [Frame.adjustment, Adjustments.getD, Adjustments.get?, List.lookup]
    rw [hadj1, hadj2, abs_of_pos (by positivity), abs_of_pos (by positivity)] at hbad
    have hless : 2 * h * w < (w + h) * h ↔ w < h := by
      constructor <;> intro h' <;> nlinarith
    have hmore : 2 * h < w + h ↔ h < w := by constructor <;> intro h' <;> linarith
    rw [hless, hmore] at hbad
    rcases lt_trichotomy w h with h' | h' | h'
    · exact absurd (hbad.1 h') h'.not_gt
    · exact h'
    · exact absurd (hbad.2 h') h'.not_gt
  · rintro rfl adjustments f t
    rw [tail_facing (f := f) hw hh, facing_scaled_iff hh hw]
    exact mul_lt_mul_iff_left₀ hw

end
end ShapeOutline
