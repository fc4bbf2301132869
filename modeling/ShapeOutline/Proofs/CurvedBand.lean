import Mathlib
import ShapeOutline.LayeredPreset
import ShapeOutline.Proofs.ArrowHead
import ShapeOutline.Proofs.Curls
import ShapeOutline.Proofs.EllipseArcs
import ShapeOutline.Proofs.Mirror

/-! The band of a curved arrow. Its two half ellipses have one centre, on the line where
the head begins, and the thickness of the band lies between their ends on both sides of
it. No bound that is put on a guide is reached but the one on the inner width. -/

namespace ShapeOutline
noncomputable section

open Shape (Facing)

namespace Layered

/-- The band is no thicker than the head is wide, and the head takes half of the extent across the
arrow at most. -/
structure CurveGuides.Fits (g : CurveGuides ℝ) (w h : ℝ) : Prop where
  thickness_nonneg : 0 ≤ g.thickness
  thickness_le : g.thickness ≤ g.headWidth
  headWidth_le : g.headWidth ≤ h / 2
  headStart_nonneg : 0 ≤ g.headStart
  headStart_le : g.headStart ≤ w
  tip_eq : g.tip = h - g.headWidth / 2
  center_eq : g.innerCenter = g.thickness + g.inner.y
  rise_eq : 2 * g.innerCenter = g.tip + g.thickness / 2
  outer_eq : g.outer = ⟨g.headStart, g.innerCenter⟩
  inner_eq : g.inner = ⟨max (g.headStart - g.thickness) 0, g.innerCenter - g.thickness⟩

theorem CurveGuides.ofFrame_fits {f : Frame ℝ} (hf : f.Sized) {w h : ℝ} (hw : 0 ≤ w) (hh : 0 ≤ h) :
    (CurveGuides.ofFrame f w h).Fits w h := by
  have hhalf : 0 ≤ 50000 * h := by positivity
  have hlong : 0 ≤ 100000 * w := by positivity
  set a2 := f.pinned "adj2" 50000 0 (divOrZero (50000 * h) f.ss) with ha2
  set a1 := f.pinned "adj1" 25000 0 a2 with ha1
  set a3 := f.pinned "adj3" 25000 0 (divOrZero (100000 * w) f.ss) with ha3
  obtain ⟨h2, h2'⟩ : 0 ≤ a2 ∧ a2 ≤ divOrZero (50000 * h) f.ss :=
    f.pinned_mem "adj2" 50000 (Frame.divOrZero_nonneg hhalf hf.ss_nonneg)
  obtain ⟨h1, h1'⟩ : 0 ≤ a1 ∧ a1 ≤ a2 := f.pinned_mem "adj1" 25000 h2
  obtain ⟨h3, h3'⟩ : 0 ≤ a3 ∧ a3 ≤ divOrZero (100000 * w) f.ss :=
    f.pinned_mem "adj3" 25000 (Frame.divOrZero_nonneg hlong hf.ss_nonneg)
  have hthick := hf.shortPart_nonneg h1
  have hthick' := hf.shortPart_le h1'
  have hhead := (hf.shortPart_le h2').trans (Frame.shortPart_divOrZero_le hhalf)
  have hlength := hf.shortPart_nonneg h3
  have hlength' := (hf.shortPart_le h3').trans (Frame.shortPart_divOrZero_le hlong)
  simp only [Frame.shortPart_real] at hthick hthick' hhead hlength hlength'
  set th := f.ss * a1 / 100000 with hth
  set aw := f.ss * a2 / 100000 with haw
  set ah := f.ss * a3 / 100000 with hah
  have hstart : max (w - ah) 0 = w - ah := max_eq_left (by linarith)
  have hrise : max ((h - aw / 2 - th / 2 - th) / 2) 0 = (h - aw / 2 - th / 2 - th) / 2 :=
    max_eq_left (by linarith)
  have hpin : pin th (th + (h - aw / 2 - th / 2 - th) / 2) h =
      th + (h - aw / 2 - th / 2 - th) / 2 := pin_eq_self (by linarith) (by linarith)
  simp only [CurveGuides.ofFrame, Scalar.max_real, Scalar.zero_real, ← ha2, ← ha1, ← ha3, ← hth,
    ← haw, ← hah, hstart, hrise, hpin]
  refine ⟨hthick, hthick', by simp only; linarith, by simp only; linarith, by simp only; linarith,
    rfl, rfl, by simp only; ring, ?_, ?_⟩
  · ext <;> simp only; ring
  · ext <;> simp only; ring

namespace CurveGuides.Fits

variable {g : CurveGuides ℝ} {w h : ℝ} (hg : g.Fits w h)

include hg

/-- The heights along the line where the head begins. -/
theorem heights_le :
    0 ≤ h - g.headWidth ∧ h - g.headWidth ≤ g.tip - g.thickness / 2 ∧
      g.tip - g.thickness / 2 ≤ g.tip + g.thickness / 2 ∧ g.tip + g.thickness / 2 ≤ h := by
  obtain ⟨hthick, hthick', hhead, -, -, htip, -⟩ := hg
  refine ⟨?_, ?_, ?_, ?_⟩ <;> linarith

/-- The lower end of the inner edge. -/
theorem edge_eq : g.innerCenter + g.inner.y = g.tip - g.thickness / 2 := by
  linarith [hg.rise_eq, hg.center_eq]

/-- The bound on the height of the centre is not reached. -/
theorem center_mem : g.thickness ≤ g.thickness + g.inner.y ∧ g.thickness + g.inner.y ≤ h := by
  obtain ⟨hthick, hthick', hhead, -, -, htip, hcenter, hrise, -⟩ := hg
  rw [← hcenter]
  constructor <;> linarith

theorem inner_of_positive (hr : g.inner.Positive) :
    g.inner = ⟨g.headStart - g.thickness, g.innerCenter - g.thickness⟩ ∧ g.outer.Positive := by
  have hx : 0 < max (g.headStart - g.thickness) 0 := by
    rw [hg.inner_eq] at hr
    exact hr.1
  have hy : 0 < g.innerCenter - g.thickness := by
    rw [hg.inner_eq] at hr
    exact hr.2
  have hwide : 0 < g.headStart - g.thickness := (lt_max_iff.1 hx).resolve_right (lt_irrefl 0)
  have hthick := hg.thickness_nonneg
  rw [hg.outer_eq]
  exact ⟨by rw [hg.inner_eq, max_eq_left hwide.le], by linarith, by linarith⟩

/-- The half ellipses, each from where its first angle is seen about the centre. -/
theorem outer_pen (hr : g.outer.Positive) :
    (⟨g.headStart, 0⟩ : Point ℝ) = ⟨g.headStart, g.innerCenter⟩ + spoke g.outer 270 := by
  rw [spoke_threeQuarters hr, hg.outer_eq]
  ext <;> simp

omit hg in
theorem inner_pen (hr : g.inner.Positive) :
    (⟨g.headStart, g.innerCenter + g.inner.y⟩ : Point ℝ) =
      ⟨g.headStart, g.innerCenter⟩ + spoke g.inner 90 := by
  rw [spoke_ninety hr]
  ext <;> simp

theorem back_pen (hr : g.inner.Positive) :
    (⟨g.thickness, g.innerCenter⟩ : Point ℝ) =
      ⟨g.headStart, g.innerCenter⟩ + spoke g.inner 180 := by
  rw [spoke_half hr, (hg.inner_of_positive hr).1]
  ext <;> simp

section Arcs

variable {start : Point ℝ} (rest : Sketch ℝ)

theorem outer_legs (hr : g.outer.Positive) :
    (Path.bare ⟨⟨g.headStart, 0⟩, start⟩).legs (.arc g.outer 270 (-180) :: rest) =
      ⟨⟨⟨g.headStart, 0⟩, start⟩, .arc g.outer 270 (-180),
          ⟨g.headStart, g.tip + g.thickness / 2⟩⟩ ::
        (Path.bare ⟨⟨g.headStart, g.tip + g.thickness / 2⟩, start⟩).legs rest := by
  refine Path.legs_half rest hr (by norm_num) ?_
  rw [hg.outer_pen hr, spoke_threeQuarters hr, hg.outer_eq, ← hg.rise_eq]
  ext
  · simp
  · simp
    ring

theorem inner_legs (hr : g.inner.Positive) :
    (Path.bare ⟨⟨g.headStart, g.innerCenter + g.inner.y⟩, start⟩).legs
        (.arc g.inner 90 180 :: rest) =
      ⟨⟨⟨g.headStart, g.tip - g.thickness / 2⟩, start⟩, .arc g.inner 90 180,
          ⟨g.headStart, g.thickness⟩⟩ ::
        (Path.bare ⟨⟨g.headStart, g.thickness⟩, start⟩).legs rest := by
  rw [← hg.edge_eq]
  refine Path.legs_half rest hr (by norm_num) ?_
  rw [spoke_ninety hr]
  ext
  · simp
  · simp
    linarith [hg.center_eq]

/-- A quarter of the outer ellipse, to the left side. -/
theorem quarter_legs (hr : g.outer.Positive) :
    (Path.bare ⟨⟨g.headStart, 0⟩, start⟩).legs (.arc g.outer 270 (-90) :: rest) =
      ⟨⟨⟨g.headStart, 0⟩, start⟩, .arc g.outer 270 (-90), ⟨0, g.innerCenter⟩⟩ ::
        (Path.bare ⟨⟨0, g.innerCenter⟩, start⟩).legs rest := by
  refine Path.legs_arc rest hr (by norm_num) (by norm_num) ?_
  rw [show (270 : ℝ) + -90 = 180 by norm_num, spoke_threeQuarters hr, spoke_half hr, hg.outer_eq]
  ext <;> simp

theorem back_legs (hr : g.inner.Positive) :
    (Path.bare ⟨⟨g.thickness, g.innerCenter⟩, start⟩).legs (.arc g.inner 180 90 :: rest) =
      ⟨⟨⟨g.thickness, g.innerCenter⟩, start⟩, .arc g.inner 180 90, ⟨g.headStart, g.thickness⟩⟩ ::
        (Path.bare ⟨⟨g.headStart, g.thickness⟩, start⟩).legs rest := by
  have hinner := (hg.inner_of_positive hr).1
  rw [hinner] at hr ⊢
  rw [Path.legs_left_top rest hr]
  simp

end Arcs

theorem outer_mem (hr : g.outer.Positive) :
    (⟨⟨⟨g.headStart, 0⟩, ⟨g.headStart, 0⟩⟩, .arc g.outer 270 (-180),
      ⟨g.headStart, g.tip + g.thickness / 2⟩⟩ : Leg) ∈ Path.empty.legs (g.band w h) := by
  simp only [CurveGuides.band, Scalar.zero_real, Path.empty_eq, Path.legs_move,
    hg.outer_legs _ hr]
  exact .tail _ (.head _)

theorem inner_mem (hr : g.inner.Positive) :
    (⟨⟨⟨g.headStart, g.tip - g.thickness / 2⟩, ⟨g.headStart, 0⟩⟩, .arc g.inner 90 180,
      ⟨g.headStart, g.thickness⟩⟩ : Leg) ∈ Path.empty.legs (g.band w h) := by
  simp only [CurveGuides.band, Scalar.zero_real, Path.empty_eq, Path.legs_move, Path.legs_line,
    hg.outer_legs _ (hg.inner_of_positive hr).2, hg.inner_legs _ hr]
  exact .tail _ (.tail _ (.tail _ (.tail _ (.tail _ (.tail _ (.head _))))))

theorem back_mem (hr : g.inner.Positive) :
    (⟨⟨⟨g.thickness, g.innerCenter⟩, ⟨g.headStart, 0⟩⟩, .arc g.inner 180 90,
      ⟨g.headStart, g.thickness⟩⟩ : Leg) ∈ Path.empty.legs g.back := by
  simp only [CurveGuides.back, Scalar.zero_real, Path.empty_eq, Path.legs_move, Path.legs_line,
    hg.quarter_legs _ (hg.inner_of_positive hr).2, hg.back_legs _ hr]
  exact .tail _ (.tail _ (.tail _ (.head _)))

theorem legs_about :
    ∀ l ∈ Path.empty.legs (g.band w h) ++ Path.empty.legs g.back,
      l.About ⟨g.headStart, g.innerCenter⟩ := by
  simp only [CurveGuides.band, CurveGuides.back, Scalar.zero_real, Path.empty_eq, Path.legs_cons,
    Path.legs_nil, List.cons_append, List.nil_append, List.forall_mem_cons]
  refine ⟨Leg.about_move, Leg.about_arc hg.outer_pen, Leg.about_of_straight trivial,
    Leg.about_of_straight trivial, Leg.about_of_straight trivial, Leg.about_of_straight trivial,
    Leg.about_arc inner_pen, Leg.about_of_straight trivial, Leg.about_move,
    Leg.about_arc hg.outer_pen, Leg.about_of_straight trivial, Leg.about_arc hg.back_pen,
    Leg.about_of_straight trivial, by simp⟩

/-- An arc without an extent leaves the pen on the same line. -/
theorem outer_stop : ∃ e, (0 ≤ e ∧ e ≤ h) ∧ ∀ start rest,
    (Path.bare ⟨⟨g.headStart, 0⟩, start⟩).legs (.arc g.outer 270 (-180) :: rest) =
      ⟨⟨⟨g.headStart, 0⟩, start⟩, .arc g.outer 270 (-180), ⟨g.headStart, e⟩⟩ ::
        (Path.bare ⟨⟨g.headStart, e⟩, start⟩).legs rest := by
  obtain ⟨hcorner, hlower, hthin, hupper⟩ := hg.heights_le
  by_cases hr : g.outer.Positive
  · exact ⟨_, ⟨by linarith, hupper⟩, fun _ rest => hg.outer_legs rest hr⟩
  · exact ⟨0, ⟨le_rfl, by linarith⟩, fun _ rest => Path.legs_flat rest hr⟩

theorem inner_stop : ∃ e, (0 ≤ e ∧ e ≤ h) ∧ ∀ start rest,
    (Path.bare ⟨⟨g.headStart, g.innerCenter + g.inner.y⟩, start⟩).legs
        (.arc g.inner 90 180 :: rest) =
      ⟨⟨⟨g.headStart, g.innerCenter + g.inner.y⟩, start⟩, .arc g.inner 90 180, ⟨g.headStart, e⟩⟩ ::
        (Path.bare ⟨⟨g.headStart, e⟩, start⟩).legs rest := by
  obtain ⟨hcorner, hlower, hthin, hupper⟩ := hg.heights_le
  have hthick := hg.thickness_nonneg
  obtain ⟨hcenter, hcenter'⟩ := hg.center_mem
  by_cases hr : g.inner.Positive
  · refine ⟨_, ⟨hthick, by linarith⟩, fun _ rest => ?_⟩
    rw [hg.inner_legs rest hr, hg.edge_eq]
  · refine ⟨_, ⟨?_, ?_⟩, fun _ rest => Path.legs_flat rest hr⟩
    · linarith [hg.edge_eq]
    · linarith [hg.edge_eq]

theorem band_covers {f : Frame ℝ} (hw : f.w = w) (hh : f.h = h) :
    ∀ l ∈ Path.empty.legs (g.band w h), f.Covers l.target := by
  obtain ⟨hcorner, hlower, hthin, hupper⟩ := hg.heights_le
  obtain ⟨e, ⟨he, he'⟩, houter⟩ := hg.outer_stop
  obtain ⟨e', ⟨hi, hi'⟩, hinner⟩ := hg.inner_stop
  have hstart := hg.headStart_nonneg
  have hstart' := hg.headStart_le
  have hthick := hg.thickness_nonneg
  have hedge := hg.edge_eq
  simp only [CurveGuides.band, Scalar.zero_real, Path.empty_eq, Path.legs_move, Path.legs_line,
    houter, hinner, Path.legs_close, Path.legs_nil, List.forall_mem_cons, List.not_mem_nil,
    IsEmpty.forall_iff, implies_true, and_true, Frame.Covers, hw, hh]
  constructorm* _ ∧ _ <;> linarith

end CurveGuides.Fits

/-- The band has its thickness at both ends: from 0 on at the one, and on both sides of the middle
of the head at the other. Its arcs and those of the shadow have one centre, where the head
begins. -/
structure CurveGuides.Banded (g : CurveGuides ℝ) (w h : ℝ) : Prop where
  heights : 0 ≤ h - g.headWidth ∧ h - g.headWidth ≤ g.tip - g.thickness / 2 ∧
    g.tip - g.thickness / 2 ≤ g.tip + g.thickness / 2 ∧ g.tip + g.thickness / 2 ≤ h
  center_eq : g.innerCenter = g.thickness + g.inner.y
  center_mem : g.thickness ≤ g.thickness + g.inner.y ∧ g.thickness + g.inner.y ≤ h
  outer : g.outer.Positive →
    (⟨⟨⟨g.headStart, 0⟩, ⟨g.headStart, 0⟩⟩, .arc g.outer 270 (-180),
      ⟨g.headStart, g.tip + g.thickness / 2⟩⟩ : Leg) ∈ Path.empty.legs (g.band w h)
  inner : g.inner.Positive →
    (⟨⟨⟨g.headStart, g.tip - g.thickness / 2⟩, ⟨g.headStart, 0⟩⟩, .arc g.inner 90 180,
      ⟨g.headStart, g.thickness⟩⟩ : Leg) ∈ Path.empty.legs (g.band w h)
  shadow : g.inner.Positive →
    (⟨⟨⟨g.thickness, g.innerCenter⟩, ⟨g.headStart, 0⟩⟩, .arc g.inner 180 90,
      ⟨g.headStart, g.thickness⟩⟩ : Leg) ∈ Path.empty.legs g.back
  centered : ∀ l ∈ Path.empty.legs (g.band w h) ++ Path.empty.legs g.back,
    l.About ⟨g.headStart, g.innerCenter⟩

theorem CurveGuides.Fits.banded {g : CurveGuides ℝ} {w h : ℝ} (hg : g.Fits w h) :
    g.Banded w h where
  heights := hg.heights_le
  center_eq := hg.center_eq
  center_mem := hg.center_mem
  outer := hg.outer_mem
  inner := hg.inner_mem
  shadow := hg.back_mem
  centered := hg.legs_about

end Layered

theorem Shape.Facing.lying_sized {f : Frame ℝ} (hf : f.Sized) (d : Facing) : (d.lying f).Sized :=
  ⟨hf.ss_nonneg.trans d.ss_le_along, hf.ss_nonneg.trans d.ss_le_across⟩

/-- The pen of an arrow keeps to the frame if it does in the frame lying on its side. -/
theorem Sketch.reflect_pen_covers {f : Frame ℝ} (hf : f.Sized) {d : Facing} {a : Point ℝ}
    {s : Sketch ℝ} (h : ∀ n, (d.lying f).Covers (Sketch.path (List.take n (.move a :: s))).pen)
    (n : ℕ) :
    f.Covers (Sketch.path ((Sketch.reflect (d.reflection f) (.move a :: s)).take n)).pen := by
  cases n with
  | zero =>
    rw [List.take_zero, Sketch.path, Path.empty_eq]
    exact ⟨⟨le_rfl, hf.w_nonneg⟩, le_rfl, hf.h_nonneg⟩
  | succ n =>
    rw [((drawsMirrored_reflect (d.reflection f) a s).pen n).pen]
    exact (h (n + 1)).point

/-- The curved arrows, each with the direction of its head. -/
def LayeredPreset.curvedArrows : List (LayeredPreset × Facing) :=
  [(.curvedRightArrow, .right), (.curvedLeftArrow, .left), (.curvedDownArrow, .down),
    (.curvedUpArrow, .up)]

/-- In every frame and with any adjustments a curved arrow is the reflection of a band of constant
thickness at its ends, with a shadow, and the pen of the band never leaves the frame. -/
theorem curvedArrows_banded {f : Frame ℝ} (hf : f.Sized) {p : LayeredPreset} {d : Facing}
    (hp : (p, d) ∈ LayeredPreset.curvedArrows) :
    let g := Layered.CurveGuides.ofFrame f (d.along f) (d.across f)
    let band := g.band (d.along f) (d.across f)
    p.layers f = [.fill (band.reflect (d.reflection f)) .normal,
      .shade (g.back.reflect (d.reflection f)) .darkenLess,
      .stroke (band.reflect (d.reflection f))] ∧
    g.Banded (d.along f) (d.across f) ∧
    ∀ n, (d.lying f).Covers (Sketch.path (band.take n)).pen ∧
      f.Covers (Sketch.path ((band.reflect (d.reflection f)).take n)).pen := by
  intro g band
  have hlying := d.lying_sized hf
  have hg : g.Fits (d.along f) (d.across f) :=
    Layered.CurveGuides.ofFrame_fits hf hlying.w_nonneg hlying.h_nonneg
  have hpen := Path.pen_covers hlying (hg.band_covers rfl rfl)
  refine ⟨?_, hg.banded, fun n => ⟨hpen n, Sketch.reflect_pen_covers hf hpen n⟩⟩
  simp only [LayeredPreset.curvedArrows, List.mem_cons, Prod.mk.injEq, List.not_mem_nil,
    or_false] at hp
  rcases hp with ⟨rfl, rfl⟩ | ⟨rfl, rfl⟩ | ⟨rfl, rfl⟩ | ⟨rfl, rfl⟩ <;> rfl

/-- An arrow up the frame, a quarter of its width thick. -/
theorem wideCurvedArrow_banded :
    let f : Frame ℝ := ⟨200, 100, ⟨[]⟩⟩
    let g : Layered.CurveGuides ℝ := ⟨25, 50, 75, 175, ⟨75, 375 / 4⟩, ⟨50, 275 / 4⟩, 375 / 4⟩
    let band := (g.band 100 200).reflect (Facing.up.reflection f)
    f.Sized ∧ (LayeredPreset.curvedUpArrow, Facing.up) ∈ LayeredPreset.curvedArrows ∧
      LayeredPreset.curvedUpArrow.layers f = [.fill band .normal,
        .shade (g.back.reflect (Facing.up.reflection f)) .darkenLess, .stroke band] ∧
      g.Banded 100 200 ∧ g.outer.Positive ∧ g.inner.Positive ∧
      ∀ n, f.Covers (Sketch.path (band.take n)).pen := by
  intro f g band
  have hf : f.Sized := ⟨by norm_num [f], by norm_num [f]⟩
  have hp : (LayeredPreset.curvedUpArrow, Facing.up) ∈ LayeredPreset.curvedArrows := by
    simp [LayeredPreset.curvedArrows]
  have hss : f.ss = 100 := by norm_num [Frame.ss, Scalar.min_real, f]
  have ha2 : f.pinned "adj2" 50000 0 100000 = 50000 :=
    pin_eq_self (show (0 : ℝ) ≤ 50000 by norm_num) (show (50000 : ℝ) ≤ 100000 by norm_num)
  have ha1 : f.pinned "adj1" 25000 0 50000 = 25000 :=
    pin_eq_self (show (0 : ℝ) ≤ 25000 by norm_num) (show (25000 : ℝ) ≤ 50000 by norm_num)
  have ha3 : f.pinned "adj3" 25000 0 100000 = 25000 :=
    pin_eq_self (show (0 : ℝ) ≤ 25000 by norm_num) (show (25000 : ℝ) ≤ 100000 by norm_num)
  have hmost : divOrZero (50000 * 200) (100 : ℝ) = 100000 ∧
      divOrZero (100000 * 100) (100 : ℝ) = 100000 := by
    norm_num [divOrZero_real]
  have hrise : pin (25 : ℝ) (375 / 4) 200 = 375 / 4 :=
    pin_eq_self (by norm_num) (by norm_num)
  have hg : Layered.CurveGuides.ofFrame f 100 200 = g := by
    simp only [Layered.CurveGuides.ofFrame, Scalar.zero_real, Scalar.max_real, hss, hmost.1,
      hmost.2, ha2, ha1, ha3]
    norm_num [hrise, g]
  obtain ⟨hlayers, hbanded, hpen⟩ := curvedArrows_banded hf hp
  have hguides : Layered.CurveGuides.ofFrame f (Facing.up.along f) (Facing.up.across f) = g := hg
  rw [hguides] at hlayers hbanded hpen
  exact ⟨hf, hp, hlayers, hbanded, ⟨by norm_num [g], by norm_num [g]⟩,
    ⟨by norm_num [g], by norm_num [g]⟩, fun n => (hpen n).2⟩

end
end ShapeOutline
