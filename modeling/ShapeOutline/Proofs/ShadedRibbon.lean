import ShapeOutline.Proofs.Shading

/-! The folds of an arched ribbon. Measured from its arch the ribbon is a straight
banner, whose horizontal edges are exact parabolas and whose vertical ones are lines;
its folds lie between the panel and the tails. -/

namespace ShapeOutline
noncomputable section

open Layered

namespace ArchHeight

variable (b : Arch ℝ)

/-- How far below the arch a point lies. -/
def height (p : Plane) : ℝ := p.2 - b.sag p.1

/-- The line of a height between two widths. -/
def along (x x' y : ℝ) : Set Plane := {p | p.1 ∈ Set.uIcc x x' ∧ height b p = y}

/-- The line of a width between two heights. -/
def across (x y y' : ℝ) : Set Plane := {p | p.1 = x ∧ height b p ∈ Set.uIcc y y'}

theorem continuous_sag : Continuous b.sag := by
  unfold Arch.sag
  split_ifs <;> fun_prop

theorem continuous_height : Continuous (height b) :=
  continuous_snd.sub ((continuous_sag b).comp continuous_fst)

variable {b} (hb : 0 < b.width)

include hb

theorem sag_eq (x : ℝ) : b.sag x = 4 * b.depth * (x / b.width) * (1 - x / b.width) := by
  simp only [Arch.sag, Scalar.zero_real, Scalar.one_real, if_neg hb.not_ge]

theorem sag_zero : b.sag 0 = 0 := by simp [sag_eq hb]

theorem sag_symm (x : ℝ) : b.sag (b.width - x) = b.sag x := by
  rw [sag_eq hb, sag_eq hb, sub_div, div_self hb.ne']
  ring

theorem slope_eq (x : ℝ) : b.slope x = 4 * b.depth * (1 - 2 * x / b.width) / b.width := by
  simp only [Arch.slope, Scalar.zero_real, Scalar.one_real, if_pos hb]

/-- A curve of the arch is at each of its points exactly the arch. -/
theorem curve_point (x x' y t : ℝ) :
    quadPoint (b.point x y).place
      (⟨(x + x') / 2, y + b.sag x + b.slope x * ((x + x') / 2 - x)⟩ : Point ℝ).place
      (b.point x' y).place t = (b.point (x + t * (x' - x)) y).place := by
  have hw := hb.ne'
  simp only [quadPoint, Arch.point, Point.place_mk, sag_eq hb, slope_eq hb]
  ext
  · simp only [Prod.smul_mk, Prod.mk_add_mk, smul_eq_mul]
    ring
  · simp only [Prod.smul_mk, Prod.mk_add_mk, smul_eq_mul]
    field_simp
    ring

/-- A horizontal edge becomes a parabola. -/
theorem curve_eq (x x' y : ℝ) :
    quadPoint (b.point x y).place
      (⟨(x + x') / 2, y + b.sag x + b.slope x * ((x + x') / 2 - x)⟩ : Point ℝ).place
      (b.point x' y).place '' Set.Icc 0 1 = along b x x' y := by
  simp only [curve_point hb]
  ext p
  constructor
  · rintro ⟨t, ht, rfl⟩
    refine ⟨?_, add_sub_cancel_right ..⟩
    rw [← segment_eq_uIcc, segment_eq_image']
    exact ⟨t, ht, rfl⟩
  · rintro ⟨hx, hy⟩
    rw [← segment_eq_uIcc, segment_eq_image'] at hx
    obtain ⟨t, ht, hx⟩ := hx
    have hx : x + t * (x' - x) = p.1 := hx
    refine ⟨t, ht, ?_⟩
    ext
    · exact hx
    · rw [height] at hy
      simp only [Arch.point, Point.place_mk, hx]
      linarith

omit hb in
theorem line_eq (x y y' : ℝ) :
    segment ℝ (b.point x y).place (b.point x y').place = across b x y y' := by
  change segment ℝ (x, y + b.sag x) (x, y' + b.sag x) = _
  rw [← Prod.image_mk_segment_right, segment_eq_uIcc, ← Set.image_add_const_uIcc]
  ext p
  constructor
  · rintro ⟨_, ⟨v, hv, rfl⟩, rfl⟩
    exact ⟨rfl, by simpa [height] using hv⟩
  · rintro ⟨rfl, hv⟩
    exact ⟨p.2, ⟨height b p, hv, sub_add_cancel ..⟩, rfl⟩

end ArchHeight

/-- The guides of an arched banner: its panel between `x2` and `x5`, notches at the ends of the
tails, and folds that reach in to `x3` and `x4`. -/
structure Spans (g : ArchGuides ℝ) : Prop where
  width_pos : 0 < g.arch.width
  notch_pos : 0 < g.notch
  notch_le_x2 : g.notch ≤ g.x2
  x2_le_x3 : g.x2 ≤ g.x3
  x3_le_x4 : g.x3 ≤ g.x4
  x4_le_x5 : g.x4 ≤ g.x5
  x5_le : g.x5 ≤ g.arch.width - g.notch
  y1_nonneg : 0 ≤ g.y1
  y1_le_yt : g.y1 ≤ g.yt
  yt_pos : 0 < g.yt
  s_eq : g.s = g.yt + g.y1

theorem ofFrame_spans {f : Frame ℝ} (hw : 0 < f.w) (hh : 0 < f.h) :
    Spans (ArchGuides.ofFrame f) := by
  set a1 := f.pinned "adj1" 25000 0 50000 with h1
  set a2 := f.pinned "adj2" 50000 25000 75000 with h2
  set a3 := f.pinned "adj3" 12500 0 50000 with h3
  obtain ⟨ha1, ha1'⟩ : 0 ≤ a1 ∧ a1 ≤ 50000 := pin_mem _ (by norm_num)
  obtain ⟨ha2, ha2'⟩ : 25000 ≤ a2 ∧ a2 ≤ 75000 := pin_mem _ (by norm_num)
  obtain ⟨ha3, ha3'⟩ : 0 ≤ a3 ∧ a3 ≤ 50000 := pin_mem _ (by norm_num)
  have hguides : ArchGuides.ofFrame f =
      { arch := ⟨f.w, f.h * a3 / 100000⟩, s := f.h - f.h * a3 / 100000, notch := f.w / 8
        x2 := f.w / 2 - f.w * a2 / 200000, x3 := f.w / 2 - f.w * a2 / 200000 + f.w / 8
        x4 := f.w / 2 + f.w * a2 / 200000 - f.w / 8, x5 := f.w / 2 + f.w * a2 / 200000
        y1 := (f.h - f.h * a3 / 100000) * a1 / 100000
        yt := f.h - f.h * a3 / 100000 - (f.h - f.h * a3 / 100000) * a1 / 100000
        ym := (f.h - f.h * a3 / 100000 - (f.h - f.h * a3 / 100000) * a1 / 100000) / 2 } := by
    simp only [ArchGuides.ofFrame, Scalar.zero_real, ← h1, ← h2, ← h3]
    rfl
  have hs : 0 < f.h - f.h * a3 / 100000 := by nlinarith
  have hy1 : 0 ≤ (f.h - f.h * a3 / 100000) * a1 / 100000 := by positivity
  have hwidth := mul_le_mul_of_nonneg_left ha2 hw.le
  have hwidth' := mul_le_mul_of_nonneg_left ha2' hw.le
  have hheight := mul_le_mul_of_nonneg_left ha1' hs.le
  rw [hguides]
  constructor <;> simp only <;> linarith

namespace Spans

open ArchHeight

variable {g : ArchGuides ℝ} (hg : Spans g)

/-- Where the corner of a notch is. -/
def corner (g : ArchGuides ℝ) : ℝ := g.ym + g.arch.sag g.notch

include hg

theorem body_trace :
    (g.body g.arch.width).trace =
      along g.arch 0 g.x3 0 ∪ (across g.arch g.x3 0 g.y1 ∪ (along g.arch g.x3 g.x4 g.y1 ∪
        (across g.arch g.x4 g.y1 0 ∪ (along g.arch g.x4 g.arch.width 0 ∪
          (segment ℝ (g.arch.width, 0) (g.arch.width - g.notch, corner g) ∪
            (segment ℝ (g.arch.width - g.notch, corner g) (g.arch.width, g.yt) ∪
              (along g.arch g.arch.width g.x5 g.yt ∪ (across g.arch g.x5 g.yt g.s ∪
                (along g.arch g.x5 g.x2 g.s ∪ (across g.arch g.x2 g.s g.yt ∪
                  (along g.arch g.x2 0 g.yt ∪ (segment ℝ (0, g.yt) (g.notch, corner g) ∪
                    (segment ℝ (g.notch, corner g) (0, 0) ∪ across g.arch 0 0 0))))))))))))) := by
  have hw := hg.width_pos
  have hleft (y : ℝ) : (g.arch.point 0 y).place = (0, y) := by simp [Arch.point, sag_zero hw]
  have hright (y : ℝ) : (g.arch.point g.arch.width y).place = (g.arch.width, y) := by
    have h := sag_symm hw 0
    rw [sub_zero, sag_zero hw] at h
    simp [Arch.point, h]
  have hnotch : (g.arch.point g.notch g.ym).place = (g.notch, corner g) := rfl
  have hnotch' : (g.arch.point (g.arch.width - g.notch) g.ym).place =
      (g.arch.width - g.notch, corner g) := by
    simp [Arch.point, sag_symm hw, corner]
  simp only [ArchGuides.body, Arch.start, Arch.line, Arch.curve, Sketch.trace_move,
    Trail.trace_line, Trail.trace_quad, Trail.trace_close, Trail.trace_nil, Scalar.zero_real]
  simp only [curve_eq hw, line_eq]
  simp only [hleft, hright, hnotch, hnotch']

theorem fold_trace (xa xb : ℝ) :
    (g.fold xa xb).trace =
      along g.arch xa xb 0 ∪ (across g.arch xb 0 g.y1 ∪ (along g.arch xb xa g.y1 ∪
        (across g.arch xa g.y1 0 ∪ across g.arch xa 0 0))) := by
  simp only [ArchGuides.fold, Arch.start, Arch.line, Arch.curve, Sketch.trace_move,
    Trail.trace_line, Trail.trace_quad, Trail.trace_close, Trail.trace_nil, Scalar.zero_real]
  rw [curve_eq hg.width_pos, curve_eq hg.width_pos, line_eq, line_eq, line_eq]

end Spans

/-- The inside of the banner, with its boundary where `R` is `≤` and without it where it is `<`. -/
@[mk_iff]
structure InBanner (R : ℝ → ℝ → Prop) (g : ArchGuides ℝ) (p : Plane) : Prop where
  top : R 0 (ArchHeight.height g.arch p)
  bottom : R (ArchHeight.height g.arch p) g.s
  leftTail : R (ArchHeight.height g.arch p) g.yt ∨ R g.x2 p.1
  rightTail : R (ArchHeight.height g.arch p) g.yt ∨ R p.1 g.x5
  dip : R g.y1 (ArchHeight.height g.arch p) ∨ R p.1 g.x3 ∨ R g.x4 p.1
  left : R 0 p.1
  right : R p.1 g.arch.width
  leftNotch : R (p.2 * g.notch) (p.1 * Spans.corner g) ∨
    R (g.yt * g.notch) (p.2 * g.notch + p.1 * (g.yt - Spans.corner g))
  rightNotch : R (p.2 * g.notch) ((g.arch.width - p.1) * Spans.corner g) ∨
    R (g.yt * g.notch) (p.2 * g.notch + (g.arch.width - p.1) * (g.yt - Spans.corner g))

theorem inBanner_isClosed (g : ArchGuides ℝ) : IsClosed {p | InBanner (· ≤ ·) g p} := by
  have hheight := ArchHeight.continuous_height g.arch
  simp only [inBanner_iff, Set.ofPred_and, Set.ofPred_or]
  refine .inter ?_ (.inter ?_ (.inter (.union ?_ ?_) (.inter (.union ?_ ?_)
    (.inter (.union ?_ (.union ?_ ?_)) (.inter ?_ (.inter ?_ (.inter (.union ?_ ?_)
      (.union ?_ ?_))))))))
  all_goals refine isClosed_le ?_ ?_ <;> fun_prop

theorem inBanner_isOpen (g : ArchGuides ℝ) : IsOpen {p | InBanner (· < ·) g p} := by
  have hheight := ArchHeight.continuous_height g.arch
  simp only [inBanner_iff, Set.ofPred_and, Set.ofPred_or]
  refine .inter ?_ (.inter ?_ (.inter (.union ?_ ?_) (.inter (.union ?_ ?_)
    (.inter (.union ?_ (.union ?_ ?_)) (.inter ?_ (.inter ?_ (.inter (.union ?_ ?_)
      (.union ?_ ?_))))))))
  all_goals refine isOpen_lt ?_ ?_ <;> fun_prop

theorem InBanner.le {g : ArchGuides ℝ} {p : Plane} (hp : InBanner (· < ·) g p) :
    InBanner (· ≤ ·) g p where
  top := hp.top.le
  bottom := hp.bottom.le
  leftTail := hp.leftTail.imp le_of_lt le_of_lt
  rightTail := hp.rightTail.imp le_of_lt le_of_lt
  dip := hp.dip.imp le_of_lt (Or.imp le_of_lt le_of_lt)
  left := hp.left.le
  right := hp.right.le
  leftNotch := hp.leftNotch.imp le_of_lt le_of_lt
  rightNotch := hp.rightNotch.imp le_of_lt le_of_lt

section Notch

-- The notch is as deep as `n`, and its corner is as low as `c`.
variable {n c t x y : ℝ}

/-- Between its ends the notch is open. -/
theorem not_notch_of_between (hn : 0 < n) (hy : 0 < y) (hyt : y < t) :
    ¬(y * n ≤ 0 * c ∨ t * n ≤ y * n + 0 * (t - c)) := by
  have hpos := mul_pos hy hn
  have hlt := mul_lt_mul_of_pos_right hyt hn
  rintro (h | h) <;> linarith

/-- What is neither within the notch nor clear of it is on one of its two edges. -/
theorem notch_edge (ht : 0 < t) (h : y * n ≤ x * c ∨ t * n ≤ y * n + x * (t - c))
    (hc : x * c ≤ y * n ∧ y * n + x * (t - c) ≤ t * n) :
    x ≤ n ∧ (y * n = x * c ∨ t * n = y * n + x * (t - c)) := by
  constructor
  · have hx : x * t ≤ n * t := by linarith [hc.1, hc.2]
    exact le_of_mul_le_mul_right hx ht
  · exact h.imp (fun h => le_antisymm h hc.1) fun h => le_antisymm h hc.2

end Notch

namespace Spans

open ArchHeight

variable {g : ArchGuides ℝ} (hg : Spans g)

include hg

section Bounds

variable {p : Plane} (hp : InBanner (· ≤ ·) g p)

include hp

theorem top_lt (hleft : p ∉ along g.arch 0 g.x3 0) (hdip : p ∉ along g.arch g.x3 g.x4 g.y1)
    (hright : p ∉ along g.arch g.x4 g.arch.width 0) : 0 < height g.arch p := by
  refine hp.top.lt_of_ne fun h0 => ?_
  rcases hp.dip with h | h | h
  · rcases le_total p.1 g.x3 with hx | hx
    · exact hleft ⟨Set.mem_uIcc_of_le hp.left hx, h0.symm⟩
    rcases le_total p.1 g.x4 with hx' | hx'
    · exact hdip ⟨Set.mem_uIcc_of_le hx hx', by linarith [hg.y1_nonneg]⟩
    · exact hright ⟨Set.mem_uIcc_of_le hx' hp.right, h0.symm⟩
  · exact hleft ⟨Set.mem_uIcc_of_le hp.left h, h0.symm⟩
  · exact hright ⟨Set.mem_uIcc_of_le h hp.right, h0.symm⟩

theorem bottom_lt (hleft : p ∉ along g.arch g.x2 0 g.yt) (hpanel : p ∉ along g.arch g.x5 g.x2 g.s)
    (hright : p ∉ along g.arch g.arch.width g.x5 g.yt) : height g.arch p < g.s := by
  refine hp.bottom.lt_of_ne fun h0 => ?_
  have hs := hg.s_eq
  have hy1 := hg.y1_nonneg
  rcases lt_or_ge p.1 g.x2 with hx | hx
  · have hy := hp.leftTail.resolve_right hx.not_ge
    exact hleft ⟨Set.mem_uIcc_of_ge hp.left hx.le, by linarith⟩
  rcases lt_or_ge g.x5 p.1 with hx' | hx'
  · have hy := hp.rightTail.resolve_right hx'.not_ge
    exact hright ⟨Set.mem_uIcc_of_ge hx'.le hp.right, by linarith⟩
  · exact hpanel ⟨Set.mem_uIcc_of_ge hx hx', h0⟩

omit hg in
theorem leftTail_lt (htail : p ∉ along g.arch g.x2 0 g.yt)
    (hside : p ∉ across g.arch g.x2 g.s g.yt) : height g.arch p < g.yt ∨ g.x2 < p.1 := by
  by_contra! hc
  obtain ⟨hy, hx⟩ := hc
  rcases hp.leftTail with h | h
  · exact htail ⟨Set.mem_uIcc_of_ge hp.left hx, le_antisymm h hy⟩
  · exact hside ⟨le_antisymm hx h, Set.mem_uIcc_of_ge hy hp.bottom⟩

omit hg in
theorem rightTail_lt (htail : p ∉ along g.arch g.arch.width g.x5 g.yt)
    (hside : p ∉ across g.arch g.x5 g.yt g.s) : height g.arch p < g.yt ∨ p.1 < g.x5 := by
  by_contra! hc
  obtain ⟨hy, hx⟩ := hc
  rcases hp.rightTail with h | h
  · exact htail ⟨Set.mem_uIcc_of_ge hx hp.right, le_antisymm h hy⟩
  · exact hside ⟨le_antisymm h hx, Set.mem_uIcc_of_le hy hp.bottom⟩

omit hg in
theorem dip_lt (hdip : p ∉ along g.arch g.x3 g.x4 g.y1) (hleft : p ∉ across g.arch g.x3 0 g.y1)
    (hright : p ∉ across g.arch g.x4 g.y1 0) :
    g.y1 < height g.arch p ∨ p.1 < g.x3 ∨ g.x4 < p.1 := by
  by_contra! hc
  obtain ⟨hy, hx, hx'⟩ := hc
  rcases hp.dip with h | h | h
  · exact hdip ⟨Set.mem_uIcc_of_le hx hx', le_antisymm hy h⟩
  · exact hleft ⟨le_antisymm h hx, Set.mem_uIcc_of_le hp.top hy⟩
  · exact hright ⟨le_antisymm hx' h, Set.mem_uIcc_of_ge hp.top hy⟩

/-- At its end a tail is open between its upper and its lower corner. -/
theorem left_lt (hy : 0 < height g.arch p) (htail : height g.arch p < g.yt ∨ g.x2 < p.1) :
    0 < p.1 := by
  refine hp.left.lt_of_ne fun h0 => ?_
  have hheight : height g.arch p = p.2 := by
    rw [height, ← h0, sag_zero hg.width_pos, sub_zero]
  have hx2 := hg.notch_pos.trans_le hg.notch_le_x2
  rw [hheight] at hy htail
  have hcut := hp.leftNotch
  rw [← h0] at htail hcut
  exact not_notch_of_between hg.notch_pos hy (htail.resolve_right hx2.not_gt) hcut

theorem right_lt (hy : 0 < height g.arch p) (htail : height g.arch p < g.yt ∨ p.1 < g.x5) :
    p.1 < g.arch.width := by
  refine hp.right.lt_of_ne fun h0 => ?_
  have hheight : height g.arch p = p.2 := by
    have hsag := sag_symm hg.width_pos 0
    rw [sub_zero, sag_zero hg.width_pos] at hsag
    rw [height, h0, hsag, sub_zero]
  have hx5 : g.x5 ≤ g.arch.width := hg.x5_le.trans (sub_le_self _ hg.notch_pos.le)
  rw [hheight] at hy htail
  have hcut := hp.rightNotch
  rw [h0] at htail hcut
  rw [sub_self] at hcut
  exact not_notch_of_between hg.notch_pos hy (htail.resolve_right hx5.not_gt) hcut

theorem leftNotch_lt (hupper : p ∉ segment ℝ (g.notch, corner g) (0, 0))
    (hlower : p ∉ segment ℝ (0, g.yt) (g.notch, corner g)) :
    p.2 * g.notch < p.1 * corner g ∨
      g.yt * g.notch < p.2 * g.notch + p.1 * (g.yt - corner g) := by
  have hn := hg.notch_pos
  by_contra! hc
  obtain ⟨hx, hline⟩ := notch_edge hg.yt_pos hp.leftNotch hc
  rcases hline with h | h
  · rw [segment_symm] at hupper
    exact hupper (mem_segment_slanted hn hp.left hx (by linarith))
  · exact hlower (mem_segment_slanted hn hp.left hx (by linarith))

theorem rightNotch_lt (hupper : p ∉ segment ℝ (g.arch.width, 0) (g.arch.width - g.notch, corner g))
    (hlower : p ∉ segment ℝ (g.arch.width - g.notch, corner g) (g.arch.width, g.yt)) :
    p.2 * g.notch < (g.arch.width - p.1) * corner g ∨
      g.yt * g.notch < p.2 * g.notch + (g.arch.width - p.1) * (g.yt - corner g) := by
  have hn : g.arch.width - g.notch < g.arch.width := sub_lt_self _ hg.notch_pos
  by_contra! hc
  obtain ⟨hx, hline⟩ := notch_edge hg.yt_pos hp.rightNotch hc
  rcases hline with h | h
  · rw [segment_symm] at hupper
    exact hupper (mem_segment_slanted hn (by linarith) hp.right (by linarith))
  · exact hlower (mem_segment_slanted hn (by linarith) hp.right (by linarith))

theorem inBanner_lt (htrace : p ∉ (g.body g.arch.width).trace) : InBanner (· < ·) g p := by
  rw [hg.body_trace] at htrace
  simp only [Set.mem_union, not_or] at htrace
  obtain ⟨htl, hdl, hdip, hdr, htr, hnr1, hnr2, hbr, hpr, hpb, hpl, hbl, hnl2, hnl1, -⟩ := htrace
  have htop := hg.top_lt hp htl hdip htr
  have hleftTail := leftTail_lt hp hbl hpl
  have hrightTail := rightTail_lt hp hbr hpr
  exact {
    top := htop
    bottom := hg.bottom_lt hp hbl hpb hbr
    leftTail := hleftTail
    rightTail := hrightTail
    dip := dip_lt hp hdip hdl hdr
    left := hg.left_lt hp htop hleftTail
    right := hg.right_lt hp htop hrightTail
    leftNotch := hg.leftNotch_lt hp hnl1 hnl2
    rightNotch := hg.rightNotch_lt hp hnr1 hnr2 }

end Bounds

theorem inBanner_subset_enclosed :
    {p | InBanner (· ≤ ·) g p} ⊆ enclosed (g.body g.arch.width).trace := by
  refine subset_enclosed_of_mem_nhds ?_ (inBanner_isClosed g) fun p hp htrace => ?_
  · have hsag : Continuous g.arch.sag := continuous_sag g.arch
    have hplace : Continuous fun q : Plane => (q.1, q.2 + g.arch.sag q.1) := by fun_prop
    refine (((isCompact_Icc (a := 0) (b := g.arch.width)).prod
      (isCompact_Icc (a := 0) (b := g.s))).image hplace).isBounded.subset fun p hp => ?_
    exact ⟨(p.1, height g.arch p), ⟨⟨hp.left, hp.right⟩, hp.top, hp.bottom⟩,
      Prod.ext rfl (sub_add_cancel ..)⟩
  · exact Filter.mem_of_superset
      ((inBanner_isOpen g).mem_nhds (hg.inBanner_lt hp htrace)) fun _ => InBanner.le

/-- Beside the panel's top the banner reaches as far up as its tails. -/
theorem inBanner_of_fold {p : Plane}
    (hx : g.x2 ≤ p.1 ∧ p.1 ≤ g.x3 ∨ g.x4 ≤ p.1 ∧ p.1 ≤ g.x5)
    (hy : 0 ≤ height g.arch p ∧ height g.arch p ≤ g.y1) : InBanner (· ≤ ·) g p := by
  obtain ⟨-, hnotch, hnotch2, hx2, hx3, hx4, hx5, hy1, hy1t, hyt, hs⟩ := hg
  have hleft : g.notch ≤ p.1 := by rcases hx with hx | hx <;> linarith
  have hright : p.1 ≤ g.arch.width - g.notch := by rcases hx with hx | hx <;> linarith
  refine ⟨hy.1, by linarith, .inl (by linarith), .inl (by linarith),
    .inr (hx.imp And.right And.left), by linarith, by linarith, ?_, ?_⟩
  · -- past the corner every point is above or below the notch
    by_contra! hc
    nlinarith
  · by_contra! hc
    nlinarith

theorem fold_subset {xa xb : ℝ} (hab : xa ≤ xb)
    (hx : g.x2 ≤ xa ∧ xb ≤ g.x3 ∨ g.x4 ≤ xa ∧ xb ≤ g.x5) :
    (g.fold xa xb).trace ⊆ {p | InBanner (· ≤ ·) g p} := by
  have hy1 := hg.y1_nonneg
  have hfold {p : Plane} (hxa : xa ≤ p.1) (hxb : p.1 ≤ xb) (hy : 0 ≤ height g.arch p)
      (hy' : height g.arch p ≤ g.y1) : InBanner (· ≤ ·) g p :=
    hg.inBanner_of_fold (hx.imp (fun h => ⟨h.1.trans hxa, hxb.trans h.2⟩)
      fun h => ⟨h.1.trans hxa, hxb.trans h.2⟩) ⟨hy, hy'⟩
  rw [hg.fold_trace]
  simp only [Set.union_subset_iff, along, across, Set.uIcc_of_le hab, Set.uIcc_of_ge hab,
    Set.uIcc_of_le hy1, Set.uIcc_of_ge hy1, Set.uIcc_self]
  refine ⟨?_, ?_, ?_, ?_, ?_⟩
  · exact fun p ⟨hp, hy⟩ => hfold hp.1 hp.2 hy.ge (hy.le.trans hy1)
  · exact fun p ⟨hp, hy⟩ => hfold (hab.trans hp.ge) hp.le hy.1 hy.2
  · exact fun p ⟨hp, hy⟩ => hfold hp.1 hp.2 (hy1.trans hy.ge) hy.le
  · exact fun p ⟨hp, hy⟩ => hfold hp.ge (hp.le.trans hab) hy.1 hy.2
  · exact fun p ⟨hp, hy⟩ => hfold hp.ge (hp.le.trans hab) hy.ge (hy.le.trans hy1)

theorem folds_subset :
    Sketch.trace (g.fold g.x2 g.x3 ++ g.fold g.x4 g.x5) ⊆
      enclosed (g.body g.arch.width).trace := by
  rw [Sketch.trace_append_of_opens rfl rfl]
  refine Set.Subset.trans (Set.union_subset ?_ ?_) hg.inBanner_subset_enclosed
  · exact hg.fold_subset hg.x2_le_x3 (.inl ⟨le_rfl, le_rfl⟩)
  · exact hg.fold_subset hg.x4_le_x5 (.inr ⟨le_rfl, le_rfl⟩)

end Spans

/-- An arched ribbon either way up. -/
theorem archedBanner_shades {f : Frame ℝ} (hw : 0 < f.w) (hh : 0 < f.h) (t : Reflection ℝ) :
    ShadesWithin ((archedBanner f).layers t) :=
  (banner_shades_iff _ t).2 (ofFrame_spans hw hh).folds_subset

end
end ShapeOutline
