import ShapeOutline.Proofs.Shading

/-! The folds of a straight ribbon. Seen between the curls of its body they are outside
of it, unless the panel is so narrow that the curls meet. -/

namespace ShapeOutline
noncomputable section

open Layered

/-- The lower edge of a ribbon, from its right tail to its left one. -/
def hangingEdge (w h x x' c e : ℝ) : Sketch ℝ :=
  [.line ⟨w, 0⟩, .line ⟨w - 4 * c, (h - 4 * e) / 2⟩, .line ⟨w, h - 4 * e⟩,
    .line ⟨x' + 4 * c, h - 4 * e⟩, .line ⟨x' + 4 * c, h - e⟩, .arc ⟨c, e⟩ 0 90,
    .line ⟨x - 3 * c, h⟩, .arc ⟨c, e⟩ 90 90, .line ⟨x - 4 * c, h - 4 * e⟩, .line ⟨0, h - 4 * e⟩,
    .line ⟨4 * c, (h - 4 * e) / 2⟩, .close]

/-- A ribbon whose folds end at the widths `x` and `x'`, with curls of the radii `c` and `e`. -/
def hangingBody (w h x x' c e : ℝ) : Sketch ℝ :=
  [.move ⟨0, 0⟩, .line ⟨x - c, 0⟩, .arc ⟨c, e⟩ 270 180, .line ⟨x - 3 * c, 2 * e⟩,
    .arc ⟨c, e⟩ 270 (-180), .line ⟨x' + 3 * c, 4 * e⟩, .arc ⟨c, e⟩ 90 (-180),
    .line ⟨x' + c, 2 * e⟩, .arc ⟨c, e⟩ 90 180] ++ hangingEdge w h x x' c e

def leftFold (x c e : ℝ) : Sketch ℝ :=
  [.move ⟨x, e⟩, .arc ⟨c, e⟩ 0 90, .line ⟨x - 3 * c, 2 * e⟩, .arc ⟨c, e⟩ 270 (-180),
    .line ⟨x, 4 * e⟩, .close]

def rightFold (x' c e : ℝ) : Sketch ℝ :=
  [.move ⟨x', e⟩, .arc ⟨c, e⟩ 180 (-90), .line ⟨x' + 3 * c, 2 * e⟩, .arc ⟨c, e⟩ 270 180,
    .line ⟨x', 4 * e⟩, .close]

section Traces

variable {w h x x' c e : ℝ} (hr : (⟨c, e⟩ : Point ℝ).Positive)

include hr

theorem hangingBody_trace :
    (hangingBody w h x x' c e).trace =
      segment ℝ (0, 0) (x - c, 0) ∪ (Point.place '' arcCurve ⟨x - c, e⟩ ⟨c, e⟩ 270 180 ∪
        (segment ℝ (x - c, 2 * e) (x - 3 * c, 2 * e) ∪
          (Point.place '' arcCurve ⟨x - 3 * c, 3 * e⟩ ⟨c, e⟩ 90 180 ∪
            (segment ℝ (x - 3 * c, 4 * e) (x' + 3 * c, 4 * e) ∪
              (Point.place '' arcCurve ⟨x' + 3 * c, 3 * e⟩ ⟨c, e⟩ (-90) 180 ∪
                (segment ℝ (x' + 3 * c, 2 * e) (x' + c, 2 * e) ∪
                  (Point.place '' arcCurve ⟨x' + c, e⟩ ⟨c, e⟩ 90 180 ∪
                    Trail.trace ⟨⟨x' + c, 0⟩, ⟨0, 0⟩⟩ (hangingEdge w h x x' c e)))))))) := by
  rw [hangingBody, List.cons_append, Sketch.trace_move, List.cons_append, Trail.trace_line,
    List.cons_append, Trail.trace_arc_about ⟨x - c, e⟩ ⟨x - c, 2 * e⟩ hr
      (by norm_num) (by norm_num) (by rw [spoke_threeQuarters hr]; ext <;> simp)
      (by norm_num [spoke_450 hr]; ext <;> simp; ring),
    List.cons_append, Trail.trace_line,
    List.cons_append, Trail.trace_arc_about ⟨x - 3 * c, 3 * e⟩
      ⟨x - 3 * c, 4 * e⟩ hr (by norm_num) (by norm_num)
      (by rw [spoke_threeQuarters hr]; ext <;> simp; ring)
      (by norm_num [spoke_ninety hr]; ext <;> simp; ring),
    List.cons_append, Trail.trace_line,
    List.cons_append, Trail.trace_arc_about ⟨x' + 3 * c, 3 * e⟩
      ⟨x' + 3 * c, 2 * e⟩ hr (by norm_num) (by norm_num)
      (by rw [spoke_ninety hr]; ext <;> simp; ring)
      (by rw [← spoke_add_full hr]; norm_num [spoke_threeQuarters hr]; ext <;> simp; ring),
    List.cons_append, Trail.trace_line,
    List.cons_append, Trail.trace_arc_about ⟨x' + c, e⟩ ⟨x' + c, 0⟩ hr
      (by norm_num) (by norm_num) (by rw [spoke_ninety hr]; ext <;> simp; ring)
      (by norm_num [spoke_threeQuarters hr]; ext <;> simp),
    arcCurve_neg, arcCurve_neg]
  norm_num

theorem hangingEdge_trace :
    Trail.trace ⟨⟨x' + c, 0⟩, ⟨0, 0⟩⟩ (hangingEdge w h x x' c e) =
      segment ℝ (x' + c, 0) (w, 0) ∪ (segment ℝ (w, 0) (w - 4 * c, (h - 4 * e) / 2) ∪
        (segment ℝ (w - 4 * c, (h - 4 * e) / 2) (w, h - 4 * e) ∪
          (segment ℝ (w, h - 4 * e) (x' + 4 * c, h - 4 * e) ∪
            (segment ℝ (x' + 4 * c, h - 4 * e) (x' + 4 * c, h - e) ∪
              (Point.place '' arcCurve ⟨x' + 3 * c, h - e⟩ ⟨c, e⟩ 0 90 ∪
                (segment ℝ (x' + 3 * c, h) (x - 3 * c, h) ∪
                  (Point.place '' arcCurve ⟨x - 3 * c, h - e⟩ ⟨c, e⟩ 90 90 ∪
                    (segment ℝ (x - 4 * c, h - e) (x - 4 * c, h - 4 * e) ∪
                      (segment ℝ (x - 4 * c, h - 4 * e) (0, h - 4 * e) ∪
                        (segment ℝ (0, h - 4 * e) (4 * c, (h - 4 * e) / 2) ∪
                          (segment ℝ (4 * c, (h - 4 * e) / 2) (0, 0) ∪
                            segment ℝ (0, 0) (0, 0)))))))))))) := by
  simp only [hangingEdge, Trail.trace_line]
  rw [Trail.trace_arc_about ⟨x' + 3 * c, h - e⟩ ⟨x' + 3 * c, h⟩ hr
      (by norm_num) (by norm_num) (by rw [spoke_zero hr]; ext <;> simp; ring)
      (by norm_num [spoke_ninety hr]; ext <;> simp),
    Trail.trace_line,
    Trail.trace_arc_about ⟨x - 3 * c, h - e⟩ ⟨x - 4 * c, h - e⟩ hr
      (by norm_num) (by norm_num) (by rw [spoke_ninety hr]; ext <;> simp)
      (by norm_num [spoke_half hr]; ext <;> simp; ring)]
  rfl

theorem leftFold_trace :
    (leftFold x c e).trace =
      Point.place '' arcCurve ⟨x - c, e⟩ ⟨c, e⟩ 0 90 ∪
        (segment ℝ (x - c, 2 * e) (x - 3 * c, 2 * e) ∪
          (Point.place '' arcCurve ⟨x - 3 * c, 3 * e⟩ ⟨c, e⟩ 90 180 ∪
            (segment ℝ (x - 3 * c, 4 * e) (x, 4 * e) ∪
              (segment ℝ (x, 4 * e) (x, e) ∪ segment ℝ (x, e) (x, e))))) := by
  rw [leftFold, Sketch.trace_move,
    Trail.trace_arc_about ⟨x - c, e⟩ ⟨x - c, 2 * e⟩ hr (by norm_num)
      (by norm_num) (by rw [spoke_zero hr]; ext <;> simp)
      (by norm_num [spoke_ninety hr]; ext <;> simp; ring),
    Trail.trace_line,
    Trail.trace_arc_about ⟨x - 3 * c, 3 * e⟩ ⟨x - 3 * c, 4 * e⟩ hr
      (by norm_num) (by norm_num) (by rw [spoke_threeQuarters hr]; ext <;> simp; ring)
      (by norm_num [spoke_ninety hr]; ext <;> simp; ring),
    arcCurve_neg]
  norm_num

theorem rightFold_trace :
    (rightFold x' c e).trace =
      Point.place '' arcCurve ⟨x' + c, e⟩ ⟨c, e⟩ 90 90 ∪
        (segment ℝ (x' + c, 2 * e) (x' + 3 * c, 2 * e) ∪
          (Point.place '' arcCurve ⟨x' + 3 * c, 3 * e⟩ ⟨c, e⟩ 270 180 ∪
            (segment ℝ (x' + 3 * c, 4 * e) (x', 4 * e) ∪
              (segment ℝ (x', 4 * e) (x', e) ∪ segment ℝ (x', e) (x', e))))) := by
  rw [rightFold, Sketch.trace_move,
    Trail.trace_arc_about ⟨x' + c, e⟩ ⟨x' + c, 2 * e⟩ hr (by norm_num)
      (by norm_num) (by rw [spoke_half hr]; ext <;> simp)
      (by norm_num [spoke_ninety hr]; ext <;> simp; ring),
    Trail.trace_line,
    Trail.trace_arc_about ⟨x' + 3 * c, 3 * e⟩ ⟨x' + 3 * c, 4 * e⟩ hr
      (by norm_num) (by norm_num) (by rw [spoke_threeQuarters hr]; ext <;> simp; ring)
      (by norm_num [spoke_450 hr]; ext <;> simp; ring),
    arcCurve_neg]
  norm_num

end Traces

/-- The folds lie between the tails, and the panel hangs no lower than the ribbon. -/
structure Hangs (w h x x' c e : ℝ) : Prop where
  turn_pos : 0 < c
  curl_nonneg : 0 ≤ e
  left : 8 * c ≤ x
  right : x' ≤ w - 8 * c
  between : x ≤ x'
  low : 12 * e ≤ h

namespace Hangs

variable {w h x x' c e : ℝ} (hg : Hangs w h x x' c e) (he : 0 < e)

include hg he

theorem positive : (⟨c, e⟩ : Point ℝ).Positive := ⟨hg.turn_pos, he⟩

/-- A curl keeps within the box of its radii. -/
theorem mem_curl {a b deg sweep : ℝ} {p : Plane}
    (hp : p ∈ Point.place '' arcCurve ⟨a, b⟩ ⟨c, e⟩ deg sweep) :
    (a - c ≤ p.1 ∧ p.1 ≤ a + c) ∧ b - e ≤ p.2 ∧ p.2 ≤ b + e := by
  have hr := hg.positive he
  obtain ⟨h, h'⟩ := abs_sub_le_of_offEllipse hr (offEllipse_of_mem_arc hr hp).le
  rw [abs_le] at h h'
  simp only at h h'
  constructor <;> constructor <;> linarith

theorem hangingEdge_subset :
    Trail.trace ⟨⟨x' + c, 0⟩, ⟨0, 0⟩⟩ (hangingEdge w h x x' c e) ⊆
      besideGap x (2 * e) (x', 0) (x, e) := by
  have hpanel {a deg sweep : ℝ} : Point.place '' arcCurve ⟨a, h - e⟩ ⟨c, e⟩ deg sweep ⊆
      besideGap x (2 * e) (x', 0) (x, e) := fun p hp =>
    .inr (.inl (by linarith [(hg.mem_curl he hp).2.1, hg.low]))
  rw [hangingEdge_trace (hg.positive he)]
  obtain ⟨hc, -, hx, hx', hxx', hh⟩ := hg
  simp only [Set.union_subset_iff]
  refine ⟨segment_past_gap ?_ ?_, segment_past_gap ?_ ?_, segment_past_gap ?_ ?_,
    segment_past_gap ?_ ?_, segment_below_gap ?_ ?_, hpanel, segment_below_gap ?_ ?_, hpanel,
    segment_below_gap ?_ ?_, segment_below_gap ?_ ?_, segment_short_of_gap ?_ ?_,
    segment_short_of_gap ?_ ?_, segment_short_of_gap ?_ ?_⟩
  all_goals simp only
  all_goals first | linarith | constructor <;> linarith

/-- The body leaves the space between its curls open. The curl of the left tail touches it. -/
theorem body_subset :
    (hangingBody w h x x' c e).trace ⊆ besideGap x (2 * e) (x', 0) (x, e) := by
  have hr := hg.positive he
  have htouch : Point.place '' arcCurve ⟨x - c, e⟩ ⟨c, e⟩ 270 180 ⊆
      besideGap x (2 * e) (x', 0) (x, e) := by
    intro p hp
    have hside := fst_lt_or_eq_of_mem_arc hr hp
    simp only [sub_add_cancel] at hside
    exact hside.elim .inl fun h => .inr (.inr (.inr h))
  have hfold : Point.place '' arcCurve ⟨x - 3 * c, 3 * e⟩ ⟨c, e⟩ 90 180 ⊆
      besideGap x (2 * e) (x', 0) (x, e) := fun p hp =>
    .inl (by linarith [(hg.mem_curl he hp).1.2, hg.turn_pos])
  have hbeyond {a b deg sweep : ℝ} (ha : x' + c ≤ a) (hb : e ≤ b) :
      Point.place '' arcCurve ⟨a, b⟩ ⟨c, e⟩ deg sweep ⊆ besideGap x (2 * e) (x', 0) (x, e) :=
    fun p hp => by
      obtain ⟨⟨hx, -⟩, hy, -⟩ := hg.mem_curl he hp
      exact .inr (.inr (.inl ⟨by simp only; linarith, by simp only; linarith⟩))
  have hedge := hg.hangingEdge_subset he
  rw [hangingBody_trace hr]
  obtain ⟨hc, -, hx, hx', hxx', hh⟩ := hg
  simp only [Set.union_subset_iff]
  refine ⟨segment_short_of_gap ?_ ?_, htouch, segment_short_of_gap ?_ ?_, hfold,
    segment_below_gap ?_ ?_, hbeyond (by linarith) (by linarith), segment_past_gap ?_ ?_,
    hbeyond le_rfl le_rfl, hedge⟩
  all_goals simp only
  all_goals first | linarith | constructor <;> linarith

/-- Between the curls, the left fold is outside of the body. -/
theorem not_fold_subset (hopen : x < x') :
    ¬(leftFold x c e).trace ⊆ enclosed (hangingBody w h x x' c e).trace := by
  intro hsub
  have hmem : ((x, 2 * e) : Plane) ∈ (leftFold x c e).trace := by
    rw [leftFold_trace (hg.positive he), segment_symm ℝ (x, 4 * e) (x, e)]
    refine .inr (.inr (.inr (.inr (.inl (mem_segment_vertical ?_ ?_ rfl))))) <;> simp only <;>
      linarith
  exact not_mem_enclosed_of_gap (hg.body_subset he) hopen (by linarith) le_rfl
    (by simp only; linarith) rfl (hsub hmem)

section Edge

variable {p : Plane}

theorem leftCurl_mem (hx : x - c ≤ p.1) (hoff : offEllipse ⟨x - c, e⟩ ⟨c, e⟩ p = 0) :
    p ∈ (hangingBody w h x x' c e).trace := by
  have hr := hg.positive he
  rw [hangingBody_trace hr]
  refine .inr (.inl ((mem_arc_half hr 270).2 ⟨hoff, ?_⟩))
  simpa [bearing_threeQuarters] using hx

theorem rightCurl_mem (hx : p.1 ≤ x' + c) (hoff : offEllipse ⟨x' + c, e⟩ ⟨c, e⟩ p = 0) :
    p ∈ (hangingBody w h x x' c e).trace := by
  have hr := hg.positive he
  rw [hangingBody_trace hr]
  refine .inr (.inr (.inr (.inr (.inr (.inr (.inr (.inl ((mem_arc_half hr 90).2 ⟨hoff, ?_⟩))))))))
  simpa [bearing_ninety] using hx

theorem leftTurn_mem (hx : p.1 ≤ x - 3 * c) (hoff : offEllipse ⟨x - 3 * c, 3 * e⟩ ⟨c, e⟩ p = 0) :
    p ∈ (hangingBody w h x x' c e).trace := by
  have hr := hg.positive he
  rw [hangingBody_trace hr]
  refine .inr (.inr (.inr (.inl ((mem_arc_half hr 90).2 ⟨hoff, ?_⟩))))
  simpa [bearing_ninety] using hx

theorem rightTurn_mem (hx : x' + 3 * c ≤ p.1)
    (hoff : offEllipse ⟨x' + 3 * c, 3 * e⟩ ⟨c, e⟩ p = 0) :
    p ∈ (hangingBody w h x x' c e).trace := by
  have hr := hg.positive he
  have hbearing : bearing (-90) = bearing 270 := by
    rw [← bearing_add_full]
    norm_num
  rw [hangingBody_trace hr]
  refine .inr (.inr (.inr (.inr (.inr (.inl ((mem_arc_half hr _).2 ⟨hoff, ?_⟩))))))
  simpa [hbearing, bearing_threeQuarters] using hx

theorem leftFold_mem (hx : x - 3 * c ≤ p.1) (hx' : p.1 ≤ x - c) (hy : p.2 = 2 * e) :
    p ∈ (hangingBody w h x x' c e).trace := by
  rw [hangingBody_trace (hg.positive he), segment_symm ℝ (x - c, 2 * e)]
  exact .inr (.inr (.inl (mem_segment_horizontal hx hx' hy)))

theorem rightFold_mem (hx : x' + c ≤ p.1) (hx' : p.1 ≤ x' + 3 * c) (hy : p.2 = 2 * e) :
    p ∈ (hangingBody w h x x' c e).trace := by
  rw [hangingBody_trace (hg.positive he), segment_symm ℝ (x' + 3 * c, 2 * e)]
  exact .inr (.inr (.inr (.inr (.inr (.inr (.inl (mem_segment_horizontal hx hx' hy)))))))

theorem panel_mem (hx : x - 3 * c ≤ p.1) (hx' : p.1 ≤ x' + 3 * c) (hy : p.2 = 4 * e) :
    p ∈ (hangingBody w h x x' c e).trace := by
  rw [hangingBody_trace (hg.positive he)]
  exact .inr (.inr (.inr (.inr (.inl (mem_segment_horizontal hx hx' hy)))))

end Edge

end Hangs

/-- Between the curls, which meet at the width `x`. -/
@[mk_iff]
structure InNeck (x c e : ℝ) (p : Plane) : Prop where
  left : x - c ≤ p.1
  right : p.1 ≤ x + c
  top : e ≤ p.2
  bottom : p.2 ≤ 2 * e
  leftCurl : 0 ≤ offEllipse ⟨x - c, e⟩ ⟨c, e⟩ p
  rightCurl : 0 ≤ offEllipse ⟨x + c, e⟩ ⟨c, e⟩ p

/-- Between the turns of the folds. -/
def hollow (x c e : ℝ) : Set Plane :=
  Set.Icc (x - 3 * c) (x + 3 * c) ×ˢ Set.Icc (2 * e) (4 * e) ∪
    ({p | offEllipse ⟨x - 3 * c, 3 * e⟩ ⟨c, e⟩ p ≤ 0} ∪
      {p | offEllipse ⟨x + 3 * c, 3 * e⟩ ⟨c, e⟩ p ≤ 0})

/-- What curls that meet enclose. -/
def pocket (x c e : ℝ) : Set Plane := {p | InNeck x c e p} ∪ hollow x c e

theorem pocket_isClosed (x c e : ℝ) : IsClosed (pocket x c e) := by
  have hcont (center radii : Point ℝ) := continuous_offEllipse center radii
  simp only [pocket, hollow, inNeck_iff, Set.ofPred_and]
  refine .union (.inter ?_ (.inter ?_ (.inter ?_ (.inter ?_ (.inter ?_ ?_)))))
    (.union (isClosed_Icc.prod isClosed_Icc) (.union ?_ ?_))
  all_goals refine isClosed_le ?_ ?_ <;> fun_prop

namespace Hangs

variable {w h x c e : ℝ} (hg : Hangs w h x x c e) (he : 0 < e)

include hg he

theorem pocket_isBounded : Bornology.IsBounded (pocket x c e) := by
  have hr := hg.positive he
  refine Bornology.IsBounded.union (((Metric.isBounded_Icc (x - c) (x + c)).prod
    (Metric.isBounded_Icc e (2 * e))).subset fun p hp => ?_)
      (((Metric.isBounded_Icc _ _).prod (Metric.isBounded_Icc _ _)).union
        ((isBounded_ellipse hr).union (isBounded_ellipse hr)))
  exact ⟨⟨hp.left, hp.right⟩, hp.top, hp.bottom⟩

variable {p : Plane} (hK : p ∉ (hangingBody w h x x c e).trace)

include hK

theorem neck_mem_nhds (hp : InNeck x c e p) : ∀ᶠ q in nhds p, q ∈ pocket x c e := by
  have hc := hg.turn_pos
  have hleft : 0 < offEllipse ⟨x - c, e⟩ ⟨c, e⟩ p :=
    hp.leftCurl.lt_of_ne fun h => hK (hg.leftCurl_mem he hp.left h.symm)
  have hright : 0 < offEllipse ⟨x + c, e⟩ ⟨c, e⟩ p :=
    hp.rightCurl.lt_of_ne fun h => hK (hg.rightCurl_mem he hp.right h.symm)
  have hy : e < p.2 := by
    refine hp.top.lt_of_ne fun hy => ?_
    simp only [offEllipse, ← hy, sub_self, mul_zero] at hleft hright
    have hx : c < p.1 - (x - c) := by
      refine lt_of_mul_lt_mul_left (lt_of_pow_lt_pow_left₀ 2 ?_ ?_) he.le
      · exact mul_nonneg he.le (sub_nonneg.2 hp.left)
      · linarith
    have hx' : c < x + c - p.1 := by
      refine lt_of_mul_lt_mul_left (lt_of_pow_lt_pow_left₀ 2 ?_ ?_) he.le
      · exact mul_nonneg he.le (sub_nonneg.2 hp.right)
      · linarith
    linarith
  have hrise : (c * (p.2 - e)) ^ 2 ≤ (c * e) ^ 2 := by
    have hstep : p.2 - e ≤ e := by linarith [hp.bottom]
    exact pow_le_pow_left₀ (mul_nonneg hc.le (sub_pos.2 hy).le)
      (mul_le_mul_of_nonneg_left hstep hc.le) 2
  have hx : x - c < p.1 := by
    refine hp.left.lt_of_ne fun hx => hleft.not_ge ?_
    simp only [offEllipse, ← hx, sub_self, mul_zero]
    linarith
  have hx' : p.1 < x + c := by
    refine hp.right.lt_of_ne fun hx => hright.not_ge ?_
    simp only [offEllipse, hx, sub_self, mul_zero]
    linarith
  have hcont (center radii : Point ℝ) := (continuous_offEllipse center radii).continuousAt (x := p)
  have hbelow : p.2 < 4 * e := by linarith [hp.bottom]
  filter_upwards [continuousAt_const.eventually_lt continuousAt_fst hx,
    continuousAt_fst.eventually_lt continuousAt_const hx',
    continuousAt_const.eventually_lt continuousAt_snd hy,
    continuousAt_snd.eventually_lt continuousAt_const hbelow,
    continuousAt_const.eventually_lt (hcont _ _) hleft,
    continuousAt_const.eventually_lt (hcont _ _) hright] with q h1 h2 h3 h4 h5 h6
  rcases le_total q.2 (2 * e) with hq | hq
  · exact .inl ⟨h1.le, h2.le, h3.le, hq, h5.le, h6.le⟩
  · exact .inr (.inl ⟨⟨by linarith, by linarith⟩, hq, h4.le⟩)

omit hg he hK in
/-- A point within a turn of a fold. -/
theorem turn_mem_nhds {a : ℝ} (hsub : {q | offEllipse ⟨a, 3 * e⟩ ⟨c, e⟩ q ≤ 0} ⊆ hollow x c e)
    (hp : offEllipse ⟨a, 3 * e⟩ ⟨c, e⟩ p < 0) : ∀ᶠ q in nhds p, q ∈ pocket x c e := by
  have hcont := (continuous_offEllipse ⟨a, 3 * e⟩ ⟨c, e⟩).continuousAt (x := p)
  exact (hcont.eventually_lt continuousAt_const hp).mono fun q hq => .inr (hsub hq.le)

omit hg he hK in
/-- A point within the box. -/
theorem box_mem_nhds (hx : x - 3 * c < p.1) (hx' : p.1 < x + 3 * c) (hy : 2 * e < p.2)
    (hy' : p.2 < 4 * e) : ∀ᶠ q in nhds p, q ∈ pocket x c e := by
  filter_upwards [prod_mem_nhds (Icc_mem_nhds hx hx') (Icc_mem_nhds hy hy')] with q hq
  exact .inr (.inl hq)

omit he hK in
/-- A side of the box runs within a turn. -/
theorem side_within_turn {a : ℝ} (hx : p.1 = a) (hy : 2 * e < p.2) (hy' : p.2 < 4 * e) :
    offEllipse ⟨a, 3 * e⟩ ⟨c, e⟩ p < 0 := by
  have hsq : (p.2 - 3 * e) ^ 2 < e ^ 2 := sq_lt_sq' (by linarith) (by linarith)
  have := mul_lt_mul_of_pos_left hsq (pow_pos hg.turn_pos 2)
  simp only [offEllipse, hx, sub_self, mul_zero, mul_pow]
  linarith

omit hK in
/-- Beside its axis a turn keeps clear of the heights at which it begins and ends. -/
theorem beside_axis {a : ℝ} (hne : p.1 ≠ a) (hoff : offEllipse ⟨a, 3 * e⟩ ⟨c, e⟩ p ≤ 0) :
    (a - c ≤ p.1 ∧ p.1 ≤ a + c) ∧ 2 * e < p.2 ∧ p.2 < 4 * e := by
  have hc := hg.turn_pos
  have hx := abs_le.1 (abs_sub_le_of_offEllipse (hg.positive he) hoff).1
  have hoffside : 0 < (e * (p.1 - a)) ^ 2 :=
    (sq_nonneg _).lt_of_ne' (pow_ne_zero 2 (mul_ne_zero he.ne' (sub_ne_zero.2 hne)))
  have hsq : (c * (p.2 - 3 * e)) ^ 2 < (c * e) ^ 2 := by
    simp only [offEllipse] at hoff
    linarith
  have habs := abs_lt_of_sq_lt_sq hsq (mul_pos hc he).le
  rw [abs_mul, abs_of_pos hc] at habs
  have hy := abs_lt.1 (lt_of_mul_lt_mul_left habs hc.le)
  simp only at hx
  refine ⟨⟨?_, ?_⟩, ?_, ?_⟩ <;> linarith

/-- At the top of the box only the mouth of the neck is off the edge. -/
theorem mouth_mem_nhds (hx : x - 3 * c ≤ p.1) (hx' : p.1 ≤ x + 3 * c) (hy : p.2 = 2 * e) :
    ∀ᶠ q in nhds p, q ∈ pocket x c e := by
  have hleft : x - c < p.1 := by
    by_contra! h
    exact hK (hg.leftFold_mem he hx h hy)
  have hright : p.1 < x + c := by
    by_contra! h
    exact hK (hg.rightFold_mem he h hx' hy)
  have hcurl (a : ℝ) : 0 ≤ offEllipse ⟨a, e⟩ ⟨c, e⟩ p := by
    have := sq_nonneg (e * (p.1 - a))
    simp only [offEllipse, hy]
    linarith
  exact hg.neck_mem_nhds he hK
    ⟨hleft.le, hright.le, by linarith, hy.le, hcurl _, hcurl _⟩

theorem hollow_mem_nhds (hp : p ∈ hollow x c e) : ∀ᶠ q in nhds p, q ∈ pocket x c e := by
  have hc := hg.turn_pos
  have hleft : {q | offEllipse ⟨x - 3 * c, 3 * e⟩ ⟨c, e⟩ q ≤ 0} ⊆ hollow x c e :=
    fun q hq => .inr (.inl hq)
  have hright : {q | offEllipse ⟨x + 3 * c, 3 * e⟩ ⟨c, e⟩ q ≤ 0} ⊆ hollow x c e :=
    fun q hq => .inr (.inr hq)
  obtain ⟨⟨hx, hx'⟩, hy, hy'⟩ | hp | hp := hp
  · have hbelow : p.2 < 4 * e := hy'.lt_of_ne fun h => hK (hg.panel_mem he hx hx' h)
    rcases hy.eq_or_lt with hy | hy
    · exact hg.mouth_mem_nhds he hK hx hx' hy.symm
    rcases hx.eq_or_lt with hx | hx
    · exact turn_mem_nhds hleft (hg.side_within_turn hx.symm hy hbelow)
    rcases hx'.eq_or_lt with hx' | hx'
    · exact turn_mem_nhds hright (hg.side_within_turn hx' hy hbelow)
    · exact box_mem_nhds hx hx' hy hbelow
  · rw [Set.mem_ofPred_eq] at hp
    rcases hp.lt_or_eq with hlt | heq
    · exact turn_mem_nhds hleft hlt
    · have hx : x - 3 * c < p.1 := by
        by_contra! h
        exact hK (hg.leftTurn_mem he h heq)
      obtain ⟨⟨-, hx'⟩, hy, hy'⟩ := hg.beside_axis he hx.ne' hp
      exact box_mem_nhds hx (by linarith) hy hy'
  · rw [Set.mem_ofPred_eq] at hp
    rcases hp.lt_or_eq with hlt | heq
    · exact turn_mem_nhds hright hlt
    · have hx : p.1 < x + 3 * c := by
        by_contra! h
        exact hK (hg.rightTurn_mem he h heq)
      obtain ⟨⟨hx', -⟩, hy, hy'⟩ := hg.beside_axis he hx.ne hp
      exact box_mem_nhds (by linarith) hx hy hy'

omit hK

theorem pocket_subset_enclosed : pocket x c e ⊆ enclosed (hangingBody w h x x c e).trace :=
  subset_enclosed_of_mem_nhds (hg.pocket_isBounded he) (pocket_isClosed x c e) fun _ hp hK =>
    hp.elim (hg.neck_mem_nhds he hK) (hg.hollow_mem_nhds he hK)

/-- The end of a fold is in the pocket. -/
theorem end_subset_enclosed :
    segment ℝ (x, 4 * e) (x, e) ⊆ enclosed (hangingBody w h x x c e).trace := by
  have hc := hg.turn_pos
  refine Set.Subset.trans (fun p hp => ?_) (hg.pocket_subset_enclosed he)
  rw [segment_symm, ← Prod.image_mk_segment_right, segment_eq_Icc (by linarith)] at hp
  obtain ⟨y, ⟨hy, hy'⟩, rfl⟩ := hp
  rcases le_total y (2 * e) with hmid | hmid
  · have hcurl (a : ℝ) (ha : (x - a) ^ 2 = c ^ 2) : 0 ≤ offEllipse ⟨a, e⟩ ⟨c, e⟩ (x, y) := by
      have := sq_nonneg (c * (y - e))
      simp only [offEllipse, mul_pow, ha] at this ⊢
      linarith
    exact .inl ⟨by simp only; linarith, by simp only; linarith, hy, hmid, hcurl _ (by ring),
      hcurl _ (by ring)⟩
  · exact .inr (.inl ⟨⟨by simp only; linarith, by simp only; linarith⟩, hmid, hy'⟩)

theorem leftFold_subset :
    (leftFold x c e).trace ⊆ enclosed (hangingBody w h x x c e).trace := by
  have hr := hg.positive he
  have hc := hg.turn_pos
  have hend := hg.end_subset_enclosed he
  have hedge {p : Plane} (hp : p ∈ (hangingBody w h x x c e).trace) :
      p ∈ enclosed (hangingBody w h x x c e).trace := subset_enclosed _ hp
  rw [leftFold_trace hr, segment_same]
  refine Set.union_subset (fun p hp => hedge ?_) (Set.union_subset (fun p hp => hedge ?_)
    (Set.union_subset (fun p hp => hedge ?_) (Set.union_subset (fun p hp => hedge ?_)
      (Set.union_subset hend (Set.singleton_subset_iff.2 (hend (right_mem_segment ..)))))))
  · obtain ⟨hoff, -, hx⟩ := (mem_arc_quarter hr 0).1 hp
    rw [bearing_zero] at hx
    exact hg.leftCurl_mem he (by linarith) hoff
  · rw [hangingBody_trace hr]
    exact .inr (.inr (.inl hp))
  · rw [hangingBody_trace hr]
    exact .inr (.inr (.inr (.inl hp)))
  · rw [← Prod.image_mk_segment_left, segment_eq_Icc (by linarith)] at hp
    obtain ⟨a, ⟨hx, hx'⟩, rfl⟩ := hp
    exact hg.panel_mem he hx (by simp only; linarith) rfl

theorem rightFold_subset :
    (rightFold x c e).trace ⊆ enclosed (hangingBody w h x x c e).trace := by
  have hr := hg.positive he
  have hc := hg.turn_pos
  have hend := hg.end_subset_enclosed he
  have hedge {p : Plane} (hp : p ∈ (hangingBody w h x x c e).trace) :
      p ∈ enclosed (hangingBody w h x x c e).trace := subset_enclosed _ hp
  rw [rightFold_trace hr, segment_same]
  refine Set.union_subset (fun p hp => hedge ?_) (Set.union_subset (fun p hp => hedge ?_)
    (Set.union_subset (fun p hp => hedge ?_) (Set.union_subset (fun p hp => hedge ?_)
      (Set.union_subset hend (Set.singleton_subset_iff.2 (hend (right_mem_segment ..)))))))
  · obtain ⟨hoff, hx, -⟩ := (mem_arc_quarter hr 90).1 hp
    rw [bearing_ninety] at hx
    exact hg.rightCurl_mem he (by simp only at hx; linarith) hoff
  · rw [hangingBody_trace hr, segment_symm ℝ (x + 3 * c, 2 * e)]
    exact .inr (.inr (.inr (.inr (.inr (.inr (.inl hp))))))
  · obtain ⟨hoff, hx⟩ := (mem_arc_half hr 270).1 hp
    rw [bearing_threeQuarters] at hx
    exact hg.rightTurn_mem he (by simp only at hx; linarith) hoff
  · rw [segment_symm, ← Prod.image_mk_segment_left, segment_eq_Icc (by linarith)] at hp
    obtain ⟨a, ⟨hx, hx'⟩, rfl⟩ := hp
    exact hg.panel_mem he (by simp only; linarith) hx' rfl

end Hangs

/-- Tails that hang level with the panel have no folds. -/
theorem flat_folds_subset {w h x x' c : ℝ} (hc : 0 ≤ c) (hxx' : x ≤ x') :
    Sketch.trace (leftFold x c 0 ++ rightFold x' c 0) ⊆ (hangingBody w h x x' c 0).trace := by
  have hr : ¬(⟨c, 0⟩ : Point ℝ).Positive := fun h => lt_irrefl 0 h.2
  have hbody : segment ℝ (x - 3 * c, 0) (x' + 3 * c, 0) ⊆ (hangingBody w h x x' c 0).trace := by
    simp only [hangingBody, List.cons_append, mul_zero]
    rw [Sketch.trace_move, Trail.trace_line, Trail.trace_arc_of_not_positive _ _ _ hr,
      Trail.trace_line, Trail.trace_arc_of_not_positive _ _ _ hr, Trail.trace_line]
    exact (Set.subset_union_left.trans Set.subset_union_right).trans Set.subset_union_right
  have hline {a b : ℝ} (ha : x - 3 * c ≤ a ∧ a ≤ x' + 3 * c) (hb : x - 3 * c ≤ b ∧ b ≤ x' + 3 * c) :
      segment ℝ ((a, 0) : Plane) (b, 0) ⊆ segment ℝ (x - 3 * c, 0) (x' + 3 * c, 0) :=
    (convex_segment _ _).segment_subset (mem_segment_horizontal ha.1 ha.2 rfl)
      (mem_segment_horizontal hb.1 hb.2 rfl)
  refine Set.Subset.trans ?_ hbody
  rw [Sketch.trace_append_of_opens rfl rfl, leftFold, rightFold]
  simp only [mul_zero]
  rw [Sketch.trace_move, Trail.trace_arc_of_not_positive _ _ _ hr, Trail.trace_line,
    Trail.trace_arc_of_not_positive _ _ _ hr, Trail.trace_line, Trail.trace_close, Trail.trace_nil,
    Sketch.trace_move, Trail.trace_arc_of_not_positive _ _ _ hr, Trail.trace_line,
    Trail.trace_arc_of_not_positive _ _ _ hr, Trail.trace_line, Trail.trace_close, Trail.trace_nil]
  simp only [Point.place_mk, Set.union_subset_iff]
  refine ⟨⟨hline ?_ ?_, hline ?_ ?_, hline ?_ ?_, hline ?_ ?_⟩, hline ?_ ?_, hline ?_ ?_,
    hline ?_ ?_, hline ?_ ?_⟩ <;> constructor <;> linarith

theorem ribbon_body (f : Frame ℝ) :
    (ribbonBanner f).body = hangingBody f.w f.h (RibbonGuides.ofFrame f).x5
      (RibbonGuides.ofFrame f).x6 (f.w / 32) (RibbonGuides.ofFrame f).curl.y := by
  simp only [ribbonBanner, ribbonBody, RibbonGuides.ofFrame, hangingBody, hangingEdge,
    Frame.heightPart, Frame.hc, Scalar.zero_real, List.cons_append, List.nil_append,
    List.cons.injEq, Stroke.line.injEq, Point.mk.injEq, true_and, and_true]
  and_intros <;> ring

theorem ribbon_folds (f : Frame ℝ) :
    (ribbonBanner f).folds = leftFold (RibbonGuides.ofFrame f).x5 (f.w / 32)
      (RibbonGuides.ofFrame f).curl.y ++ rightFold (RibbonGuides.ofFrame f).x6 (f.w / 32)
        (RibbonGuides.ofFrame f).curl.y := by
  simp only [ribbonBanner, RibbonGuides.ofFrame, leftFold, rightFold, Frame.heightPart, Frame.hc,
    Scalar.zero_real, List.cons_append, List.nil_append, List.cons.injEq, Stroke.line.injEq,
    Point.mk.injEq, true_and, and_true]
  and_intros <;> ring

theorem ribbon_curl (f : Frame ℝ) :
    (RibbonGuides.ofFrame f).curl.y = f.h * f.pinned "adj1" 16667 0 33333 / 400000 := by
  simp only [RibbonGuides.ofFrame, Scalar.zero_real]

theorem ribbon_hangs {f : Frame ℝ} (hw : 0 < f.w) (hh : 0 < f.h) :
    Hangs f.w f.h (RibbonGuides.ofFrame f).x5 (RibbonGuides.ofFrame f).x6 (f.w / 32)
      (RibbonGuides.ofFrame f).curl.y := by
  set a1 := f.pinned "adj1" 16667 0 33333 with ha1
  set a2 := f.pinned "adj2" 50000 25000 75000 with ha2
  obtain ⟨h1, h1'⟩ : 0 ≤ a1 ∧ a1 ≤ 33333 := pin_mem _ (by norm_num)
  obtain ⟨h2, h2'⟩ : 25000 ≤ a2 ∧ a2 ≤ 75000 := pin_mem _ (by norm_num)
  set g := RibbonGuides.ofFrame f with hg
  have hx5 : g.x5 = f.w / 2 - f.w * a2 / 200000 + f.w / 8 := rfl
  have hx6 : g.x6 = f.w / 2 + f.w * a2 / 200000 - f.w / 8 := rfl
  have hcurl : g.curl.y = f.h * a1 / 400000 := ribbon_curl f
  have hwidth := mul_le_mul_of_nonneg_left h2 hw.le
  have hwidth' := mul_le_mul_of_nonneg_left h2' hw.le
  have hdepth := mul_nonneg hh.le h1
  have hdepth' := mul_le_mul_of_nonneg_left h1' hh.le
  refine ⟨by positivity, ?_, ?_, ?_, ?_, ?_⟩ <;> linarith

/-- A straight ribbon, whichever way it hangs. -/
theorem ribbonBanner_shades_iff {f : Frame ℝ} (hw : 0 < f.w) (hh : 0 < f.h) (t : Reflection ℝ) :
    ShadesWithin ((ribbonBanner f).layers t) ↔
      f.pinned "adj1" 16667 0 33333 = 0 ∨ f.pinned "adj2" 50000 25000 75000 = 25000 := by
  have hhangs := ribbon_hangs hw hh
  set a1 := f.pinned "adj1" 16667 0 33333 with ha1
  set a2 := f.pinned "adj2" 50000 25000 75000 with ha2
  have h1 : 0 ≤ a1 := (pin_mem _ (by norm_num)).1
  have h2 : 25000 ≤ a2 := (pin_mem _ (by norm_num)).1
  set g := RibbonGuides.ofFrame f with hg
  have hx5 : g.x5 = f.w / 2 - f.w * a2 / 200000 + f.w / 8 := rfl
  have hx6 : g.x6 = f.w / 2 + f.w * a2 / 200000 - f.w / 8 := rfl
  have hcurl : g.curl.y = f.h * a1 / 400000 := ribbon_curl f
  rw [banner_shades_iff, ribbon_body, ribbon_folds, ← hg]
  constructor
  · intro hsub
    by_contra! hne
    have he : 0 < g.curl.y := by
      rw [hcurl]
      have := mul_pos hh (h1.lt_of_ne' hne.1)
      positivity
    have hopen : g.x5 < g.x6 := by
      have := mul_lt_mul_of_pos_left (h2.lt_of_ne' hne.2) hw
      linarith
    rw [Sketch.trace_append_of_opens rfl rfl] at hsub
    exact hhangs.not_fold_subset he hopen (Set.subset_union_left.trans hsub)
  · intro h
    rcases hhangs.curl_nonneg.eq_or_lt with he | he
    · rw [← he]
      exact (flat_folds_subset hhangs.turn_pos.le hhangs.between).trans (subset_enclosed _)
    · have hnarrow : a2 = 25000 := by
        refine h.resolve_left fun h0 => he.ne' ?_
        rw [hcurl, h0, mul_zero, zero_div]
      have hmeet : g.x6 = g.x5 := by
        rw [hx5, hx6, hnarrow]
        ring
      rw [hmeet] at hhangs ⊢
      exact append_subset rfl rfl (hhangs.leftFold_subset he) (hhangs.rightFold_subset he)

end
end ShapeOutline
