import ShapeOutline.Proofs.Shading

/-! The fold of a twisted ribbon. It hangs from the curl of the left half, outside of the
band, unless it lies on the back of the right arrowhead. -/

namespace ShapeOutline
noncomputable section

open Layered

/-- A twisted band about the width `m`, whose arrowheads are `a` deep. Its left half is `2 * d`
thick and begins at the height `y`, and its right half is `2 * t` lower; the curls have the radii
`c` and `e`. -/
def twistedBody (m a y d t c e : ℝ) : Sketch ℝ :=
  [.move ⟨0, y + d⟩, .line ⟨a, 0⟩, .line ⟨a, y⟩, .line ⟨m, y⟩, .arc ⟨c, e⟩ 270 180,
    .arc ⟨c, e⟩ 270 (-180), .line ⟨2 * m - a, y + 2 * t⟩, .line ⟨2 * m - a, 2 * t⟩,
    .line ⟨2 * m, y + d + 2 * t⟩, .line ⟨2 * m - a, 2 * (y + d + t)⟩,
    .line ⟨2 * m - a, y + 2 * d + 2 * t⟩, .line ⟨m, y + 2 * d + 2 * t⟩, .arc ⟨c, e⟩ 90 90,
    .line ⟨m - c, y + 2 * d⟩, .line ⟨a, y + 2 * d⟩, .line ⟨a, 2 * (y + d)⟩, .close]

def twistedFold (m y t c e : ℝ) : Sketch ℝ :=
  [.move ⟨m + c, y + e⟩, .arc ⟨c, e⟩ 0 90, .arc ⟨c, e⟩ 270 (-180), .line ⟨m + c, y + 2 * t⟩, .close]

section Traces

variable {m a y d t c e : ℝ} (hr : (⟨c, e⟩ : Point ℝ).Positive)

include hr

theorem twistedBody_trace :
    (twistedBody m a y d t c e).trace =
      segment ℝ (0, y + d) (a, 0) ∪ (segment ℝ (a, 0) (a, y) ∪ (segment ℝ (a, y) (m, y) ∪
        (Point.place '' arcCurve ⟨m, y + e⟩ ⟨c, e⟩ 270 180 ∪
          (Point.place '' arcCurve ⟨m, y + 3 * e⟩ ⟨c, e⟩ 90 180 ∪
            (segment ℝ (m, y + 4 * e) (2 * m - a, y + 2 * t) ∪
              (segment ℝ (2 * m - a, y + 2 * t) (2 * m - a, 2 * t) ∪
                (segment ℝ (2 * m - a, 2 * t) (2 * m, y + d + 2 * t) ∪
                  (segment ℝ (2 * m, y + d + 2 * t) (2 * m - a, 2 * (y + d + t)) ∪
                    (segment ℝ (2 * m - a, 2 * (y + d + t)) (2 * m - a, y + 2 * d + 2 * t) ∪
                      (segment ℝ (2 * m - a, y + 2 * d + 2 * t) (m, y + 2 * d + 2 * t) ∪
                        (Point.place '' arcCurve ⟨m, y + 2 * d + 2 * t - e⟩ ⟨c, e⟩ 90 90 ∪
                          (segment ℝ (m - c, y + 2 * d + 2 * t - e) (m - c, y + 2 * d) ∪
                            (segment ℝ (m - c, y + 2 * d) (a, y + 2 * d) ∪
                              (segment ℝ (a, y + 2 * d) (a, 2 * (y + d)) ∪
                                (segment ℝ (a, 2 * (y + d)) (0, y + d) ∪
                                  segment ℝ (0, y + d) (0, y + d)))))))))))))))) := by
  simp only [twistedBody, Sketch.trace_move, Trail.trace_line]
  rw [Trail.trace_arc_about ⟨m, y + e⟩ ⟨m, y + 2 * e⟩ hr (by norm_num)
      (by norm_num) (by rw [spoke_threeQuarters hr]; ext <;> simp)
      (by norm_num [spoke_450 hr]; ext <;> simp; ring),
    Trail.trace_arc_about ⟨m, y + 3 * e⟩ ⟨m, y + 4 * e⟩ hr (by norm_num)
      (by norm_num) (by rw [spoke_threeQuarters hr]; ext <;> simp; ring)
      (by norm_num [spoke_ninety hr]; ext <;> simp; ring),
    arcCurve_neg]
  simp only [Trail.trace_line]
  rw [Trail.trace_arc_about ⟨m, y + 2 * d + 2 * t - e⟩
    ⟨m - c, y + 2 * d + 2 * t - e⟩ hr (by norm_num) (by norm_num)
    (by rw [spoke_ninety hr]; ext <;> simp) (by norm_num [spoke_half hr]; ext <;> simp; ring)]
  norm_num

theorem twistedFold_trace :
    (twistedFold m y t c e).trace =
      Point.place '' arcCurve ⟨m, y + e⟩ ⟨c, e⟩ 0 90 ∪
        (Point.place '' arcCurve ⟨m, y + 3 * e⟩ ⟨c, e⟩ 90 180 ∪
          (segment ℝ (m, y + 4 * e) (m + c, y + 2 * t) ∪
            (segment ℝ (m + c, y + 2 * t) (m + c, y + e) ∪
              segment ℝ (m + c, y + e) (m + c, y + e)))) := by
  rw [twistedFold, Sketch.trace_move,
    Trail.trace_arc_about ⟨m, y + e⟩ ⟨m, y + 2 * e⟩ hr (by norm_num)
      (by norm_num) (by rw [spoke_zero hr]; ext <;> simp)
      (by norm_num [spoke_ninety hr]; ext <;> simp; ring),
    Trail.trace_arc_about ⟨m, y + 3 * e⟩ ⟨m, y + 4 * e⟩ hr (by norm_num)
      (by norm_num) (by rw [spoke_threeQuarters hr]; ext <;> simp; ring)
      (by norm_num [spoke_ninety hr]; ext <;> simp; ring),
    arcCurve_neg]
  norm_num

end Traces

/-- The arrowheads keep clear of the curls, which fit between the halves. -/
structure Twists (m a y d t c e : ℝ) : Prop where
  turn_pos : 0 < c
  curl_nonneg : 0 ≤ e
  curl_le : 2 * e ≤ t
  top : 0 ≤ y
  thickness : 0 ≤ d
  head_nonneg : 0 ≤ a
  head_le : a ≤ m - c

namespace Twists

variable {m a y d t c e : ℝ} (hg : Twists m a y d t c e) (he : 0 < e)

include hg he

theorem positive : (⟨c, e⟩ : Point ℝ).Positive := ⟨hg.turn_pos, he⟩

/-- The band leaves the space above its right half open, up to the arrowhead. The curl of the left
half touches it. -/
theorem body_subset :
    (twistedBody m a y d t c e).trace ⊆
      besideGap (m + c) (y + 2 * e) (2 * m - a, 2 * t) (m + c, y + e) := by
  have hr := hg.positive he
  obtain ⟨hc, -, het, hy, hd, ha, ham⟩ := hg
  have htouch : Point.place '' arcCurve ⟨m, y + e⟩ ⟨c, e⟩ 270 180 ⊆
      besideGap (m + c) (y + 2 * e) (2 * m - a, 2 * t) (m + c, y + e) := fun p hp =>
    (fst_lt_or_eq_of_mem_arc hr hp).elim .inl fun h => .inr (.inr (.inr h))
  have hturn : Point.place '' arcCurve ⟨m, y + 3 * e⟩ ⟨c, e⟩ 90 180 ⊆
      besideGap (m + c) (y + 2 * e) (2 * m - a, 2 * t) (m + c, y + e) := by
    intro p hp
    have hx := ((mem_arc_half hr 90).1 hp).2
    rw [bearing_ninety] at hx
    simp only at hx
    exact .inl (by linarith)
  have hback : Point.place '' arcCurve ⟨m, y + 2 * d + 2 * t - e⟩ ⟨c, e⟩ 90 90 ⊆
      besideGap (m + c) (y + 2 * e) (2 * m - a, 2 * t) (m + c, y + e) := by
    intro p hp
    have hx := ((mem_arc_quarter hr 90).1 hp).2.1
    rw [bearing_ninety] at hx
    simp only at hx
    exact .inl (by linarith)
  rw [twistedBody_trace hr]
  simp only [Set.union_subset_iff]
  refine ⟨segment_short_of_gap ?_ ?_, segment_short_of_gap ?_ ?_, segment_short_of_gap ?_ ?_,
    htouch, hturn, segment_below_gap ?_ ?_, segment_past_gap ?_ ?_, segment_past_gap ?_ ?_,
    segment_past_gap ?_ ?_, segment_past_gap ?_ ?_, segment_below_gap ?_ ?_, hback,
    segment_short_of_gap ?_ ?_, segment_short_of_gap ?_ ?_, segment_short_of_gap ?_ ?_,
    segment_short_of_gap ?_ ?_, segment_short_of_gap ?_ ?_⟩
  all_goals simp only
  all_goals first | linarith | constructor <;> linarith

theorem mem_fold {s : ℝ} (hs : y + e ≤ s) (hs' : s ≤ y + 2 * e) :
    ((m + c, s) : Plane) ∈ (twistedFold m y t c e).trace := by
  rw [twistedFold_trace (hg.positive he), segment_symm ℝ (m + c, y + 2 * t)]
  exact .inr (.inr (.inr (.inl (mem_segment_vertical hs (by linarith [hg.curl_le]) rfl))))

/-- Above the arrowhead a ray leaves the fold to the right. -/
theorem not_mem_enclosed_of_above {s : ℝ} (hs : y + e < s) (hs' : s ≤ y + 2 * e)
    (hhead : s < 2 * t) : ((m + c, s) : Plane) ∉ enclosed (twistedBody m a y d t c e).trace := by
  refine not_mem_enclosed (v := (1, 0)) (by simp) fun u hu hp => ?_
  obtain hp | hp | ⟨-, hp⟩ | hp := hg.body_subset he hp
  · simp only [Prod.fst_add, Prod.smul_fst, smul_eq_mul] at hp
    linarith
  · simp only [Prod.snd_add, Prod.smul_snd, smul_eq_mul] at hp
    linarith
  · simp only [Prod.snd_add, Prod.smul_snd, smul_eq_mul] at hp
    linarith
  · have hy := congrArg Prod.snd hp
    simp only [Prod.snd_add, Prod.smul_snd, smul_eq_mul] at hy
    linarith

/-- Unless the arrowhead is at the fold, the fold is outside of the band. -/
theorem not_fold_subset (hopen : a < m - c ∨ y + e < 2 * t) :
    ¬(twistedFold m y t c e).trace ⊆ enclosed (twistedBody m a y d t c e).trace := by
  intro hsub
  have hy := hg.top
  rcases hopen with hopen | hopen
  · have ht : 0 ≤ t := by linarith [hg.curl_le]
    have hmem := hg.mem_fold he (s := y + 2 * e) (by linarith) le_rfl
    refine not_mem_enclosed_of_gap (hg.body_subset he) ?_ (by linarith) ?_ ?_ rfl (hsub hmem)
    all_goals simp only; linarith
  · obtain ⟨s, hs, hs'⟩ := exists_between (lt_min (show y + e < y + 2 * e by linarith) hopen)
    obtain ⟨hcurl, hhead⟩ := lt_min_iff.1 hs'
    exact hg.not_mem_enclosed_of_above he hs hcurl.le hhead (hsub (hg.mem_fold he hs.le hcurl.le))

/-- A fold on the back of the arrowhead. -/
theorem fold_subset (hhead : a = m - c) (hfold : 2 * t ≤ y + e) :
    (twistedFold m y t c e).trace ⊆ (twistedBody m a y d t c e).trace := by
  have hr := hg.positive he
  have hx : 2 * m - a = m + c := by linarith
  have hback : segment ℝ (m + c, y + 2 * t) (m + c, y + e) ⊆
      segment ℝ (m + c, y + 2 * t) (m + c, 2 * t) := by
    refine (convex_segment _ _).segment_subset (left_mem_segment ..) ?_
    rw [segment_symm]
    exact mem_segment_vertical hfold (by linarith [hg.curl_le]) rfl
  rw [twistedFold_trace hr, twistedBody_trace hr, hx, segment_same]
  refine Set.union_subset (fun p hp => ?_) (Set.union_subset (fun p hp => ?_)
    (Set.union_subset (fun p hp => ?_) (Set.union_subset (fun p hp => ?_)
      (Set.singleton_subset_iff.2 ?_))))
  · obtain ⟨hoff, -, hx⟩ := (mem_arc_quarter hr 0).1 hp
    refine .inr (.inr (.inr (.inl ((mem_arc_half hr 270).2 ⟨hoff, ?_⟩))))
    rw [bearing_zero] at hx
    rw [bearing_threeQuarters]
    linarith
  · exact .inr (.inr (.inr (.inr (.inl hp))))
  · exact .inr (.inr (.inr (.inr (.inr (.inl hp)))))
  · exact .inr (.inr (.inr (.inr (.inr (.inr (.inl (hback hp)))))))
  · exact .inr (.inr (.inr (.inr (.inr (.inr (.inl (hback (right_mem_segment ..))))))))

end Twists

/-- A band that does not twist has no fold. -/
theorem flat_fold_subset {m a y d c : ℝ} (hc : 0 ≤ c) (ham : a ≤ m - c) :
    (twistedFold m y 0 c 0).trace ⊆ (twistedBody m a y d 0 c 0).trace := by
  have hr : ¬(⟨c, 0⟩ : Point ℝ).Positive := fun h => lt_irrefl 0 h.2
  have hbody : ((m + c, y) : Plane) ∈ (twistedBody m a y d 0 c 0).trace := by
    simp only [twistedBody, Sketch.trace_move, Trail.trace_line]
    rw [Trail.trace_arc_of_not_positive _ _ _ hr, Trail.trace_arc_of_not_positive _ _ _ hr,
      Trail.trace_line]
    refine .inr (.inr (.inr (.inl ?_)))
    simp only [mul_zero, add_zero, Point.place_mk]
    exact mem_segment_horizontal (by simpa using hc) (by simp only; linarith) rfl
  rw [twistedFold, Sketch.trace_move, Trail.trace_arc_of_not_positive _ _ _ hr,
    Trail.trace_arc_of_not_positive _ _ _ hr, Trail.trace_line, Trail.trace_close, Trail.trace_nil]
  simp only [Point.place_mk, mul_zero, add_zero, segment_same, Set.union_self]
  exact Set.singleton_subset_iff.2 hbody

/-- How far the halves of a twisted ribbon are apart. -/
def twist (f : Frame ℝ) : ℝ := f.pinned "adj3" 16667 0 33333

/-- How thick its halves are. -/
def strip (f : Frame ℝ) : ℝ := f.pinned "adj1" 50000 0 (100000 - twist f)

/-- How deep its arrowheads are. -/
def headDepth (f : Frame ℝ) : ℝ :=
  f.shortPart (f.pinned "adj2" 50000 0 (divOrZero (100000 * (f.w / 2 - f.w / 32)) f.ss))

/-- Where its left half begins. -/
def stripTop (f : Frame ℝ) : ℝ := f.h / 2 - f.h * twist f / 200000 - f.h * strip f / 200000

theorem twisted_body (f : Frame ℝ) :
    (twistedBanner f).body = twistedBody (f.w / 2) (headDepth f) (stripTop f)
      (f.h * strip f / 200000) (f.h * twist f / 200000) (f.w / 32)
        (f.shortPart (twist f) / 4) := by
  simp only [twistedBanner, twistedBody, headDepth, stripTop, strip, twist, Frame.hc, Frame.vc,
    Scalar.zero_real, List.cons.injEq, Stroke.line.injEq, Point.mk.injEq,
    true_and, and_true]
  and_intros <;> ring

theorem twisted_folds (f : Frame ℝ) :
    (twistedBanner f).folds = twistedFold (f.w / 2) (stripTop f) (f.h * twist f / 200000) (f.w / 32)
      (f.shortPart (twist f) / 4) := by
  simp only [twistedBanner, twistedFold, stripTop, strip, twist, Frame.hc, Frame.vc,
    Scalar.zero_real, List.cons.injEq, Stroke.line.injEq, Point.mk.injEq,
    true_and, and_true]
  ring

theorem twist_nonneg (f : Frame ℝ) : 0 ≤ twist f := (pin_mem _ (by norm_num)).1

/-- The curls have a height exactly if the halves are apart. -/
theorem twistCurl_pos {f : Frame ℝ} (hss : 0 < f.ss) (htwist : twist f ≠ 0) :
    0 < f.shortPart (twist f) / 4 := by
  have := mul_pos hss ((twist_nonneg f).lt_of_ne' htwist)
  simp only [Frame.shortPart]
  positivity

theorem twisted_twists {f : Frame ℝ} (hw : 0 < f.w) (hh : 0 < f.h) :
    Twists (f.w / 2) (headDepth f) (stripTop f) (f.h * strip f / 200000)
      (f.h * twist f / 200000) (f.w / 32) (f.shortPart (twist f) / 4) := by
  obtain ⟨h3, h3'⟩ : 0 ≤ twist f ∧ twist f ≤ 33333 := pin_mem _ (by norm_num)
  obtain ⟨h1, h1'⟩ : 0 ≤ strip f ∧ strip f ≤ 100000 - twist f := pin_mem _ (by linarith)
  have hpos : 0 < f.ss := Frame.ss_pos hw hh
  have hsh : f.ss ≤ f.h := f.ss_le_h
  obtain ⟨h2, h2'⟩ : 0 ≤ headDepth f ∧ headDepth f ≤ 100000 * (f.w / 2 - f.w / 32) / 100000 :=
    shortPart_pinned_mem hpos (by linarith) (by norm_num)
  have hcurl : f.shortPart (twist f) / 4 = f.ss * twist f / 100000 / 4 := rfl
  have hshort := mul_le_mul_of_nonneg_right hsh h3
  have hrise := mul_nonneg hpos.le h3
  have hthick := mul_nonneg hh.le h1
  have hfits := mul_le_mul_of_nonneg_left h1' hh.le
  refine ⟨by positivity, ?_, ?_, ?_, by positivity, h2, by linarith⟩
  · rw [hcurl]
    linarith
  · rw [hcurl]
    linarith
  · rw [stripTop]
    linarith

theorem leftRightRibbon_shades_iff {f : Frame ℝ} (hw : 0 < f.w) (hh : 0 < f.h) :
    ShadesWithin (leftRightRibbon f) ↔ twist f = 0 ∨ headDepth f = f.w / 2 - f.w / 32 ∧
      f.h * twist f / 100000 ≤ stripTop f + f.shortPart (twist f) / 4 := by
  have htwists := twisted_twists hw hh
  have htall : 2 * (f.h * twist f / 200000) = f.h * twist f / 100000 := by ring
  refine (banner_shades_iff (twistedBanner f) .identity).trans ?_
  rw [twisted_body, twisted_folds]
  constructor
  · intro hsub
    by_contra! hne
    refine htwists.not_fold_subset (twistCurl_pos (Frame.ss_pos hw hh) hne.1) ?_ hsub
    rw [htall]
    rcases htwists.head_le.lt_or_eq with hlt | heq
    · exact .inl hlt
    · exact .inr (hne.2 heq)
  · intro h
    refine Set.Subset.trans ?_ (subset_enclosed _)
    rcases eq_or_ne (twist f) 0 with h0 | h0
    · have hflat := flat_fold_subset (y := stripTop f) (d := f.h * strip f / 200000)
        htwists.turn_pos.le htwists.head_le
      simpa [h0, Frame.shortPart] using hflat
    · obtain ⟨hhead, hfold⟩ := h.resolve_left h0
      exact htwists.fold_subset (twistCurl_pos (Frame.ss_pos hw hh) h0) hhead (htall ▸ hfold)

end
end ShapeOutline
