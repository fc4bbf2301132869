import Mathlib
import ShapeOutline.Preset.Sketch
import ShapeOutline.Proofs.EllipseArcs

/-! The outline of a gear, tooth by tooth. A tooth begins where the arc before it ends,
on the ellipse between the teeth; its own arc is less than a half turn, so it is
written as one command, and it turns about the middle of the frame to where the next
tooth begins. After a full turn that is where the first one began. -/

namespace ShapeOutline
noncomputable section

open Shape

/-- Between parametric angles less than a half turn apart an ellipse is seen to sweep by less than a
half turn. -/
theorem sweep_of_parametric {radii : Point ℝ} (hr : radii.Positive) {a b : ℝ} (hab : a < b)
    (hba : b < a + 180) :
    let start := parametricToVisual radii a
    let stop := parametricToVisual radii b
    let sweep := Scalar.emod (stop - start) 360
    0 < sweep ∧ sweep < 180 ∧ bearing (start + sweep) = bearing stop := by
  intro start stop sweep
  obtain ⟨m, hm⟩ := exists_turns_parametricToVisual hr a
  obtain ⟨n, hn⟩ := exists_turns_parametricToVisual hr b
  have hlo := sight_strictMono hr hab
  have hhi := sight_strictMono hr hba
  rw [sight_add_half] at hhi
  have hsweep : sweep = sight radii b - sight radii a := by
    have hturns : stop - start = sight radii b - sight radii a + 360 * ((n - m : ℤ) : ℝ) := by
      simp only [start, stop, hm, hn]
      push_cast
      ring
    simp only [sweep, hturns, emod_add_turns]
    exact emod_of_mem (by linarith) (by linarith)
  have hstop : start + sweep = stop + 360 * ((m - n : ℤ) : ℝ) := by
    simp only [hsweep, start, stop, hm, hn]
    push_cast
    ring
  exact ⟨by linarith, by linarith, by rw [hstop, bearing_add_turns]⟩

theorem polar_add_full (center radii : Point ℝ) (deg : ℝ) :
    polar center radii (deg + 360) = polar center radii deg := by
  have hbearing (deg : ℝ) : polar center radii deg =
      center + ⟨radii.x * (bearing deg).x, radii.y * (bearing deg).y⟩ := rfl
  rw [hbearing, hbearing, bearing_add_full]

namespace Shape.GearGuides

/-- The teeth do not overlap, and neither reaches beyond the ellipse of the frame. -/
structure Fits (g : GearGuides ℝ) (f : Frame ℝ) : Prop where
  tip_nonneg : 0 ≤ g.tipHalf
  tip_lt_root : g.tipHalf < g.rootHalf
  root_lt : g.rootHalf < g.pitch / 2
  pitch_lt : g.pitch < 180
  shrunk : ∃ k : ℝ, 0 < k ∧ k ≤ 1 ∧ g.root = f.half * k

/-- The point between the teeth where tooth `k` begins. -/
def notch (g : GearGuides ℝ) (f : Frame ℝ) (k : ℕ) : Point ℝ :=
  polar f.center g.root (-90 + k * g.pitch - g.rootHalf)

/-- The commands of tooth `k`: up, along the tip, down, and one arc to the next tooth. -/
def toothCommands (g : GearGuides ℝ) (f : Frame ℝ) (k : ℕ) : List (Command ℝ) :=
  let middle := -90 + k * g.pitch
  [.line (polar f.center f.half (middle - g.tipHalf)),
    .line (polar f.center f.half (middle + g.tipHalf)),
    .line (polar f.center g.root (middle + g.rootHalf)), .arc g.root 0 false true (g.notch f (k + 1))]

/-- An arc of the root about the middle of the frame, of less than a half turn, or no arc. -/
structure Rounds (g : GearGuides ℝ) (f : Frame ℝ) (l : Leg) : Prop where
  about : l.About f.center
  short : ∀ radii start sweep, l.stroke = .arc radii start sweep →
    radii = g.root ∧ 0 < sweep ∧ sweep < 180

theorem Rounds.straight {g : GearGuides ℝ} {f : Frame ℝ} {l : Leg} (h : l.stroke.IsStraight) :
    g.Rounds f l := by
  refine ⟨Leg.about_of_straight h, fun radii start sweep hs => ?_⟩
  rw [hs] at h
  exact h.elim

section Guides

variable (f : Frame ℝ) (n : ℕ) (defaultHeight defaultTip mostTip : ℝ)

theorem ofFrame_pitch : (ofFrame f n defaultHeight defaultTip mostTip).pitch = 360 / n := rfl

/-- The angles of a tooth. -/
theorem ofFrame_halves :
    let g := ofFrame f n defaultHeight defaultTip mostTip
    ∃ lean, 0 ≤ lean ∧ g.tipHalf = min lean (g.pitch / 4) ∧
      g.rootHalf = min (g.tipHalf + g.pitch / 8) (g.pitch * (45 / 100)) := by
  intro g
  have hclamp (x : ℝ) : 0 ≤ Scalar.clamp 0 1 x := by
    unfold Scalar.clamp
    split_ifs with h h' <;> simp_all
  have hmost : @OfScientific.ofScientific ℝ instOfScientificScalar 45 true 2 = 45 / 100 := by
    change ((45 : ℕ) : ℝ) / 10 ^ 2 = _
    norm_num
  refine ⟨_, ?_, Scalar.min_real _ _, ?_⟩
  · rw [le_degrees_iff, radians_real, zero_mul, Scalar.zero_real, Scalar.one_real]
    exact Real.arcsin_nonneg.2 (hclamp _)
  · simp only [g, ofFrame, hmost, Scalar.min_real]

variable {f} (hw : 0 < f.w) (hh : 0 < f.h)

include hw hh

/-- The height of a tooth takes at most two fifths of the radius. -/
theorem ofFrame_shrunk : ∃ k : ℝ, 0 < k ∧ k ≤ 1 ∧
    (ofFrame f n defaultHeight defaultTip mostTip).root = f.half * k := by
  have hss := Frame.ss_pos hw hh
  obtain ⟨h, h'⟩ := f.pinned_mem "adj1" defaultHeight (show (0 : ℝ) ≤ 20000 by norm_num)
  set height := f.shortPart (f.pinned "adj1" defaultHeight 0 20000) with hheight
  rw [Frame.shortPart_real] at hheight
  have hlow : 0 ≤ height := by
    rw [hheight]
    positivity
  have hhigh : height ≤ f.ss / 5 := by
    have := mul_le_mul_of_nonneg_left h' hss.le
    linarith
  refine ⟨max (f.ss / 2 - height) 0 / (f.ss / 2), ?_, ?_, ?_⟩
  · rw [max_eq_left (by linarith)]
    exact div_pos (by linarith) (half_pos hss)
  · rw [max_eq_left (by linarith), div_le_one (half_pos hss)]
    linarith
  · rw [← Scalar.max_real, ← divOrZero_real]
    simp only [ofFrame, Scalar.zero_real, hheight, Frame.shortPart_real]

theorem ofFrame_fits (hn : 3 ≤ n) : (ofFrame f n defaultHeight defaultTip mostTip).Fits f := by
  have hn' : (3 : ℝ) ≤ n := by exact_mod_cast hn
  obtain ⟨lean, hlean, htip, hroot⟩ := ofFrame_halves f n defaultHeight defaultTip mostTip
  have hpitch := ofFrame_pitch f n defaultHeight defaultTip mostTip
  have hshrunk := ofFrame_shrunk n defaultHeight defaultTip mostTip hw hh
  set g := ofFrame f n defaultHeight defaultTip mostTip
  have hpos : 0 < g.pitch := by
    rw [hpitch]
    positivity
  have hmost : g.pitch ≤ 120 := by
    rw [hpitch, div_le_iff₀ (by positivity)]
    linarith
  have hquarter : g.tipHalf ≤ g.pitch / 4 := htip.trans_le (min_le_right ..)
  -- so the second bound of the root is never reached
  rw [min_eq_left (by linarith)] at hroot
  have hnonneg : 0 ≤ g.tipHalf := htip.symm ▸ le_min hlean (by positivity)
  exact ⟨hnonneg, by linarith, by linarith, by linarith, hshrunk⟩

end Guides

section Tooth

variable {g : GearGuides ℝ} {f : Frame ℝ} (hg : g.Fits f) (hw : 0 < f.w) (hh : 0 < f.h)

include hg

theorem Fits.root_positive (hw : 0 < f.w) (hh : 0 < f.h) : g.root.Positive := by
  obtain ⟨k, hk, -, hroot⟩ := hg.shrunk
  rw [hroot]
  exact ⟨mul_pos (half_pos hw) hk, mul_pos (half_pos hh) hk⟩

include hw hh

/-- The arc of a tooth, from its foot to where the next one begins. -/
theorem Fits.tooth_eq (k : ℕ) :
    ∃ start sweep stop, 0 < sweep ∧ sweep < 180 ∧ bearing (start + sweep) = bearing stop ∧
      polar f.center g.root (-90 + k * g.pitch + g.rootHalf) =
        ellipsePoint f.center g.root start ∧
      g.notch f (k + 1) = ellipsePoint f.center g.root stop ∧
      g.tooth f k =
        [.line (polar f.center f.half (-90 + k * g.pitch - g.tipHalf)),
          .line (polar f.center f.half (-90 + k * g.pitch + g.tipHalf)),
          .line (ellipsePoint f.center g.root start), .arc g.root start sweep] := by
  have hr := hg.root_positive hw hh
  have hnext : -90 + ((k + 1 : ℕ) : ℝ) * g.pitch - g.rootHalf =
      -90 + k * g.pitch + g.pitch - g.rootHalf := by
    push_cast
    ring
  have htip := hg.tip_nonneg
  have htip' := hg.tip_lt_root
  have hroot := hg.root_lt
  have hpitch := hg.pitch_lt
  obtain ⟨hpos, hlt, hstop⟩ := sweep_of_parametric hr
    (a := -90 + k * g.pitch + g.rootHalf) (b := -90 + k * g.pitch + g.pitch - g.rootHalf)
    (by linarith) (by linarith)
  refine ⟨_, _, _, hpos, hlt, hstop, polar_eq hr _ _, ?_, ?_⟩
  · rw [notch, hnext, polar_eq hr]
  · rw [← polar_eq hr]
    rfl

/-- A tooth is three lines and one arc, wherever the pen is. -/
theorem Fits.draw_tooth (p : Path ℝ) (k : ℕ) :
    p.draw (g.tooth f k) = ⟨p.commands ++ g.toothCommands f k, g.notch f (k + 1), p.start⟩ := by
  have hr := hg.root_positive hw hh
  obtain ⟨start, sweep, stop, hpos, hlt, hstop, hfoot, hnotch, htooth⟩ := hg.tooth_eq hw hh k
  have hend : arcEnd (ellipsePoint f.center g.root start) g.root start sweep =
      g.notch f (k + 1) := by
    rw [arcEnd, arcCenter_ellipsePoint, hnotch, ellipsePoint_eq, ellipsePoint_eq,
      spoke_congr hr hstop]
  have hshort : |sweep| ≤ 180 := by
    rw [abs_of_pos hpos]
    exact hlt.le
  -- the three lines leave the pen at the foot
  set q := p.draw (Sketch.lines [polar f.center f.half (-90 + k * g.pitch - g.tipHalf),
    polar f.center f.half (-90 + k * g.pitch + g.tipHalf), ellipsePoint f.center g.root start])
    with hq
  have hdraw : p.draw (g.tooth f k) = q.arcTo g.root start sweep := by
    rw [htooth]
    rfl
  have hpen : q.pen = ellipsePoint f.center g.root start := rfl
  have hcommands : q.commands = p.commands ++
      [.line (polar f.center f.half (-90 + k * g.pitch - g.tipHalf)),
        .line (polar f.center f.half (-90 + k * g.pitch + g.tipHalf)),
        .line (ellipsePoint f.center g.root start)] := Path.draw_lines _ p
  rw [hdraw, Path.arcTo_short q hr hpos.ne' hshort, hpen, hend, decide_eq_true hpos]
  simp only [Path.push, hcommands, toothCommands, hfoot, List.append_assoc]
  rfl

/-- The arc of a tooth turns about the middle of the frame, by less than a half turn. -/
theorem Fits.tooth_legs (t : Trail) (k : ℕ) :
    ∀ l ∈ (Path.bare t).legs (g.tooth f k), g.Rounds f l := by
  have hr := hg.root_positive hw hh
  obtain ⟨start, sweep, stop, hpos, hlt, hstop, -, -, htooth⟩ := hg.tooth_eq hw hh k
  have hturn : |sweep| ≤ 360 := by
    rw [abs_of_pos hpos]
    linarith
  rw [htooth]
  simp only [Path.legs_line, Path.legs_along _ hr hpos.ne' hturn hstop, Path.legs_nil,
    List.forall_mem_cons]
  refine ⟨.straight trivial, .straight trivial, .straight trivial,
    ⟨Leg.about_arc fun _ => rfl, ?_⟩, by simp⟩
  rintro _ _ _ ⟨⟩
  exact ⟨rfl, hpos, hlt⟩

/-- After the first `k` teeth the pen is where the next one begins. -/
theorem Fits.draw_teeth {p : Path ℝ} (hp : p.pen = g.notch f 0) (k : ℕ) :
    p.draw ((List.range k).flatMap (g.tooth f)) =
      ⟨p.commands ++ (List.range k).flatMap (g.toothCommands f), g.notch f k, p.start⟩ := by
  induction k with
  | zero =>
    rw [← hp]
    simp [Path.draw]
  | succ k ih =>
    rw [List.range_succ, List.flatMap_append, List.flatMap_append, List.flatMap_singleton,
      List.flatMap_singleton, Path.draw, List.foldl_append, ← Path.draw, ← Path.draw, ih,
      hg.draw_tooth hw hh, List.append_assoc]

theorem Fits.teeth_legs (p : Path ℝ) (k : ℕ) :
    ∀ l ∈ p.legs ((List.range k).flatMap (g.tooth f)), g.Rounds f l := by
  induction k with
  | zero => simp
  | succ k ih =>
    intro l hl
    rw [List.range_succ, List.flatMap_append, List.flatMap_singleton, Path.legs_append,
      List.mem_append] at hl
    rcases hl with hl | hl
    · exact ih l hl
    · rw [← Path.legs_bare] at hl
      exact hg.tooth_legs hw hh _ k l hl

/-- Every vertex is on one of two ellipses, of which the frame's is the larger. -/
theorem Fits.vertex_inEllipse (deg : ℝ) :
    InEllipse f.center f.half (polar f.center f.half deg) ∧
      InEllipse f.center f.half (polar f.center g.root deg) := by
  have hhalf : f.half.Positive := ⟨half_pos hw, half_pos hh⟩
  have hr := hg.root_positive hw hh
  obtain ⟨k, hk, hk1, hroot⟩ := hg.shrunk
  refine ⟨(onEllipse_spoke hhalf f.center _).le, ?_⟩
  rw [hroot] at hr ⊢
  exact OnEllipse.inEllipse hk hk1 (onEllipse_spoke hr f.center _)

end Tooth

end Shape.GearGuides

/-- The outline of a gear of `n` teeth. -/
structure GearOutline (n : ℕ) (g : GearGuides ℝ) (f : Frame ℝ) (s : Sketch ℝ) : Prop where
  pitch : g.pitch = 360 / n
  fits : g.Fits f
  /-- Three lines and one arc for each tooth. -/
  commands : s.path.commands =
    .move (g.notch f 0) :: (List.range n).flatMap (g.toothCommands f) ++ [.close]
  /-- Every arc turns about the middle of the frame, by less than a half turn. -/
  legs : ∀ l ∈ Path.empty.legs s, g.Rounds f l
  /-- After `k` teeth the pen is where the next one begins. -/
  pen : ∀ k ≤ n, (Sketch.path (s.take (4 * k + 1))).pen = g.notch f k
  closes : g.notch f n = g.notch f 0
  inside : ∀ q ∈ marksOf s.path.commands, InEllipse f.center f.half q

section Outline

variable (n : ℕ) (g : GearGuides ℝ) (f : Frame ℝ)

/-- The strokes of a gear with the given guides. -/
def gearOf : Sketch ℝ :=
  .move (g.notch f 0) :: (List.range n).flatMap (g.tooth f) ++ [.close]

theorem gear_eq (defaultHeight defaultTip mostTip : ℝ) :
    gear n defaultHeight defaultTip mostTip f =
      gearOf n (GearGuides.ofFrame f n defaultHeight defaultTip mostTip) f := by
  simp [gear, gearOf, GearGuides.notch]

theorem teeth_length (k : ℕ) : ((List.range k).flatMap (g.tooth f)).length = 4 * k := by
  induction k with
  | zero => rfl
  | succ k ih =>
    rw [List.range_succ, List.flatMap_append, List.length_append, ih, List.flatMap_singleton]
    rfl

variable {n}

theorem gearOf_take {k : ℕ} (hk : k ≤ n) : (gearOf n g f).take (4 * k + 1) =
    .move (g.notch f 0) :: (List.range k).flatMap (g.tooth f) := by
  obtain ⟨m, rfl⟩ := Nat.exists_eq_add_of_le hk
  rw [gearOf, List.cons_append, List.take_succ_cons, List.range_add, List.flatMap_append,
    List.append_assoc, List.take_left' (teeth_length g f k)]

variable {g f} (hg : g.Fits f) (hw : 0 < f.w) (hh : 0 < f.h)

include hg hw hh

theorem draw_gearOf (k : ℕ) :
    Sketch.path (.move (g.notch f 0) :: (List.range k).flatMap (g.tooth f)) =
      ⟨.move (g.notch f 0) :: (List.range k).flatMap (g.toothCommands f), g.notch f k,
        g.notch f 0⟩ :=
  hg.draw_teeth hw hh (p := Path.empty.push (.move (g.notch f 0))) rfl k

theorem gearOf_legs : ∀ l ∈ Path.empty.legs (gearOf n g f), g.Rounds f l := by
  have hmove : Path.empty.legs (gearOf n g f) =
      ⟨Path.empty.trail, .move (g.notch f 0), g.notch f 0⟩ ::
        (Path.empty.push (.move (g.notch f 0))).legs
          ((List.range n).flatMap (g.tooth f) ++ [.close]) := rfl
  rw [hmove, Path.legs_append, List.forall_mem_cons, List.forall_mem_append]
  refine ⟨⟨Leg.about_move, by rintro _ _ _ ⟨⟩⟩, hg.teeth_legs hw hh _ n, fun l hl => ?_⟩
  rw [← Path.legs_bare, Path.legs_close, Path.legs_nil, List.mem_singleton] at hl
  rw [hl]
  exact .straight trivial

theorem gearOf_commands : (gearOf n g f).path.commands =
    .move (g.notch f 0) :: (List.range n).flatMap (g.toothCommands f) ++ [.close] := by
  have hpath : (gearOf n g f).path =
      (Sketch.path (.move (g.notch f 0) :: (List.range n).flatMap (g.tooth f))).push .close :=
    List.foldl_append
  rw [hpath, draw_gearOf hg hw hh]
  rfl

theorem gearOf_inside : ∀ q ∈ marksOf (gearOf n g f).path.commands,
    InEllipse f.center f.half q := by
  have hvertex := hg.vertex_inEllipse hw hh
  rw [gearOf_commands hg hw hh]
  rintro q ⟨c, hc, hq⟩
  rw [List.cons_append, List.mem_cons, List.mem_append, List.mem_singleton] at hc
  obtain rfl | hc | rfl := hc
  · rw [Set.mem_singleton_iff.1 hq]
    exact (hvertex _).2
  · obtain ⟨k, -, hc⟩ := List.mem_flatMap.1 hc
    simp only [GearGuides.toothCommands, List.mem_cons, List.not_mem_nil, or_false] at hc
    obtain rfl | rfl | rfl | rfl := hc <;> rw [Set.mem_singleton_iff.1 hq]
    · exact (hvertex _).1
    · exact (hvertex _).1
    · exact (hvertex _).2
    · exact (hvertex _).2
  · exact absurd hq (Set.notMem_empty q)

omit hg hw hh

/-- After a full turn the next tooth would be the first one. -/
theorem notch_full (hn : 0 < n) (hpitch : g.pitch = 360 / n) : g.notch f n = g.notch f 0 := by
  have hn' : (n : ℝ) ≠ 0 := by exact_mod_cast hn.ne'
  have hturn : -90 + n * g.pitch - g.rootHalf =
      -90 + ((0 : ℕ) : ℝ) * g.pitch - g.rootHalf + 360 := by
    rw [hpitch, mul_div_cancel₀ _ hn', Nat.cast_zero]
    ring
  rw [GearGuides.notch, hturn, polar_add_full, GearGuides.notch]

end Outline

/-- A gear of three teeth or more closes in every frame and with all adjustments. -/
theorem gear_closes {n : ℕ} (hn : 3 ≤ n) {f : Frame ℝ} (hw : 0 < f.w) (hh : 0 < f.h)
    (defaultHeight defaultTip mostTip : ℝ) :
    GearOutline n (GearGuides.ofFrame f n defaultHeight defaultTip mostTip) f
      (gear n defaultHeight defaultTip mostTip f) := by
  have hg := GearGuides.ofFrame_fits n defaultHeight defaultTip mostTip hw hh hn
  have hpitch := GearGuides.ofFrame_pitch f n defaultHeight defaultTip mostTip
  rw [gear_eq]
  set g := GearGuides.ofFrame f n defaultHeight defaultTip mostTip
  refine ⟨hpitch, hg, gearOf_commands hg hw hh, gearOf_legs hg hw hh, fun k hk => ?_,
    notch_full (by omega) hpitch, gearOf_inside hg hw hh⟩
  rw [gearOf_take g f hk, draw_gearOf hg hw hh]

/-- The gear of nine teeth in a frame that is not square. -/
theorem gear9_closes :
    let f : Frame ℝ := ⟨200, 100, .empty⟩
    3 ≤ 9 ∧ (0 < f.w ∧ 0 < f.h) ∧
      GearOutline 9 (GearGuides.ofFrame f 9 10000 1763 2679) f (Preset.gear9.sketch f) := by
  intro f
  have hw : 0 < f.w := by norm_num [f]
  have hh : 0 < f.h := by norm_num [f]
  exact ⟨by norm_num, ⟨hw, hh⟩, gear_closes (by norm_num) hw hh 10000 1763 2679⟩

end
end ShapeOutline
