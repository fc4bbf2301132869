import Mathlib
import ShapeOutline.Preset.Sketch
import ShapeOutline.Proofs.BaseLine
import ShapeOutline.Proofs.CustomFit
import ShapeOutline.Proofs.FrameParts

/-! Circular arrows. The radii of an arrow are nested, its heads keep to them, and so
the outline stays in the ellipse that is inscribed in the frame. The arcs of the band
turn about the centre by a full turn at most and end where the heads begin. -/

namespace ShapeOutline
noncomputable section

theorem emod_real (x m : ℝ) : Scalar.emod x m = x - |m| * ⌊x / |m|⌋ := rfl

theorem exists_turns_emod (x : ℝ) : ∃ n : ℤ, Scalar.emod x 360 = x + 360 * n := by
  refine ⟨-⌊x / 360⌋, ?_⟩
  rw [emod_real, abs_of_pos (by norm_num)]
  push_cast
  ring

theorem emod_mem (x : ℝ) : 0 ≤ Scalar.emod x 360 ∧ Scalar.emod x 360 < 360 := by
  rw [emod_real, abs_of_pos (by norm_num)]
  have hlo := Int.floor_le (x / 360)
  have hhi := Int.lt_floor_add_one (x / 360)
  rw [le_div_iff₀ (by norm_num)] at hlo
  rw [div_lt_iff₀ (by norm_num)] at hhi
  constructor <;> linarith

theorem emod_add_turns (x : ℝ) (n : ℤ) : Scalar.emod (x + 360 * n) 360 = Scalar.emod x 360 := by
  have hfloor : ⌊(x + 360 * n) / 360⌋ = ⌊x / 360⌋ + n := by
    rw [add_div, mul_div_cancel_left₀ _ (by norm_num), Int.floor_add_intCast]
  rw [emod_real, emod_real, abs_of_pos (by norm_num), hfloor]
  push_cast
  ring

theorem emod_of_mem {x : ℝ} (h0 : 0 ≤ x) (h : x < 360) : Scalar.emod x 360 = x := by
  have hfloor : ⌊x / 360⌋ = 0 := by
    rw [Int.floor_eq_zero_iff, Set.mem_Ico, le_div_iff₀ (by norm_num), div_lt_one (by norm_num)]
    exact ⟨by linarith, h⟩
  rw [emod_real, abs_of_pos (by norm_num), hfloor, Int.cast_zero, mul_zero, sub_zero]

/-- The angle is read off up to whole turns. -/
theorem exists_turns_angle {r : ℝ} (hr : 0 < r) (deg : ℝ) :
    ∃ n : ℤ, (bearing deg * r).angle = deg + 360 * n := by
  have hheading : ∃ n : ℤ, (bearing deg * r).heading = deg + 360 * n := by
    have hpolar : (⟨(bearing deg * r).x, (bearing deg * r).y⟩ : ℂ) =
        r * (Real.Angle.cos (radians deg : ℝ) + Real.Angle.sin (radians deg : ℝ) * Complex.I) := by
      apply Complex.ext <;> simp [bearing, mul_comm, -Complex.ofReal_cos, -Complex.ofReal_sin]
    have harg := Complex.arg_mul_cos_add_sin_mul_I_coe_angle hr (radians deg : ℝ)
    rw [← hpolar] at harg
    obtain ⟨n, hn⟩ := Real.Angle.angle_eq_iff_two_pi_dvd_sub.1 harg
    refine ⟨n, ?_⟩
    have hrad : Complex.arg ⟨(bearing deg * r).x, (bearing deg * r).y⟩ =
        radians deg + radians (360 * (n : ℝ)) := by
      rw [radians_turns]
      linarith
    change degrees (Complex.arg ⟨(bearing deg * r).x, (bearing deg * r).y⟩) = _
    rw [hrad, degrees_add, degrees_radians, degrees_radians]
  obtain ⟨n, hn⟩ := hheading
  obtain ⟨k, hk⟩ := exists_turns_emod (bearing deg * r).heading
  refine ⟨n + k, ?_⟩
  have hangle : (bearing deg * r).angle = Scalar.emod (bearing deg * r).heading 360 := rfl
  rw [hangle, hk, hn]
  push_cast
  ring

theorem bearing_angle {r : ℝ} (hr : 0 < r) (deg : ℝ) :
    bearing (bearing deg * r).angle = bearing deg := by
  obtain ⟨n, hn⟩ := exists_turns_angle hr deg
  rw [hn, bearing_add_turns]

namespace Shape

/-- An angle within a half turn is what a fold of it and any turns leaves. -/
theorem foldTurn_add_turns {off : ℝ} (hlo : -180 ≤ off) (hhi : off < 180) (n : ℤ) :
    foldTurn (off + 360 * n) = off := by
  have hfold : foldTurn (off + 360 * n) = Scalar.emod (off + 180 + 360 * n) 360 - 180 := by
    rw [add_right_comm]
    rfl
  rw [hfold, emod_add_turns, emod_of_mem (by linarith) (by linarith), add_sub_cancel_right]

/-- The offset of a vector from an angle is read off it. -/
theorem foldTurn_angle {r : ℝ} (hr : 0 < r) (deg : ℝ) {off : ℝ} (hoff : |off| ≤ 90) :
    foldTurn ((bearing (deg + off) * r).angle - deg) = off := by
  obtain ⟨hlo, hhi⟩ := abs_le.1 hoff
  obtain ⟨n, hn⟩ := exists_turns_angle hr (deg + off)
  have hdiff : deg + off + 360 * n - deg = off + 360 * n := by ring
  rw [hn, hdiff, foldTurn_add_turns (by linarith) (by linarith)]

/-- The edge of a band from `a` to `b` on the circle of radius `r`: a sweep of a full turn at most
leads from the one to the other, and back. -/
structure Edge (r : ℝ) (a b : Point ℝ) (sweep : ℝ) : Prop where
  start : bearing a.angle * r = a
  stop : bearing b.angle * r = b
  forth : bearing (a.angle + sweep) * r = b
  back : bearing (b.angle + -sweep) * r = a
  le : sweep ≤ 360

/-- The sweep of an edge is found from the offsets of its ends from two angles. -/
theorem Edge.of_offsets {r : ℝ} (hr : 0 < r) {first last off off' : ℝ} (hoff : |off| ≤ 90)
    (hoff' : |off'| ≤ 90) (hle : last - first + off' - off ≤ 360) {a b : Point ℝ}
    (ha : a = bearing (first + off) * r) (hb : b = bearing (last + off') * r) :
    Edge r a b (last - first + foldTurn (b.angle - last) - foldTurn (a.angle - first)) := by
  rw [ha, hb, foldTurn_angle hr first hoff, foldTurn_angle hr last hoff']
  obtain ⟨n, hn⟩ := exists_turns_angle hr (first + off)
  obtain ⟨k, hk⟩ := exists_turns_angle hr (last + off')
  have hforth : first + off + 360 * n + (last - first + off' - off) = last + off' + 360 * n := by
    ring
  have hback : last + off' + 360 * k + -(last - first + off' - off) = first + off + 360 * k := by
    ring
  exact
    { start := by rw [bearing_angle hr]
      stop := by rw [bearing_angle hr]
      forth := by rw [hn, hforth, bearing_add_turns]
      back := by rw [hk, hback, bearing_add_turns]
      le := hle }

structure BandRadii.Nested (r : BandRadii ℝ) : Prop where
  headInner_nonneg : 0 ≤ r.headInner
  headInner_le : r.headInner ≤ r.bandInner
  bandInner_le : r.bandInner ≤ r.mid
  mid_le : r.mid ≤ r.bandOuter
  bandOuter_le : r.bandOuter ≤ r.headOuter

/-- The corners of a head keep to the radii named after them, and the tip to the middle of the
band. -/
structure ArcHead.OnRadii (head : ArcHead ℝ) (r : BandRadii ℝ) : Prop where
  tip : head.tip.norm = r.mid
  outerHead : head.outerHead.norm = r.headOuter
  outerBand : head.outerBand.norm = r.bandOuter
  innerBand : head.innerBand.norm = r.bandInner
  innerHead : head.innerHead.norm = r.headInner

/-- No point of a head is further out than its corner. -/
theorem ArcHead.OnRadii.norm_le {head : ArcHead ℝ} {r : BandRadii ℝ} (h : head.OnRadii r)
    (hr : r.Nested) : ∀ q ∈ [head.outerHead, head.tip, head.innerHead, head.innerBand],
      q.norm ≤ r.headOuter := by
  have hmid := hr.mid_le.trans hr.bandOuter_le
  have hinner := hr.bandInner_le.trans hmid
  simp only [List.forall_mem_cons, h.outerHead, h.tip, h.innerHead, h.innerBand]
  exact ⟨le_rfl, hmid, hr.headInner_le.trans hinner, hinner, by simp⟩

section Radii

variable {f : Frame ℝ} (hss : 0 < f.ss) (defaultBand defaultHead : ℝ)
include hss

theorem BandRadii.ofFrame_nested :
    let r := ofFrame f defaultBand defaultHead
    r.Nested ∧ r.headOuter = f.ss / 2 ∧ 0 < r.mid := by
  intro r
  set head := f.pinned "adj5" defaultHead 0 25000 with hhead
  set band := f.pinned "adj1" defaultBand 0 (2 * head) with hband
  obtain ⟨hhead0, hhead1⟩ : 0 ≤ head ∧ head ≤ 25000 := pin_mem _ (by norm_num)
  obtain ⟨hband0, hband1⟩ : 0 ≤ band ∧ band ≤ 2 * head := pin_mem _ (by linarith)
  have hhalf : f.shortPart head ≤ f.ss / 4 := by
    change f.ss * head / 100000 ≤ _
    nlinarith
  have hhalf0 : 0 ≤ f.shortPart head := by
    change 0 ≤ f.ss * head / 100000
    positivity
  have hthick : f.shortPart band ≤ 2 * f.shortPart head := by
    change f.ss * band / 100000 ≤ 2 * (f.ss * head / 100000)
    nlinarith
  have hthick0 : 0 ≤ f.shortPart band := by
    change 0 ≤ f.ss * band / 100000
    positivity
  have houter : r.bandOuter = f.ss / 2 + f.shortPart band / 2 - f.shortPart head := by
    simp [r, ofFrame, hhead, hband]
  have hmid : r.mid = r.bandOuter - f.shortPart band / 2 := by simp [r, ofFrame, hhead, hband]
  have hinner : r.bandInner = r.bandOuter - f.shortPart band := by
    simp [r, ofFrame, hhead, hband]
  have hheadOuter : r.headOuter = r.mid + f.shortPart head := by simp [r, ofFrame, hhead]
  have hheadInner : r.headInner = max (r.mid - f.shortPart head) 0 := by
    rw [← Scalar.max_real, ← Scalar.zero_real]
    simp [r, ofFrame, hhead]
  rw [max_eq_left (by linarith)] at hheadInner
  refine ⟨⟨?_, ?_, ?_, ?_, ?_⟩, ?_, ?_⟩ <;> linarith

end Radii

theorem ArcHead.solve_onRadii {r : BandRadii ℝ} (hr : r.Nested) (hmid : 0 < r.mid) (deg tip : ℝ) :
    (solve r deg tip).OnRadii r := by
  have htip : tip = deg + (tip - deg) := by ring
  have hinner := hr.headInner_nonneg.trans hr.headInner_le
  have hcorner {m : ℝ} (hm : 0 ≤ m) :
      (headCorner (unitAt deg * r.mid) (unitAt tip * r.mid) deg m).norm = m := by
    rw [htip]
    exact headCorner_norm deg _ hmid hm
  have houter := hmid.le.trans hr.mid_le
  exact
    { tip := (norm_bearing_mul tip r.mid).trans (abs_of_pos hmid)
      outerHead := hcorner (houter.trans hr.bandOuter_le)
      outerBand := hcorner houter
      innerBand := hcorner hinner
      innerHead := hcorner hr.headInner_nonneg }

theorem sweepBetween_le (start stop : ℝ) : sweepBetween start stop ≤ 360 := by
  have hmem := emod_mem (stop - start)
  have hsweep : sweepBetween start stop =
      if Scalar.emod (stop - start) 360 = 0 then 360 else Scalar.emod (stop - start) 360 := by
    simp [sweepBetween]
  rw [hsweep]
  split_ifs
  · exact le_rfl
  · exact hmem.2.le

theorem Turn.ofFrame_mem (c : CircularKind ℝ) (f : Frame ℝ) :
    (ofFrame c f).sweep ≤ 360 ∧ 0 ≤ (ofFrame c f).head := by
  refine ⟨sweepBetween_le _ _, ?_⟩
  rw [← Scalar.zero_real]
  exact le_pin _ _ _

namespace CircularSolution

variable (c : CircularKind ℝ) (f : Frame ℝ)

/-- Where an edge of the band begins, with or without a head there. -/
def bandStart (r : ℝ) : Point ℝ :=
  let t := Turn.ofFrame c f
  let mid := (BandRadii.ofFrame f c.band c.head).mid
  if c.doubleHeaded then
    headCorner (unitAt t.start * mid) (unitAt (t.start - t.head) * mid) t.start r
  else unitAt t.start * r

/-- Where it reaches the front head. -/
def bandStop (r : ℝ) : Point ℝ :=
  let t := Turn.ofFrame c f
  let mid := (BandRadii.ofFrame f c.band c.head).mid
  headCorner (unitAt t.base * mid) (unitAt (t.start + t.sweep) * mid) t.base r

/-- The sweep between them; where the heads overlap it is negative, and nothing is drawn. -/
def bandSweep (r : ℝ) : ℝ :=
  let t := Turn.ofFrame c f
  t.base - t.start + foldTurn ((bandStop c f r).angle - t.base) -
    foldTurn ((bandStart c f r).angle - t.start)

variable {f} (hss : 0 < f.ss)
include hss

theorem bandStart_leans {r : ℝ} (hr : 0 < r) :
    ∃ off : ℝ, bandStart c f r = bearing ((Turn.ofFrame c f).start + off) * r ∧
      Leans (-(Turn.ofFrame c f).head) (BandRadii.ofFrame f c.band c.head).mid r off := by
  unfold bandStart
  split_ifs
  · exact headCorner_leans _ _ (BandRadii.ofFrame_nested hss c.band c.head).2.2 hr
  · exact ⟨0, by rw [add_zero]; rfl, .zero _ _ _⟩

theorem band_edge {r : ℝ} (hr : 0 < r) :
    Edge r (bandStart c f r) (bandStop c f r) (bandSweep c f r) := by
  set t := Turn.ofFrame c f with ht
  obtain ⟨hsweep, hhead⟩ := Turn.ofFrame_mem c f
  obtain ⟨off, hstart, hleans⟩ := bandStart_leans c hss hr
  obtain ⟨off', hstop, hleans'⟩ := headCorner_leans t.base t.head
    (BandRadii.ofFrame_nested hss c.band c.head).2.2 hr
  have htip : t.base + t.head = t.start + t.sweep := sub_add_cancel _ _
  have hbody : t.base - t.start = t.sweep - t.head := by
    change t.start + t.sweep - t.head - t.start = _
    ring
  have hle := Leans.sub_le hhead hleans' hleans
  rw [htip] at hstop
  refine Edge.of_offsets hr hleans.acute hleans'.acute ?_ hstart hstop
  rw [← ht, hbody]
  linarith

omit hss

theorem outerStart_eq :
    (ofFrame c f).outerStart = bandStart c f (BandRadii.ofFrame f c.band c.head).bandOuter := by
  cases h : c.doubleHeaded <;> simp [ofFrame, bandStart, h, ArcHead.solve]

theorem innerStart_eq :
    (ofFrame c f).innerStart = bandStart c f (BandRadii.ofFrame f c.band c.head).bandInner := by
  cases h : c.doubleHeaded <;> simp [ofFrame, bandStart, h, ArcHead.solve]

theorem outerSweep_eq :
    (ofFrame c f).outerSweep =
      max (bandSweep c f (BandRadii.ofFrame f c.band c.head).bandOuter) 0 := by
  rw [bandSweep, ← outerStart_eq, ← Scalar.max_real, ← Scalar.zero_real]
  rfl

theorem innerSweep_eq :
    (ofFrame c f).innerSweep =
      max (bandSweep c f (BandRadii.ofFrame f c.band c.head).bandInner) 0 := by
  rw [bandSweep, ← innerStart_eq, ← Scalar.max_real, ← Scalar.zero_real]
  rfl

variable {c}

theorem outer_edge (hss : 0 < f.ss) :
    ∃ sweep, (ofFrame c f).outerSweep = max sweep 0 ∧
      Edge (ofFrame c f).radii.bandOuter (ofFrame c f).outerStart
        (ofFrame c f).front.outerBand sweep := by
  obtain ⟨hnested, -, hmid⟩ := BandRadii.ofFrame_nested hss c.band c.head
  rw [outerStart_eq]
  exact ⟨_, outerSweep_eq c, band_edge c hss (hmid.trans_le hnested.mid_le)⟩

theorem inner_edge (hss : 0 < f.ss) (h : 0 < (ofFrame c f).radii.bandInner) :
    ∃ sweep, (ofFrame c f).innerSweep = max sweep 0 ∧
      Edge (ofFrame c f).radii.bandInner (ofFrame c f).innerStart
        (ofFrame c f).front.innerBand sweep := by
  rw [innerStart_eq]
  exact ⟨_, innerSweep_eq c, band_edge c hss h⟩

end CircularSolution

end Shape

/-- Within an ellipse or on it. -/
def InEllipse (center radii p : Point ℝ) : Prop :=
  ((p.x - center.x) / radii.x) ^ 2 + ((p.y - center.y) / radii.y) ^ 2 ≤ 1

theorem OnEllipse.inEllipse {center radii p : Point ℝ} {k : ℝ} (hk : 0 < k) (hk1 : k ≤ 1)
    (h : OnEllipse center (radii * k) p) : InEllipse center radii p := by
  have hsame (d v : ℝ) : d / v = d / (v * k) * k := by
    rw [← div_div, div_mul_cancel₀ _ hk.ne']
  have hsum : ((p.x - center.x) / radii.x) ^ 2 + ((p.y - center.y) / radii.y) ^ 2 = k ^ 2 := by
    rw [hsame _ radii.x, hsame _ radii.y, mul_pow, mul_pow, ← add_mul]
    exact (congrArg (· * k ^ 2) h).trans (one_mul _)
  rw [InEllipse, hsum]
  exact pow_le_one₀ hk.le hk1

theorem DrawsArc.marks_onEllipse {center radii a b q : Point ℝ} {cs : List (Command ℝ)}
    (hr : radii.Positive) (h : DrawsArc center radii a b cs) (hq : q ∈ marksOf cs) :
    OnEllipse center radii q := by
  obtain ⟨deg, sweep, sweeps, hpieces, -⟩ := h.pieces
  rw [hpieces.chain] at hq
  obtain ⟨p, hp, rfl⟩ := marksOf_chain_subset _ _ _ _ _ hq
  rw [hpieces.curve] at hp
  change OnEllipse center radii (p.stretch .one)
  rw [Point.stretch_one]
  exact onEllipse_of_mem_arcCurve hr hp

theorem marksOf_lines (ps : List (Point ℝ)) : marksOf (ps.map Command.line) = {q | q ∈ ps} := by
  ext q
  simp [marksOf, Command.marks]

theorem Path.draw_lines (ps : List (Point ℝ)) (p : Path ℝ) :
    (p.draw (Sketch.lines ps)).commands = p.commands ++ ps.map Command.line := by
  induction ps generalizing p with
  | nil => exact (List.append_nil _).symm
  | cons a rest ih =>
    change ((p.push (.line a)).draw (Sketch.lines rest)).commands = _
    rw [ih]
    exact List.append_assoc _ _ _

namespace Shape

namespace Oval

variable {f : Frame ℝ} (hss : 0 < f.ss) (flip : Bool)
include hss

theorem ofFrame_scale {r : ℝ} : (ofFrame f flip).scale * r = f.half * (r / (f.ss / 2)) := by
  have hscale : (ofFrame f flip).scale = ⟨f.w / 2 / (f.ss / 2), f.h / 2 / (f.ss / 2)⟩ := by
    simp [ofFrame, hss]
  rw [hscale]
  ext
  · change f.w / 2 / (f.ss / 2) * r = f.w / 2 * (r / (f.ss / 2))
    ring
  · change f.h / 2 / (f.ss / 2) * r = f.h / 2 * (r / (f.ss / 2))
    ring

theorem radii_positive (hw : 0 < f.w) (hh : 0 < f.h) {r : ℝ} (hr : 0 < r) :
    ((ofFrame f flip).scale * r).Positive := by
  have hk : 0 < r / (f.ss / 2) := div_pos hr (half_pos hss)
  rw [ofFrame_scale hss]
  exact ⟨mul_pos (half_pos hw) hk, mul_pos (half_pos hh) hk⟩

theorem point_inEllipse (hw : 0 < f.w) (hh : 0 < f.h) {q : Point ℝ} (hq : q.norm ≤ f.ss / 2) :
    InEllipse f.center f.half ((ofFrame f flip).point q) := by
  have hx : ((ofFrame f flip).point q).x - f.center.x = q.x / (f.ss / 2) * f.half.x := by
    have hpoint : ((ofFrame f flip).point q).x = f.center.x + q.x * (f.w / 2 / (f.ss / 2)) := by
      cases flip <;> simp [ofFrame, point, hss]
    rw [hpoint, add_sub_cancel_left]
    change _ = q.x / (f.ss / 2) * (f.w / 2)
    ring
  have hy : (((ofFrame f flip).point q).y - f.center.y) ^ 2 =
      (q.y / (f.ss / 2) * f.half.y) ^ 2 := by
    have hpoint : ((ofFrame f flip).point q).y =
        f.center.y + (if flip then -q.y else q.y) * (f.h / 2 / (f.ss / 2)) := by
      cases flip <;> simp [ofFrame, point, hss]
    rw [hpoint, add_sub_cancel_left]
    change _ = (q.y / (f.ss / 2) * (f.h / 2)) ^ 2
    split_ifs <;> ring
  have hhalf : f.half.Positive := ⟨half_pos hw, half_pos hh⟩
  have hnorm : (q.x / (f.ss / 2)) ^ 2 + (q.y / (f.ss / 2)) ^ 2 = (q.norm / (f.ss / 2)) ^ 2 := by
    have hsq : q.norm ^ 2 = q.x ^ 2 + q.y ^ 2 := by
      rw [norm_real, Real.sq_sqrt (by positivity)]
    rw [div_pow q.x, div_pow q.y, div_pow q.norm, hsq, add_div]
  rw [InEllipse, div_pow _ f.half.y, hx, hy, ← div_pow, mul_div_cancel_right₀ _ hhalf.1.ne',
    mul_div_cancel_right₀ _ hhalf.2.ne', hnorm]
  have h0 : 0 ≤ q.norm := by
    rw [norm_real]
    positivity
  exact pow_le_one₀ (by positivity) ((div_le_one (by positivity)).2 hq)

theorem lines_inEllipse (hw : 0 < f.w) (hh : 0 < f.h) {ps : List (Point ℝ)}
    (hps : ∀ q ∈ ps, q.norm ≤ f.ss / 2) :
    ∀ q ∈ marksOf ((ps.map (ofFrame f flip).point).map Command.line),
      InEllipse f.center f.half q := by
  rw [marksOf_lines]
  rintro q hq
  obtain ⟨p, hp, rfl⟩ := List.mem_map.1 hq
  exact point_inEllipse hss flip hw hh (hps p hp)

theorem arc_inEllipse (hw : 0 < f.w) (hh : 0 < f.h) {r : ℝ} (hr : 0 < r) (hle : r ≤ f.ss / 2)
    {p p' : Point ℝ} {cs : List (Command ℝ)}
    (hcs : DrawsArc f.center ((ofFrame f flip).scale * r) p p' cs) :
    ∀ q ∈ marksOf cs, InEllipse f.center f.half q := by
  intro q hq
  have hon := hcs.marks_onEllipse (radii_positive hss flip hw hh hr) hq
  rw [ofFrame_scale hss] at hon
  exact hon.inEllipse (div_pos hr (half_pos hss)) ((div_le_one (half_pos hss)).2 hle)

omit hss in
theorem stroke_arc_zero (s : Oval ℝ) (start sweep : ℝ) (p : Path ℝ) :
    p.stroke (s.arc 0 start sweep) = p := by
  have hd (sweep : ℝ) : isDegenerate (s.scale * (0 : ℝ)) sweep = true := by
    simp [isDegenerate]
  exact Path.arcTo_degenerate p _ (hd _)

end Oval

/-- The outline as it is drawn: the outer edge of the band, the head, the inner edge, and the head
of the tail. Each edge is one arc about the centre that ends where the next line begins, or is left
out if it has no sweep or no radius. -/
structure CircularSolution.Outlines (a : CircularSolution ℝ) (s : Oval ℝ)
    (outer inner cs : List (Command ℝ)) : Prop where
  commands : cs = [.move (s.point a.outerStart)] ++ outer ++
    ([a.front.outerHead, a.front.tip, a.front.innerHead, a.front.innerBand].map s.point).map
      .line ++
    inner ++
    ((a.tail.toList.flatMap fun h => [h.innerHead, h.tip, h.outerHead]).map s.point).map .line ++
    [.close]
  outer_nil : a.outerSweep = 0 → outer = []
  outer_arc : a.outerSweep ≠ 0 → DrawsArc s.center (s.scale * a.radii.bandOuter)
    (s.point a.outerStart) (s.point a.front.outerBand) outer
  inner_nil : a.innerSweep = 0 ∨ a.radii.bandInner = 0 → inner = []
  inner_arc : a.innerSweep ≠ 0 → a.radii.bandInner ≠ 0 →
    DrawsArc s.center (s.scale * a.radii.bandInner) (s.point a.front.innerBand)
      (s.point a.innerStart) inner

section Edges

variable {s : Oval ℝ} {r sweep : ℝ} {a b : Point ℝ} (hr : (s.scale * r).Positive)
  (h : Edge r a b sweep) {p : Path ℝ}
include hr h

theorem Edge.stroke_forth (hpen : p.pen = s.point a) :
    ∃ cs, (p.stroke (s.arc r a.angle (max sweep 0))).commands = p.commands ++ cs ∧
      (max sweep 0 = 0 → cs = []) ∧
      (max sweep 0 ≠ 0 → DrawsArc s.center (s.scale * r) (s.point a) (s.point b) cs) := by
  have hle : |max sweep 0| ≤ 360 := by
    rw [abs_of_nonneg (le_max_right _ _)]
    exact max_le h.le (by norm_num)
  obtain ⟨cs, hcs, hnil, harc⟩ := s.stroke_arc hr hle (p := p) (by rw [hpen, h.start])
  refine ⟨cs, by rw [hcs], hnil, fun hne => ?_⟩
  have hdraws := harc hne
  have hsweep : max sweep 0 = sweep := (max_choice sweep 0).resolve_right hne
  rwa [hsweep, h.forth, hpen] at hdraws

theorem Edge.stroke_back (hpen : p.pen = s.point b) :
    ∃ cs, (p.stroke (s.arc r b.angle (-max sweep 0))).commands = p.commands ++ cs ∧
      (max sweep 0 = 0 → cs = []) ∧
      (max sweep 0 ≠ 0 → DrawsArc s.center (s.scale * r) (s.point b) (s.point a) cs) := by
  have hle : |-max sweep 0| ≤ 360 := by
    rw [abs_neg, abs_of_nonneg (le_max_right _ _)]
    exact max_le h.le (by norm_num)
  obtain ⟨cs, hcs, hnil, harc⟩ := s.stroke_arc hr hle (p := p) (by rw [hpen, h.stop])
  refine ⟨cs, by rw [hcs], fun hzero => hnil (by rw [hzero, neg_zero]), fun hne => ?_⟩
  have hdraws := harc (neg_ne_zero.2 hne)
  have hsweep : max sweep 0 = sweep := (max_choice sweep 0).resolve_right hne
  rwa [hsweep, h.back, hpen] at hdraws

end Edges

section Outline

variable (c : CircularKind ℝ) {f : Frame ℝ} (hw : 0 < f.w) (hh : 0 < f.h)
include hw hh

omit hw hh in
theorem circularArrowOf_eq :
    let a := CircularSolution.ofFrame c f
    let s := Oval.ofFrame f c.counterclockwise
    circularArrowOf c f =
      [.move (s.point a.outerStart), s.arc a.radii.bandOuter a.outerFrom a.outerSweep] ++
        Sketch.lines ([a.front.outerHead, a.front.tip, a.front.innerHead,
          a.front.innerBand].map s.point) ++
        [s.arc a.radii.bandInner a.innerFrom (-a.innerSweep)] ++
        Sketch.lines ((a.tail.toList.flatMap fun h => [h.innerHead, h.tip, h.outerHead]).map
          s.point) ++
        [.close] := by
  intro a s
  unfold circularArrowOf
  cases h : a.tail <;> simp [a, s, h]

/-- The inner edge, on the way back. A band that reaches the centre has none. -/
theorem CircularSolution.stroke_inner {p : Path ℝ} :
    let a := ofFrame c f
    let s := Oval.ofFrame f c.counterclockwise
    p.pen = s.point a.front.innerBand →
    ∃ cs, (p.stroke (s.arc a.radii.bandInner a.innerFrom (-a.innerSweep))).commands =
        p.commands ++ cs ∧
      (a.innerSweep = 0 ∨ a.radii.bandInner = 0 → cs = []) ∧
      (a.innerSweep ≠ 0 → a.radii.bandInner ≠ 0 →
        DrawsArc s.center (s.scale * a.radii.bandInner) (s.point a.front.innerBand)
          (s.point a.innerStart) cs) := by
  intro a s hpen
  have hnested := (BandRadii.ofFrame_nested (Frame.ss_pos hw hh) c.band c.head).1
  have hinner : 0 ≤ a.radii.bandInner := hnested.headInner_nonneg.trans hnested.headInner_le
  rcases hinner.eq_or_lt' with hzero | hpos
  · refine ⟨[], ?_, fun _ => rfl, fun _ hne => absurd hzero hne⟩
    rw [hzero, Oval.stroke_arc_zero, List.append_nil]
  · obtain ⟨sweep, hsweep, hedge⟩ := inner_edge (c := c) (Frame.ss_pos hw hh) hpos
    have h := hedge.stroke_back (s := s) (Oval.radii_positive (Frame.ss_pos hw hh) _ hw hh hpos) hpen
    rw [← hsweep] at h
    obtain ⟨cs, hcs, hnil, harc⟩ := h
    exact ⟨cs, hcs, fun hno => hnil (hno.resolve_right hpos.ne'), fun hne _ => harc hne⟩

theorem CircularSolution.stroke_outer {p : Path ℝ} :
    let a := ofFrame c f
    let s := Oval.ofFrame f c.counterclockwise
    p.pen = s.point a.outerStart →
    ∃ cs, (p.stroke (s.arc a.radii.bandOuter a.outerFrom a.outerSweep)).commands =
        p.commands ++ cs ∧
      (a.outerSweep = 0 → cs = []) ∧
      (a.outerSweep ≠ 0 → DrawsArc s.center (s.scale * a.radii.bandOuter) (s.point a.outerStart)
        (s.point a.front.outerBand) cs) := by
  intro a s hpen
  obtain ⟨hnested, -, hmid⟩ := BandRadii.ofFrame_nested (Frame.ss_pos hw hh) c.band c.head
  have houter : 0 < a.radii.bandOuter := hmid.trans_le hnested.mid_le
  obtain ⟨sweep, hsweep, hedge⟩ := outer_edge (c := c) (Frame.ss_pos hw hh)
  have h := hedge.stroke_forth (s := s) (Oval.radii_positive (Frame.ss_pos hw hh) _ hw hh houter) hpen
  rwa [← hsweep] at h

theorem circularArrowOf_outlines :
    ∃ outer inner, (CircularSolution.ofFrame c f).Outlines (Oval.ofFrame f c.counterclockwise)
      outer inner (circularArrowOf c f).path.commands := by
  set a := CircularSolution.ofFrame c f
  set s := Oval.ofFrame f c.counterclockwise
  set begun : Path ℝ := Path.empty.push (.move (s.point a.outerStart))
  set outside := begun.stroke (s.arc a.radii.bandOuter a.outerFrom a.outerSweep)
  set headed := outside.draw (Sketch.lines
    ([a.front.outerHead, a.front.tip, a.front.innerHead, a.front.innerBand].map s.point))
  set inside := headed.stroke (s.arc a.radii.bandInner a.innerFrom (-a.innerSweep))
  set tail := (a.tail.toList.flatMap fun h => [h.innerHead, h.tip, h.outerHead]).map s.point
  obtain ⟨outer, houter, houterNil, houterArc⟩ :=
    CircularSolution.stroke_outer c hw hh (p := begun) rfl
  obtain ⟨inner, hinner, hinnerNil, hinnerArc⟩ :=
    CircularSolution.stroke_inner c hw hh (p := headed) rfl
  refine ⟨outer, inner, ?_, houterNil, houterArc, hinnerNil, hinnerArc⟩
  have hpath : (circularArrowOf c f).path = (inside.draw (Sketch.lines tail)).push .close := by
    rw [circularArrowOf_eq]
    simp only [Sketch.path, Path.draw, List.foldl_append]
    rfl
  have hclose : (circularArrowOf c f).path.commands =
      (inside.draw (Sketch.lines tail)).commands ++ [.close] := by
    rw [hpath]
    rfl
  have hinside : inside.commands = headed.commands ++ inner := hinner
  have hheaded : headed.commands = outside.commands ++ _ := Path.draw_lines _ _
  have houtside : outside.commands = begun.commands ++ outer := houter
  rw [hclose, Path.draw_lines, hinside, hheaded, houtside]
  rfl

omit hw hh in
theorem CircularSolution.heads_onRadii (hss : 0 < f.ss) :
    ∀ head ∈ (ofFrame c f).front :: (ofFrame c f).tail.toList,
      head.OnRadii (ofFrame c f).radii := by
  obtain ⟨hnested, -, hmid⟩ := BandRadii.ofFrame_nested hss c.band c.head
  have hsolve (deg tip : ℝ) := ArcHead.solve_onRadii hnested hmid deg tip
  intro head hhead
  rcases List.mem_cons.1 hhead with rfl | htail
  · exact hsolve _ _
  · cases h : c.doubleHeaded with
    | true =>
      obtain rfl := List.mem_singleton.1 (by simpa [ofFrame, h] using htail)
      exact hsolve _ _
    | false => simp [ofFrame, h] at htail

/-- Every point that is written is in the ellipse. -/
theorem circularArrowOf_inEllipse :
    ∀ q ∈ marksOf (circularArrowOf c f).path.commands, InEllipse f.center f.half q := by
  have hss := Frame.ss_pos hw hh
  set a := CircularSolution.ofFrame c f
  obtain ⟨hnested, hhalf, hmid⟩ := BandRadii.ofFrame_nested hss c.band c.head
  obtain ⟨outer, inner, h⟩ := circularArrowOf_outlines c hw hh
  have hheads := CircularSolution.heads_onRadii c hss
  have houter : 0 < a.radii.bandOuter := hmid.trans_le hnested.mid_le
  have houterLe : a.radii.bandOuter ≤ f.ss / 2 := hnested.bandOuter_le.trans_eq hhalf
  have hinner : 0 ≤ a.radii.bandInner := hnested.headInner_nonneg.trans hnested.headInner_le
  have hinnerLe : a.radii.bandInner ≤ f.ss / 2 :=
    hnested.bandInner_le.trans (hnested.mid_le.trans houterLe)
  have hlines {head : ArcHead ℝ} (hhead : head ∈ a.front :: a.tail.toList) :
      ∀ q ∈ [head.outerHead, head.tip, head.innerHead, head.innerBand], q.norm ≤ f.ss / 2 :=
    fun q hq => ((hheads head hhead).norm_le hnested q hq).trans_eq hhalf
  rw [h.commands]
  intro q hq
  simp only [marksOf_append, Set.mem_union] at hq
  rcases hq with ((((hq | hq) | hq) | hq) | hq) | hq
  · rw [marksOf_singleton] at hq
    obtain ⟨sweep, -, hedge⟩ := CircularSolution.outer_edge (c := c) hss
    have hnorm : a.outerStart.norm = a.radii.bandOuter := by
      rw [← hedge.start, norm_bearing_mul]
      exact abs_of_pos houter
    rw [Set.mem_singleton_iff.1 hq]
    exact Oval.point_inEllipse hss _ hw hh (hnorm.trans_le houterLe)
  · by_cases hsweep : a.outerSweep = 0
    · rw [h.outer_nil hsweep] at hq
      exact absurd hq (by simp [marksOf])
    · exact Oval.arc_inEllipse hss _ hw hh houter houterLe (h.outer_arc hsweep) q hq
  · exact Oval.lines_inEllipse hss _ hw hh (hlines List.mem_cons_self) q hq
  · by_cases hnone : a.innerSweep = 0 ∨ a.radii.bandInner = 0
    · rw [h.inner_nil hnone] at hq
      exact absurd hq (by simp [marksOf])
    · rw [not_or] at hnone
      have hpos : 0 < a.radii.bandInner := lt_of_le_of_ne hinner (Ne.symm hnone.2)
      exact Oval.arc_inEllipse hss _ hw hh hpos hinnerLe (h.inner_arc hnone.1 hnone.2) q hq
  · refine Oval.lines_inEllipse hss _ hw hh (fun p hp => ?_) q hq
    obtain ⟨head, hhead, hp⟩ := List.mem_flatMap.1 hp
    have hmem : p ∈ [head.outerHead, head.tip, head.innerHead, head.innerBand] := by
      simp only [List.mem_cons] at hp ⊢
      tauto
    exact hlines (List.mem_cons_of_mem _ hhead) p hmem
  · simp [marksOf, Command.marks] at hq

end Outline

end Shape

/-- The presets that are circular arrows. -/
def Preset.circularKind? : Preset → Option (Shape.CircularKind ℝ)
  | circularArrow => some
    { counterclockwise := false, doubleHeaded := false
      band := 12500, headSweep := 1142319, stop := 20457681, start := 10800000, head := 12500 }
  | leftCircularArrow => some
    { counterclockwise := true, doubleHeaded := false
      band := 12500, headSweep := -1142319, stop := 1142319, start := 10800000, head := 12500 }
  | leftRightCircularArrow => some
    { counterclockwise := false, doubleHeaded := true
      band := 12500, headSweep := 1142319, stop := 20457681, start := 11942319, head := 12500 }
  | _ => none

theorem Preset.sketch_of_circularKind? {p : Preset} {c : Shape.CircularKind ℝ}
    (hp : p.circularKind? = some c) (f : Frame ℝ) : p.sketch f = Shape.circularArrowOf c f := by
  unfold circularKind? at hp
  split at hp <;> cases hp <;> rfl

/-- A circular arrow stays in its frame: its radii are nested within half the short side, its heads
keep to them, and every point written is in the inscribed ellipse. The edges of its band are arcs
about the centre that end at the heads, those of the tail included. -/
theorem Preset.circularArrow_inscribed {p : Preset} {c : Shape.CircularKind ℝ}
    (hp : p.circularKind? = some c) {f : Frame ℝ} (hw : 0 < f.w) (hh : 0 < f.h) :
    let a := Shape.CircularSolution.ofFrame c f
    let s := Shape.Oval.ofFrame f c.counterclockwise
    let cs := (p.sketch f).path.commands
    a.radii.Nested ∧ a.radii.headOuter = f.ss / 2 ∧
      (∀ head ∈ a.front :: a.tail.toList, head.OnRadii a.radii) ∧
      (∀ head ∈ a.tail.toList, a.outerStart = head.outerBand ∧ a.innerStart = head.innerBand) ∧
      (∀ q ∈ marksOf cs, InEllipse f.center f.half q) ∧
      s.center = f.center ∧ ∃ outer inner, a.Outlines s outer inner cs := by
  intro a s cs
  have hss := Frame.ss_pos hw hh
  have hcs : cs = (Shape.circularArrowOf c f).path.commands := by
    simp only [cs, sketch_of_circularKind? hp]
  obtain ⟨hnested, hhalf, -⟩ := Shape.BandRadii.ofFrame_nested hss c.band c.head
  refine ⟨hnested, hhalf, Shape.CircularSolution.heads_onRadii c hss, ?_, ?_, rfl, ?_⟩
  · intro head hhead
    cases h : c.doubleHeaded with
    | true =>
      obtain rfl := List.mem_singleton.1
        (by simpa [a, Shape.CircularSolution.ofFrame, h] using hhead)
      simp [a, Shape.CircularSolution.ofFrame, h]
    | false => simp [a, Shape.CircularSolution.ofFrame, h] at hhead
  · rw [hcs]
    exact Shape.circularArrowOf_inEllipse c hw hh
  · rw [hcs]
    exact Shape.circularArrowOf_outlines c hw hh

/-- An arrow with two heads in a frame that is not square. -/
theorem Preset.leftRightCircularArrow_inscribed :
    ∃ c : Shape.CircularKind ℝ, leftRightCircularArrow.circularKind? = some c ∧
      (0 : ℝ) < 200 ∧ (0 : ℝ) < 100 ∧
      (let f : Frame ℝ := ⟨200, 100, .empty⟩
      let a := Shape.CircularSolution.ofFrame c f
      let s := Shape.Oval.ofFrame f c.counterclockwise
      let cs := (leftRightCircularArrow.sketch f).path.commands
      a.radii.Nested ∧ a.radii.headOuter = f.ss / 2 ∧
        (∀ head ∈ a.front :: a.tail.toList, head.OnRadii a.radii) ∧
        (∀ head ∈ a.tail.toList, a.outerStart = head.outerBand ∧ a.innerStart = head.innerBand) ∧
        (∀ q ∈ marksOf cs, InEllipse f.center f.half q) ∧
        s.center = f.center ∧ ∃ outer inner, a.Outlines s outer inner cs) := by
  have hw : (0 : ℝ) < 200 := by norm_num
  have hh : (0 : ℝ) < 100 := by norm_num
  exact ⟨_, rfl, hw, hh, circularArrow_inscribed (p := leftRightCircularArrow) rfl hw hh⟩

end
end ShapeOutline
