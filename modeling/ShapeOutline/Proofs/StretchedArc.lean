import ShapeOutline.Proofs.GridDrawing
import ShapeOutline.Proofs.Likeness
import ShapeOutline.Shape.CircularArrow

/-! Arcs of a stretched circle. An arc is stretched by looking up the visual angles of
its two ends on the ellipse, which gives them up to whole turns only. The visual and
the parametric angle stay within a quarter turn of each other, so the turns can be made
up for by rounding, and the stretched arc begins and ends at the images of the ends. -/

namespace ShapeOutline
noncomputable section

theorem degrees_real (rad : ℝ) : degrees rad = rad * (180 / Real.pi) := by
  simp [degrees, Scalar.pi]

theorem radians_degrees (rad : ℝ) : radians (degrees rad) = rad := by
  have hpi := Real.pi_ne_zero
  rw [radians_real, degrees_real]
  field_simp

theorem degrees_radians (deg : ℝ) : degrees (radians deg) = deg := by
  have hpi := Real.pi_ne_zero
  rw [radians_real, degrees_real]
  field_simp

theorem degrees_lt_degrees {a b : ℝ} : degrees a < degrees b ↔ a < b := by
  rw [← radians_lt_radians, radians_degrees, radians_degrees]

theorem degrees_add (a b : ℝ) : degrees (a + b) = degrees a + degrees b := by
  simp only [degrees_real, add_mul]

theorem radians_turns (n : ℤ) : radians (360 * (n : ℝ)) = n * (2 * Real.pi) := by
  rw [radians_real]
  ring

theorem bearing_add_turns (deg : ℝ) (n : ℤ) : bearing (deg + 360 * n) = bearing deg := by
  ext
  · simp only [bearing, radians_add, radians_turns, Real.cos_add_int_mul_two_pi]
  · simp only [bearing, radians_add, radians_turns, Real.sin_add_int_mul_two_pi]

/-- A number less than a half away from a whole one rounds to it. -/
theorem round_eq {x : ℝ} {n : ℤ} (h : |x - n| < 1 / 2) : Scalar.round x = n := by
  obtain ⟨hlo, hhi⟩ := abs_lt.1 h
  have hround : Scalar.round x =
      if x < 0 then -(⌊-x + 1 / 2⌋ : ℝ) else (⌊x + 1 / 2⌋ : ℝ) := rfl
  rw [hround]
  split_ifs
  · have hfloor : ⌊-x + 1 / 2⌋ = -n := by
      rw [Int.floor_eq_iff]
      push_cast
      constructor <;> linarith
    rw [hfloor, Int.cast_neg, neg_neg]
  · have hfloor : ⌊x + 1 / 2⌋ = n := by
      rw [Int.floor_eq_iff]
      constructor <;> linarith
    rw [hfloor]

variable {radii : Point ℝ}

theorem spoke_congr (hr : radii.Positive) {a b : ℝ} (h : bearing a = bearing b) :
    spoke radii a = spoke radii b := by
  rw [spoke_eq hr, spoke_eq hr, spokeLength, spokeLength, spread_congr radii h, h]

/-- The parametric angle is found up to whole turns. -/
theorem exists_turns_visualToParametric (hr : radii.Positive) (deg : ℝ) :
    ∃ n : ℤ, visualToParametric radii deg = phase radii deg + n * (2 * Real.pi) := by
  have hangle : ((visualToParametric radii deg : ℝ) : Real.Angle) = (phase radii deg : ℝ) :=
    Real.Angle.cos_sin_inj
      (by rw [cos_visualToParametric hr, cos_phase hr])
      (by rw [sin_visualToParametric, sin_phase hr])
  obtain ⟨n, hn⟩ := Real.Angle.angle_eq_iff_two_pi_dvd_sub.1 hangle
  exact ⟨n, by linarith⟩

/-- The visual angle of the point with a parametric angle, unwound. -/
def sight (radii : Point ℝ) (deg : ℝ) : ℝ := degrees (phase radii.transpose deg)

theorem abs_sight_sub_lt (radii : Point ℝ) (deg : ℝ) : |sight radii deg - deg| < 90 := by
  have hlo := degrees_lt_degrees.2 (lt_phase radii.transpose deg)
  have hhi := degrees_lt_degrees.2 (phase_lt radii.transpose deg)
  have hquarter : degrees (Real.pi / 2) = 90 := by rw [← radians_quarter, degrees_radians]
  rw [sub_eq_add_neg, degrees_add, degrees_radians] at hlo
  rw [degrees_add, degrees_radians, hquarter] at hhi
  have hneg : degrees (-(Real.pi / 2)) = -90 := by
    rw [← hquarter, degrees_real, degrees_real, neg_mul]
  rw [hneg] at hlo
  rw [abs_lt, sight]
  constructor <;> linarith

theorem sight_strictMono (hr : radii.Positive) : StrictMono (sight radii) :=
  fun _ _ h => degrees_lt_degrees.2 (phase_strictMono hr.transpose h)

theorem continuous_sight (hr : radii.Positive) : Continuous (sight radii) := by
  have hphase := continuous_phase hr.transpose
  unfold sight
  simp only [degrees_real]
  fun_prop

theorem sight_neg (radii : Point ℝ) (deg : ℝ) : sight radii (-deg) = -sight radii deg := by
  rw [sight, sight, phase_neg, degrees_real, degrees_real, neg_mul]

theorem sight_add_half (radii : Point ℝ) (deg : ℝ) :
    sight radii (deg + 180) = sight radii deg + 180 := by
  rw [sight, phase_add_half, degrees_add, ← radians_half, degrees_radians, sight]

theorem sight_add_full (radii : Point ℝ) (deg : ℝ) :
    sight radii (deg + 360) = sight radii deg + 360 := by
  have htwice (x : ℝ) : x + 360 = x + 180 + 180 := by ring
  rw [htwice, htwice, sight_add_half, sight_add_half]

/-- An arc is seen under the arc of the angles at which its ends are seen. -/
theorem image_sight_uIcc (hr : radii.Positive) (a b : ℝ) :
    sight radii '' Set.uIcc a b = Set.uIcc (sight radii a) (sight radii b) :=
  ((sight_strictMono hr).monotone.image_uIcc_subset).antisymm
    (intermediate_value_uIcc (continuous_sight hr).continuousOn)

theorem exists_turns_parametricToVisual (hr : radii.Positive) (deg : ℝ) :
    ∃ n : ℤ, parametricToVisual radii deg = sight radii deg + 360 * n := by
  obtain ⟨n, hn⟩ := exists_turns_visualToParametric hr.transpose deg
  refine ⟨n, ?_⟩
  have hvisual : parametricToVisual radii deg = degrees (visualToParametric radii.transpose deg) :=
    rfl
  rw [hvisual, hn, degrees_add, ← radians_turns, degrees_radians, sight]

/-- The point seen there is the one with that parametric angle. -/
theorem spoke_sight (hr : radii.Positive) (deg : ℝ) :
    spoke radii (sight radii deg) = ellipseRadius radii (radians deg) := by
  set center : Point ℝ := ⟨0, 0⟩
  have hzero (p : Point ℝ) : center + p = p := by ext <;> simp [center]
  have hspread := spread_pos hr.transpose deg
  have hray : OnRay center (bearing (sight radii deg))
      (center + ellipseRadius radii (radians deg)) := by
    refine ⟨spread radii.transpose deg, hspread, ?_⟩
    rw [hzero, hzero]
    ext
    · simp only [Point.mul_x, bearing, sight, radians_degrees, cos_phase hr.transpose]
      rw [div_mul_cancel₀ _ hspread.ne']
      rfl
    · simp only [Point.mul_y, bearing, sight, radians_degrees, sin_phase hr.transpose]
      rw [div_mul_cancel₀ _ hspread.ne']
      rfl
  have hpoint := ellipsePoint_of_onRay hr (onEllipse_spoke hr center _) hray
  rwa [ellipsePoint_eq, hzero, hzero] at hpoint

theorem spoke_parametricToVisual (hr : radii.Positive) (deg : ℝ) :
    spoke radii (parametricToVisual radii deg) = ellipseRadius radii (radians deg) := by
  obtain ⟨n, hn⟩ := exists_turns_parametricToVisual hr deg
  rw [hn, spoke_congr hr (bearing_add_turns _ n), spoke_sight hr]

/-- The commands draw one arc of the ellipse about `center`, from `start` to `stop`. -/
structure DrawsArc (center radii start stop : Point ℝ) (cs : List (Command ℝ)) : Prop where
  pieces : ∃ deg sweep sweeps, InPieces start radii .one center deg sweep sweeps cs ∧
    ellipsePoint center radii (deg + drawnSweep sweep) = stop
  lands : cs.getLast?.bind Command.arcTarget? = some stop

theorem arcChain_lands (center radii : Point ℝ) (deg : ℝ) {sweeps : List ℝ} (h : sweeps ≠ []) :
    (arcChain center radii deg sweeps).getLast?.bind Command.arcTarget? =
      some (ellipsePoint center radii (deg + sweeps.sum)) := by
  induction sweeps generalizing deg with
  | nil => exact absurd rfl h
  | cons sweep rest ih =>
    cases rest with
    | nil => simp [arcChain, arcCommand, Command.arcTarget?]
    | cons next rest =>
      rw [arcChain, arcChain, List.getLast?_cons_cons, ← arcChain, ih _ (List.cons_ne_nil _ _),
        List.sum_cons, List.sum_cons, List.sum_cons, ← add_assoc, ← add_assoc, ← add_assoc]

theorem cuts_ne_nil (sweep : ℝ) (pen target : Point ℝ) : cuts sweep pen target ≠ [] := by
  intro h
  rcases cuts_length sweep pen target with hlength | hlength <;> simp [h] at hlength

/-- An arc whose two ends are known is written between them, in pieces of its ellipse. -/
theorem Path.arcTo_between (hr : radii.Positive) {center stop : Point ℝ} {deg sweep : ℝ}
    (h0 : sweep ≠ 0) (hle : |sweep| ≤ 360) {p : Path ℝ} (hpen : p.pen = center + spoke radii deg)
    (hstop : center + spoke radii (deg + sweep) = stop) :
    ∃ sweeps cs, p.arcTo radii deg sweep = ⟨p.commands ++ cs, stop, p.start⟩ ∧
      InPieces p.pen radii .one center deg sweep sweeps cs ∧
      cs.getLast?.bind Command.arcTarget? = some stop := by
  have hd : isDegenerate radii sweep = false := isDegenerate_eq_false.2 ⟨hr, h0⟩
  have hcenter : arcCenter p.pen radii deg = center := by
    rw [hpen, ← ellipsePoint_eq, arcCenter_ellipsePoint]
  have hend : arcEnd p.pen radii deg (drawnSweep sweep) = stop := by
    rw [arcEnd, hcenter, drawnSweep_of_abs_le hle, ellipsePoint_eq, hstop]
  have hpieces := inPieces_cuts hd p.pen .one p.pen stop deg
  rw [Command.map_stretch_one, hcenter] at hpieces
  refine ⟨_, _, by rw [Path.arcTo_eq p deg hd, hend, hcenter], hpieces, ?_⟩
  rw [arcChain_lands _ _ _ (cuts_ne_nil _ _ _), cuts_sum, ← hend, arcEnd, hcenter]

namespace Shape.Oval

variable (s : Oval ℝ) {r : ℝ}

theorem point_bearing (deg r : ℝ) :
    s.point (bearing deg * r) =
      s.center + ellipseRadius (s.scale * r) (radians (s.signed deg)) := by
  have hx (p : Point ℝ) (t : ℝ) : (ellipseRadius p t).x = p.x * Real.cos t := rfl
  have hy (p : Point ℝ) (t : ℝ) : (ellipseRadius p t).y = p.y * Real.sin t := rfl
  cases h : s.flip <;> ext <;> simp [point, signed, h, bearing, hx, hy, radians_neg] <;> ring

theorem signed_add (a b : ℝ) : s.signed (a + b) = s.signed a + s.signed b := by
  unfold signed
  split_ifs
  · exact neg_add a b
  · rfl

theorem abs_signed (a : ℝ) : |s.signed a| = |a| := by
  unfold signed
  split_ifs
  · exact abs_neg a
  · rfl

theorem image_signed_uIcc (a b : ℝ) :
    s.signed '' Set.uIcc a b = Set.uIcc (s.signed a) (s.signed b) := by
  cases h : s.flip with
  | false =>
    have hid : s.signed = id := funext fun deg => by simp [signed, h]
    rw [hid, Set.image_id]
    rfl
  | true =>
    have hneg : s.signed = Neg.neg := funext fun deg => by simp [signed, h]
    rw [hneg]
    exact Set.image_neg_uIcc a b

/-- How far the visual angle turns along an arc. -/
def turnSeen (r start sweep : ℝ) : ℝ :=
  sight (s.scale * r) (s.signed (start + sweep)) - sight (s.scale * r) (s.signed start)

section Arcs

variable (hr : (s.scale * r).Positive)
include hr

theorem turnSeen_ne_zero {start sweep : ℝ} (h : sweep ≠ 0) : s.turnSeen r start sweep ≠ 0 := by
  rw [turnSeen, sub_ne_zero, (sight_strictMono hr).injective.ne_iff, signed_add]
  rw [Ne, add_eq_left, ← abs_eq_zero, abs_signed, abs_eq_zero]
  exact h

theorem abs_turnSeen_le {start sweep : ℝ} (h : |sweep| ≤ 360) :
    |s.turnSeen r start sweep| ≤ 360 := by
  obtain ⟨hlo, hhi⟩ := abs_le.1 (s.abs_signed sweep ▸ h)
  have hmono := (sight_strictMono hr).monotone
  have hup := hmono (by linarith : s.signed start + s.signed sweep ≤ s.signed start + 360)
  have hdown := hmono (by linarith : s.signed start ≤ s.signed start + s.signed sweep + 360)
  rw [sight_add_full] at hup hdown
  rw [turnSeen, signed_add, abs_le]
  constructor <;> linarith

/-- The turns that the two visual angles leave open are made up for. -/
theorem arc_eq_turnSeen (start sweep : ℝ) :
    s.arc r start sweep =
      .arc (s.scale * r) (parametricToVisual (s.scale * r) (s.signed start))
        (s.turnSeen r start sweep) := by
  obtain ⟨n, hn⟩ := exists_turns_parametricToVisual hr (s.signed start)
  obtain ⟨m, hm⟩ := exists_turns_parametricToVisual hr (s.signed start + s.signed sweep)
  set first := sight (s.scale * r) (s.signed start)
  set last := sight (s.scale * r) (s.signed start + s.signed sweep)
  have hfirst := abs_lt.1 (abs_sight_sub_lt (s.scale * r) (s.signed start))
  have hlast := abs_lt.1 (abs_sight_sub_lt (s.scale * r) (s.signed start + s.signed sweep))
  have hround : Scalar.round ((s.signed sweep - (last + 360 * m - (first + 360 * n))) / 360) =
      ((n - m : ℤ) : ℝ) := by
    apply round_eq
    rw [abs_lt]
    push_cast
    constructor <;> linarith
  have harc : s.arc r start sweep = .arc (s.scale * r) (first + 360 * n)
      (last + 360 * m - (first + 360 * n) +
        360 * Scalar.round ((s.signed sweep - (last + 360 * m - (first + 360 * n))) / 360)) := by
    rw [← hn, ← hm]
    rfl
  rw [harc, hround, hn, turnSeen, signed_add]
  congr 1
  push_cast
  ring

/-- Of the angle at which the arc is drawn only the turns are left open. -/
theorem arc_eq (start sweep : ℝ) :
    ∃ n : ℤ, s.arc r start sweep =
      .arc (s.scale * r) (sight (s.scale * r) (s.signed start) + 360 * n)
        (s.turnSeen r start sweep) := by
  obtain ⟨n, hn⟩ := exists_turns_parametricToVisual hr (s.signed start)
  exact ⟨n, by rw [s.arc_eq_turnSeen hr, hn]⟩

/-- A point of the stretched circle is the point of the ellipse that is seen there. -/
theorem point_eq_ellipsePoint (deg : ℝ) :
    s.point (bearing deg * r) =
      ellipsePoint s.center (s.scale * r) (sight (s.scale * r) (s.signed deg)) := by
  rw [ellipsePoint_eq, spoke_sight hr, point_bearing]

/-- The ends of an arc are the images of those on the circle. -/
theorem seen_ends (start sweep : ℝ) :
    let first := parametricToVisual (s.scale * r) (s.signed start)
    s.point (bearing start * r) = s.center + spoke (s.scale * r) first ∧
      s.center + spoke (s.scale * r) (first + s.turnSeen r start sweep) =
        s.point (bearing (start + sweep) * r) := by
  intro first
  obtain ⟨n, hn⟩ := exists_turns_parametricToVisual hr (s.signed start)
  have hfirst : first = sight (s.scale * r) (s.signed start) + 360 * n := hn
  have hlast : first + s.turnSeen r start sweep =
      sight (s.scale * r) (s.signed (start + sweep)) + 360 * n := by
    rw [hfirst, turnSeen]
    ring
  rw [hlast, hfirst, spoke_congr hr (bearing_add_turns _ n), spoke_congr hr (bearing_add_turns _ n),
    s.point_eq_ellipsePoint hr, s.point_eq_ellipsePoint hr]
  exact ⟨rfl, rfl⟩

/-- An arc of a turn at most is drawn between the images of its ends. -/
theorem stroke_arc {start sweep : ℝ} (hle : |sweep| ≤ 360) {p : Path ℝ}
    (hpen : p.pen = s.point (bearing start * r)) :
    ∃ cs, p.stroke (s.arc r start sweep) =
        ⟨p.commands ++ cs, s.point (bearing (start + sweep) * r), p.start⟩ ∧
      (sweep = 0 → cs = []) ∧
      (sweep ≠ 0 → DrawsArc s.center (s.scale * r) p.pen
        (s.point (bearing (start + sweep) * r)) cs) := by
  rw [s.arc_eq_turnSeen hr]
  by_cases h0 : sweep = 0
  · refine ⟨[], ?_, fun _ => rfl, fun h => absurd h0 h⟩
    have hturn : s.turnSeen r start sweep = 0 := by rw [h0, turnSeen, add_zero, sub_self]
    have hd : isDegenerate (s.scale * r) (s.turnSeen r start sweep) = true := by
      simp [isDegenerate, hturn]
    rw [h0, add_zero, ← hpen, List.append_nil]
    exact Path.arcTo_degenerate p _ (h0 ▸ hd)
  · obtain ⟨hfirst, hlast⟩ := s.seen_ends hr start sweep
    have hseen : |s.turnSeen r start sweep| ≤ 360 := s.abs_turnSeen_le hr hle
    obtain ⟨sweeps, cs, hcs, hpieces, hlands⟩ :=
      Path.arcTo_between hr (s.turnSeen_ne_zero hr h0) hseen (hpen.trans hfirst) hlast
    refine ⟨cs, hcs, fun h => absurd h h0, fun _ => ⟨⟨_, _, sweeps, hpieces, ?_⟩, hlands⟩⟩
    rw [drawnSweep_of_abs_le hseen, ellipsePoint_eq, hlast]

theorem sign_turnSeen (start sweep : ℝ) :
    SignType.sign (s.turnSeen r start sweep) = SignType.sign (s.signed sweep) := by
  have hmono := sight_strictMono hr
  rw [turnSeen, signed_add]
  rcases lt_trichotomy (s.signed sweep) 0 with h | h | h
  · have hlt := hmono (add_lt_of_neg_right (s.signed start) h)
    rw [sign_neg h, sign_neg (sub_neg.2 hlt)]
  · rw [h, add_zero, sub_self]
  · have hlt := hmono (lt_add_of_pos_right (s.signed start) h)
    rw [sign_pos h, sign_pos (sub_pos.2 hlt)]

/-- An arc exceeds a half turn if it is seen to. -/
theorem lt_abs_turnSeen (start sweep : ℝ) :
    180 < |s.turnSeen r start sweep| ↔ 180 < |sweep| := by
  have hmono := sight_strictMono hr
  rw [← s.abs_signed sweep, turnSeen, signed_add, lt_abs, lt_abs]
  refine or_congr ?_ ?_
  · rw [lt_sub_iff_add_lt', ← sight_add_half, hmono.lt_iff_lt, add_lt_add_iff_left]
  · rw [neg_sub, lt_sub_iff_add_lt', ← sight_add_half, hmono.lt_iff_lt]
    constructor <;> intro <;> linarith

/-- The arc that is seen is the image of the arc of the circle. -/
theorem arcCurve_turnSeen (start sweep : ℝ) :
    arcCurve s.center (s.scale * r) (parametricToVisual (s.scale * r) (s.signed start))
        (s.turnSeen r start sweep) =
      (fun deg => s.point (bearing deg * r)) '' Set.uIcc start (start + sweep) := by
  obtain ⟨n, hn⟩ := exists_turns_parametricToVisual hr (s.signed start)
  set radii := s.scale * r
  have hangles : Set.uIcc (parametricToVisual radii (s.signed start))
      (parametricToVisual radii (s.signed start) + s.turnSeen r start sweep) =
      (fun deg => sight radii (s.signed deg) + 360 * n) '' Set.uIcc start (start + sweep) := by
    have hlast : sight radii (s.signed start) + 360 * n + s.turnSeen r start sweep =
        sight radii (s.signed (start + sweep)) + 360 * n := by
      rw [turnSeen]
      ring
    rw [hn, hlast, ← Set.image_add_const_uIcc, ← image_sight_uIcc hr, ← image_signed_uIcc,
      Set.image_image, Set.image_image]
  rw [arcCurve, hangles, Set.image_image]
  refine Set.image_congr fun deg _ => ?_
  rw [s.point_eq_ellipsePoint hr, ellipsePoint_eq, ellipsePoint_eq,
    spoke_congr hr (bearing_add_turns _ n)]

end Arcs

/-- From the image of the point of a circle at an angle the stretched arc is drawn as the image of
the arc of the circle. It is seen to sweep the same way, by no more than a full turn, and by more
than a half turn exactly if the arc of the circle does; its centre is that of the oval, and the pen
comes to the image of the point where the arc of the circle ends. -/
theorem arc_follows_circle {r : ℝ} (hr : 0 < r) (hs : s.scale.Positive) (start : ℝ) {sweep : ℝ}
    (h0 : 0 < |sweep|) (hle : |sweep| ≤ 360) {p : Path ℝ}
    (hpen : p.pen = s.point (unitAt start * r)) :
    let first := parametricToVisual (s.scale * r) (s.signed start)
    let stop := s.point (unitAt (start + sweep) * r)
    ∃ seen, s.arc r start sweep = .arc (s.scale * r) first seen ∧
      SignType.sign seen = SignType.sign (s.signed sweep) ∧ |seen| ≤ 360 ∧
      (180 < |seen| ↔ 180 < |sweep|) ∧
      (arcSegment p.pen (s.scale * r) first seen).center = s.center ∧
      ∃ sweeps cs, p.stroke (s.arc r start sweep) = ⟨p.commands ++ cs, stop, p.start⟩ ∧
        InPieces p.pen (s.scale * r) .one s.center first seen sweeps cs ∧
        chainCurve s.center (s.scale * r) first sweeps =
          (fun deg => s.point (unitAt deg * r)) '' Set.uIcc start (start + sweep) := by
  intro first stop
  have hradii : (s.scale * r).Positive := ⟨mul_pos hs.1 hr, mul_pos hs.2 hr⟩
  have hseen : |s.turnSeen r start sweep| ≤ 360 := s.abs_turnSeen_le hradii hle
  obtain ⟨hfirst, hlast⟩ := s.seen_ends hradii start sweep
  replace hfirst : p.pen = s.center + spoke (s.scale * r) first := hpen.trans hfirst
  have hcenter : (arcSegment p.pen (s.scale * r) first (s.turnSeen r start sweep)).center =
      s.center := by
    rw [arcSegment_eq, hfirst, ← ellipsePoint_eq, arcCenter_ellipsePoint]
  obtain ⟨sweeps, cs, hcs, hpieces, -⟩ := Path.arcTo_between hradii
    (s.turnSeen_ne_zero hradii (abs_pos.1 h0)) hseen hfirst hlast
  refine ⟨_, s.arc_eq_turnSeen hradii start sweep, s.sign_turnSeen hradii start sweep, hseen,
    s.lt_abs_turnSeen hradii start sweep, hcenter, sweeps, cs, ?_, hpieces, ?_⟩
  · rw [s.arc_eq_turnSeen hradii]
    exact hcs
  · rw [hpieces.curve, drawnSweep_of_abs_le hseen]
    exact s.arcCurve_turnSeen hradii start sweep

/-- A flat oval upside down. -/
def lowOval : Oval ℝ := ⟨⟨10, 5⟩, ⟨3, 1 / 2⟩, true⟩

/-- Most of a turn backwards, from the angle where the two angles of a point jump. -/
theorem lowOval_follows_circle :
    (0 : ℝ) < 2 ∧ lowOval.scale.Positive ∧ (0 : ℝ) < |-300| ∧ |(-300 : ℝ)| ≤ 360 ∧
    (let image (deg : ℝ) : Point ℝ := lowOval.point (unitAt deg * (2 : ℝ))
    let p : Path ℝ := Path.empty.push (.move (image 180))
    let radii := lowOval.scale * (2 : ℝ)
    let first := parametricToVisual radii (lowOval.signed 180)
    p.pen = image 180 ∧
    ∃ seen, lowOval.arc 2 180 (-300) = .arc radii first seen ∧
      SignType.sign seen = SignType.sign (lowOval.signed (-300)) ∧ |seen| ≤ 360 ∧
      (180 < |seen| ↔ 180 < |(-300 : ℝ)|) ∧
      (arcSegment p.pen radii first seen).center = lowOval.center ∧
      ∃ sweeps cs, p.stroke (lowOval.arc 2 180 (-300)) =
          ⟨p.commands ++ cs, image (180 + -300), p.start⟩ ∧
        InPieces p.pen radii .one lowOval.center first seen sweeps cs ∧
        chainCurve lowOval.center radii first sweeps =
          image '' Set.uIcc 180 (180 + -300)) := by
  have hscale : lowOval.scale.Positive := ⟨by norm_num [lowOval], by norm_num [lowOval]⟩
  have h0 : (0 : ℝ) < |-300| := by norm_num
  have hle : |(-300 : ℝ)| ≤ 360 := by norm_num
  exact ⟨two_pos, hscale, h0, hle, rfl, lowOval.arc_follows_circle two_pos hscale 180 h0 hle rfl⟩

end Shape.Oval

end
end ShapeOutline
