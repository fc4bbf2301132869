import Mathlib
import ShapeOutline.Proofs.Concatenation
import ShapeOutline.Proofs.Curls
import ShapeOutline.Proofs.OpposedArrows
import ShapeOutline.Proofs.Orientations
import ShapeOutline.Proofs.ShadedBanner

/-! A ribbon is symmetric. Run backwards, each of the two edges of its body is its own
mirror image, leg by leg, so the body is the same closed curve in the mirror, begun at
the other corner. The ends of the arcs are where the guides have the straight legs after
them, and one fold is written as the mirror image of the other one. -/

namespace ShapeOutline
noncomputable section

open Layered

section Turns

variable (center radii : Point ℝ) (deg sweep : ℝ) (n : ℤ)

theorem ellipsePoint_add_turns :
    ellipsePoint center radii (deg + 360 * n) = ellipsePoint center radii deg := by
  rw [ellipsePoint, visualToParametric_add_turns, ellipsePoint]

theorem arcCurve_add_turns :
    arcCurve center radii (deg + 360 * n) sweep = arcCurve center radii deg sweep := by
  have hturn (u : ℝ) : deg + 360 * n + u * sweep = deg + u * sweep + 360 * n :=
    add_right_comm ..
  simp only [arcCurve_eq_image, hturn, ellipsePoint_add_turns]

end Turns

/-- An arc turns the other way when it is reflected, and the other way again when it is run
backwards. -/
inductive Stroke.RunsBack (t : Reflection ℝ) : Stroke ℝ → Stroke ℝ → Prop
  | straight {s s' : Stroke ℝ} : s.IsStraight → s'.IsStraight → RunsBack t s s'
  | arc (radii : Point ℝ) (start start' sweep : ℝ) :
    RunsBack t (.arc radii start sweep) (.arc (t.radii radii) start' (-t.turn sweep))

/-- The second leg is the image of the first one, run the other way. -/
structure Leg.RunsBack (t : Reflection ℝ) (k l : Leg) : Prop where
  stroke : k.stroke.RunsBack t l.stroke
  pen : l.trail.pen = t.point k.target
  target : l.target = t.point k.trail.pen
  drawn : l.drawn = t.plane '' k.drawn

theorem Reflection.plane_segment (t : Reflection ℝ) (p q : Point ℝ) :
    t.plane '' segment ℝ p.place q.place = segment ℝ (t.point p).place (t.point q).place :=
  image_segment ℝ t.plane.toRealAffineIsometryEquiv.toAffineEquiv.toAffineMap p.place q.place

section LeftRight

variable {w : ℝ}

theorem Reflection.leftRight_leftRight (p : Point ℝ) :
    (leftRight w).point ((leftRight w).point p) = p := by
  ext
  · exact sub_sub_cancel w p.x
  · rfl

theorem Stroke.runsBack_arc (radii : Point ℝ) (start start' sweep : ℝ) :
    RunsBack (.leftRight w) (.arc radii start sweep) (.arc radii start' sweep) := by
  have h := RunsBack.arc (t := .leftRight w) radii start start' sweep
  change RunsBack _ _ (.arc radii start' (- -sweep)) at h
  rwa [neg_neg] at h

theorem Stroke.RunsBack.symm {s s' : Stroke ℝ} (h : s.RunsBack (.leftRight w) s') :
    s'.RunsBack (.leftRight w) s := by
  cases h with
  | straight hs hs' => exact .straight hs' hs
  | arc radii start start' sweep =>
    change RunsBack _ (.arc radii start' (- -sweep)) _
    rw [neg_neg]
    exact runsBack_arc radii start' start sweep

namespace Leg

variable {k l : Leg}

theorem RunsBack.symm (h : RunsBack (.leftRight w) k l) : RunsBack (.leftRight w) l k where
  stroke := h.stroke.symm
  pen := by rw [h.target, Reflection.leftRight_leftRight]
  target := by rw [h.pen, Reflection.leftRight_leftRight]
  drawn := by
    have hback (p : Plane) :
        (Reflection.leftRight w).plane ((Reflection.leftRight w).plane p) = p :=
      Prod.ext (sub_sub_cancel w p.1) rfl
    rw [h.drawn, Set.image_image]
    simp only [hback, Set.image_id']

theorem runsBack_straight {t : Reflection ℝ} {pen start q pen' start' q' : Point ℝ}
    {s s' : Stroke ℝ} (hs : s.IsStraight) (hs' : s'.IsStraight)
    (hdrawn : drawn ⟨⟨pen, start⟩, s, q⟩ = segment ℝ pen.place q.place)
    (hdrawn' : drawn ⟨⟨pen', start'⟩, s', q'⟩ = segment ℝ pen'.place q'.place)
    (hpen : pen' = t.point q) (hq : q' = t.point pen) :
    RunsBack t ⟨⟨pen, start⟩, s, q⟩ ⟨⟨pen', start'⟩, s', q'⟩ where
  stroke := .straight hs hs'
  pen := hpen
  target := hq
  drawn := by rw [hdrawn, hdrawn', t.plane_segment, segment_symm, hpen, hq]

section Arcs

variable {radii pen start q pen' start' q' : Point ℝ} {deg deg' sweep : ℝ}
  (hr : radii.Positive) (hs : sweep ≠ 0) (hle : |sweep| ≤ 360)

include hr hs hle

theorem drawn_arc :
    drawn ⟨⟨pen, start⟩, .arc radii deg sweep, q⟩ =
      Point.place '' arcCurve (arcCenter pen radii deg) radii deg sweep := by
  simp only [drawn, Trail.drawn, Trail.curve, isDegenerate_eq_false.2 ⟨hr, hs⟩,
    Bool.false_eq_true, if_false, drawnSweep_of_abs_le hle]

/-- An arc, seen in the mirror, begins where the image of the arc stops. -/
theorem runsBack_arc (hstop : pen - spoke radii deg + spoke radii (deg + sweep) = q) (n : ℤ)
    (hdeg : deg' = 180 - (deg + sweep) + 360 * n)
    (hpen : pen' = (Reflection.leftRight w).point q)
    (hq : q' = (Reflection.leftRight w).point pen) :
    RunsBack (.leftRight w) ⟨⟨pen, start⟩, .arc radii deg sweep, q⟩
      ⟨⟨pen', start'⟩, .arc radii deg' sweep, q'⟩ where
  stroke := Stroke.runsBack_arc radii deg deg' sweep
  pen := hpen
  target := hq
  drawn := by
    set m := (Reflection.leftRight w).likeness
    set center := arcCenter pen radii deg with hcenter
    have himage : arcCurve (m.point center) radii (180 - deg) (-sweep) =
        m.point '' arcCurve center radii deg sweep := m.arcCurve_image hr center deg sweep
    -- the arc in the mirror is about the image of the centre
    have hcenter' : arcCenter pen' radii deg' = m.point center := by
      have hend : pen' = ellipsePoint (m.point center) radii (180 - (deg + sweep)) := by
        rw [hpen, ← hstop]
        exact (m.point_ellipsePoint hr center (deg + sweep)).symm
      rw [hend, hdeg, ← ellipsePoint_add_turns _ _ _ n, arcCenter_ellipsePoint]
    rw [drawn_arc hr hs hle, drawn_arc hr hs hle, hcenter', hdeg, arcCurve_add_turns,
      ← sub_sub, ← arcCurve_neg, himage, Set.image_image, Set.image_image]
    rfl

end Arcs

end Leg

end LeftRight

namespace Leg

/-- A line of a path that begins in the corner of the frame. -/
def straight (p q : Point ℝ) : Leg := ⟨⟨p, ⟨0, 0⟩⟩, .line q, q⟩

def curl (radii p : Point ℝ) (deg sweep : ℝ) (q : Point ℝ) : Leg :=
  ⟨⟨p, ⟨0, 0⟩⟩, .arc radii deg sweep, q⟩

variable {w a a' b b' y y' : ℝ}

theorem straight_runsBack (hb : b = w - a') (hb' : b' = w - a) :
    RunsBack (.leftRight w) (straight ⟨a, y⟩ ⟨a', y'⟩) (straight ⟨b, y'⟩ ⟨b', y⟩) := by
  subst hb hb'
  exact runsBack_straight trivial trivial rfl rfl rfl rfl

theorem curl_runsBack {radii : Point ℝ} {deg deg' sweep : ℝ} (hr : radii.Positive)
    (hs : sweep ≠ 0) (hle : |sweep| ≤ 360)
    (hstop : ⟨a, y⟩ - spoke radii deg + spoke radii (deg + sweep) = ⟨a', y'⟩) (n : ℤ)
    (hdeg : deg' = 180 - (deg + sweep) + 360 * n) (hb : b = w - a') (hb' : b' = w - a) :
    RunsBack (.leftRight w) (curl radii ⟨a, y⟩ deg sweep ⟨a', y'⟩)
      (curl radii ⟨b, y'⟩ deg' sweep ⟨b', y⟩) := by
  subst hb hb'
  exact runsBack_arc hr hs hle hstop n hdeg rfl rfl

/-- Legs that are the images of one another, from the ends to the middle. -/
theorem runsBack_reverse {legs legs' : List Leg} {m : Leg}
    (h : List.Forall₂ (RunsBack (.leftRight w)) legs legs') (hm : RunsBack (.leftRight w) m m) :
    List.Forall₂ (RunsBack (.leftRight w)) (legs ++ m :: legs'.reverse).reverse
      (legs ++ m :: legs'.reverse) := by
  -- reversed, the pairs come from the other side first, each the other way around
  have hback : List.Forall₂ (RunsBack (.leftRight w)) legs' legs :=
    h.flip.imp fun _ _ hkl => hkl.symm
  have hreverse : (legs ++ m :: legs'.reverse).reverse = legs' ++ m :: legs.reverse := by
    simp only [List.reverse_append, List.reverse_cons, List.reverse_reverse, List.append_assoc,
      List.cons_append, List.nil_append]
  rw [hreverse]
  exact List.rel_append hback (.cons hm (List.forall₂_reverse_iff.2 h))

end Leg

section Edges

open Leg (straight curl)

/-- The upper edge of a ribbon whose folds end as far from the one side as from the other. -/
def upperLegs (w x c e : ℝ) : List Leg :=
  [straight ⟨0, 0⟩ ⟨x - c, 0⟩, curl ⟨c, e⟩ ⟨x - c, 0⟩ 270 180 ⟨x - c, 2 * e⟩,
    straight ⟨x - c, 2 * e⟩ ⟨x - 3 * c, 2 * e⟩,
    curl ⟨c, e⟩ ⟨x - 3 * c, 2 * e⟩ 270 (-180) ⟨x - 3 * c, 4 * e⟩,
    straight ⟨x - 3 * c, 4 * e⟩ ⟨w - x + 3 * c, 4 * e⟩,
    curl ⟨c, e⟩ ⟨w - x + 3 * c, 4 * e⟩ 90 (-180) ⟨w - x + 3 * c, 2 * e⟩,
    straight ⟨w - x + 3 * c, 2 * e⟩ ⟨w - x + c, 2 * e⟩,
    curl ⟨c, e⟩ ⟨w - x + c, 2 * e⟩ 90 180 ⟨w - x + c, 0⟩, straight ⟨w - x + c, 0⟩ ⟨w, 0⟩]

def lowerLegs (w h x c e : ℝ) : List Leg :=
  [straight ⟨w, 0⟩ ⟨w - 4 * c, (h - 4 * e) / 2⟩,
    straight ⟨w - 4 * c, (h - 4 * e) / 2⟩ ⟨w, h - 4 * e⟩,
    straight ⟨w, h - 4 * e⟩ ⟨w - x + 4 * c, h - 4 * e⟩,
    straight ⟨w - x + 4 * c, h - 4 * e⟩ ⟨w - x + 4 * c, h - e⟩,
    curl ⟨c, e⟩ ⟨w - x + 4 * c, h - e⟩ 0 90 ⟨w - x + 3 * c, h⟩,
    straight ⟨w - x + 3 * c, h⟩ ⟨x - 3 * c, h⟩,
    curl ⟨c, e⟩ ⟨x - 3 * c, h⟩ 90 90 ⟨x - 4 * c, h - e⟩,
    straight ⟨x - 4 * c, h - e⟩ ⟨x - 4 * c, h - 4 * e⟩,
    straight ⟨x - 4 * c, h - 4 * e⟩ ⟨0, h - 4 * e⟩,
    straight ⟨0, h - 4 * e⟩ ⟨4 * c, (h - 4 * e) / 2⟩,
    ⟨⟨⟨4 * c, (h - 4 * e) / 2⟩, ⟨0, 0⟩⟩, .close, ⟨0, 0⟩⟩]

variable {w h x c e : ℝ} (hr : (⟨c, e⟩ : Point ℝ).Positive)

include hr

theorem hangingBody_legs (rest : Sketch ℝ) :
    Path.empty.legs (hangingBody w h x (w - x) c e ++ rest) =
      ⟨⟨⟨0, 0⟩, ⟨0, 0⟩⟩, .move ⟨0, 0⟩, ⟨0, 0⟩⟩ :: (upperLegs w x c e ++ lowerLegs w h x c e ++
        (Path.bare ⟨⟨0, 0⟩, ⟨0, 0⟩⟩).legs rest) := by
  have hhalf : |(180 : ℝ)| = 180 := by norm_num
  have hhalf' : |(-180 : ℝ)| = 180 := by norm_num
  have hdown : 0 + e + e = 2 * e := by ring
  have hdown' : 2 * e + e + e = 4 * e := by ring
  have hup : 4 * e - e - e = 2 * e := by ring
  have hup' : 2 * e - e - e = 0 := by ring
  have hright : w - x + 4 * c - c = w - x + 3 * c := by ring
  have hleft : x - 3 * c - c = x - 4 * c := by ring
  simp only [hangingBody, hangingEdge, List.cons_append, List.nil_append, Path.empty_eq,
    Path.legs_move, Path.legs_line, Path.legs_close, Path.legs_right_bottom _ hr,
    Path.legs_bottom_left _ hr, Path.legs_top_bottom _ hr hhalf, Path.legs_top_bottom _ hr hhalf',
    Path.legs_bottom_top _ hr hhalf, Path.legs_bottom_top _ hr hhalf', hdown, hdown', hup, hup',
    hright, hleft, sub_add_cancel]
  rfl

theorem upperLegs_runsBack :
    List.Forall₂ (Leg.RunsBack (.leftRight w)) (upperLegs w x c e).reverse
      (upperLegs w x c e) := by
  have htail : (straight ⟨0, 0⟩ ⟨x - c, 0⟩).RunsBack (.leftRight w)
      (straight ⟨w - x + c, 0⟩ ⟨w, 0⟩) :=
    Leg.straight_runsBack (by ring) (by ring)
  have hcurl : (curl ⟨c, e⟩ ⟨x - c, 0⟩ 270 180 ⟨x - c, 2 * e⟩).RunsBack (.leftRight w)
      (curl ⟨c, e⟩ ⟨w - x + c, 2 * e⟩ 90 180 ⟨w - x + c, 0⟩) := by
    -- the curl ends a full turn further than it is begun in the mirror
    refine Leg.curl_runsBack hr (by norm_num) (by norm_num) ?_ 1 (by norm_num) (by ring) (by ring)
    rw [show (270 : ℝ) + 180 = 450 by norm_num, spoke_threeQuarters hr, spoke_450 hr]
    ext
    · simp
    · simp
      ring
  have hfold : (straight ⟨x - c, 2 * e⟩ ⟨x - 3 * c, 2 * e⟩).RunsBack (.leftRight w)
      (straight ⟨w - x + 3 * c, 2 * e⟩ ⟨w - x + c, 2 * e⟩) :=
    Leg.straight_runsBack (by ring) (by ring)
  have hturn : (curl ⟨c, e⟩ ⟨x - 3 * c, 2 * e⟩ 270 (-180) ⟨x - 3 * c, 4 * e⟩).RunsBack
      (.leftRight w) (curl ⟨c, e⟩ ⟨w - x + 3 * c, 4 * e⟩ 90 (-180) ⟨w - x + 3 * c, 2 * e⟩) := by
    refine Leg.curl_runsBack hr (by norm_num) (by norm_num) ?_ 0 (by norm_num) (by ring) (by ring)
    rw [show (270 : ℝ) + -180 = 90 by norm_num, spoke_threeQuarters hr, spoke_ninety hr]
    ext
    · simp
    · simp
      ring
  have hpanel : (straight ⟨x - 3 * c, 4 * e⟩ ⟨w - x + 3 * c, 4 * e⟩).RunsBack (.leftRight w)
      (straight ⟨x - 3 * c, 4 * e⟩ ⟨w - x + 3 * c, 4 * e⟩) :=
    Leg.straight_runsBack (by ring) (by ring)
  exact Leg.runsBack_reverse (.cons htail (.cons hcurl (.cons hfold (.cons hturn .nil)))) hpanel

theorem lowerLegs_runsBack :
    List.Forall₂ (Leg.RunsBack (.leftRight w)) (lowerLegs w h x c e).reverse
      (lowerLegs w h x c e) := by
  have hnotch : (straight ⟨w, 0⟩ ⟨w - 4 * c, (h - 4 * e) / 2⟩).RunsBack (.leftRight w)
      ⟨⟨⟨4 * c, (h - 4 * e) / 2⟩, ⟨0, 0⟩⟩, .close, ⟨0, 0⟩⟩ :=
    Leg.runsBack_straight trivial trivial rfl rfl (Point.ext (sub_sub_cancel w _).symm rfl)
      (Point.ext (sub_self w).symm rfl)
  have hnotch' : (straight ⟨w - 4 * c, (h - 4 * e) / 2⟩ ⟨w, h - 4 * e⟩).RunsBack (.leftRight w)
      (straight ⟨0, h - 4 * e⟩ ⟨4 * c, (h - 4 * e) / 2⟩) :=
    Leg.straight_runsBack (by ring) (by ring)
  have htail : (straight ⟨w, h - 4 * e⟩ ⟨w - x + 4 * c, h - 4 * e⟩).RunsBack (.leftRight w)
      (straight ⟨x - 4 * c, h - 4 * e⟩ ⟨0, h - 4 * e⟩) :=
    Leg.straight_runsBack (by ring) (by ring)
  have hside : (straight ⟨w - x + 4 * c, h - 4 * e⟩ ⟨w - x + 4 * c, h - e⟩).RunsBack
      (.leftRight w) (straight ⟨x - 4 * c, h - e⟩ ⟨x - 4 * c, h - 4 * e⟩) :=
    Leg.straight_runsBack (by ring) (by ring)
  have hcorner : (curl ⟨c, e⟩ ⟨w - x + 4 * c, h - e⟩ 0 90 ⟨w - x + 3 * c, h⟩).RunsBack
      (.leftRight w) (curl ⟨c, e⟩ ⟨x - 3 * c, h⟩ 90 90 ⟨x - 4 * c, h - e⟩) := by
    refine Leg.curl_runsBack hr (by norm_num) (by norm_num) ?_ 0 (by norm_num) (by ring) (by ring)
    rw [zero_add, spoke_zero hr, spoke_ninety hr]
    ext
    · simp
      ring
    · simp
  have hpanel : (straight ⟨w - x + 3 * c, h⟩ ⟨x - 3 * c, h⟩).RunsBack (.leftRight w)
      (straight ⟨w - x + 3 * c, h⟩ ⟨x - 3 * c, h⟩) :=
    Leg.straight_runsBack (by ring) (by ring)
  exact Leg.runsBack_reverse (.cons hnotch (.cons hnotch' (.cons htail (.cons hside
    (.cons hcorner .nil))))) hpanel

/-- Both edges of the body, run backwards from the other upper corner. -/
theorem hangingBody_runsBack :
    ∃ around, Path.empty.legs (hangingBody w h x (w - x) c e) =
        ⟨⟨⟨0, 0⟩, ⟨0, 0⟩⟩, .move ⟨0, 0⟩, ⟨0, 0⟩⟩ :: around ∧
      List.Forall₂ (Leg.RunsBack (.leftRight w)) around.reverse (around.rotate 9) ∧
      (around.rotate 9).head?.map (fun l => l.trail.pen) = some ⟨w, 0⟩ := by
  have hlegs := hangingBody_legs hr (w := w) (h := h) (x := x) []
  rw [Path.legs_nil, List.append_nil, List.append_nil] at hlegs
  have hrotate : (upperLegs w x c e ++ lowerLegs w h x c e).rotate 9 =
      lowerLegs w h x c e ++ upperLegs w x c e :=
    List.rotate_append_length_eq (upperLegs w x c e) (lowerLegs w h x c e)
  refine ⟨_, hlegs, ?_, ?_⟩
  · rw [hrotate, List.reverse_append]
    exact List.rel_append (lowerLegs_runsBack hr) (upperLegs_runsBack hr)
  · rw [hrotate]
    rfl

end Edges

/-- The line after an arc is horizontal or vertical from where the arc ends. -/
def Leg.ComesLevel (k l : Leg) : Prop :=
  match k.stroke, l.stroke with
  | .arc .., .line q => q.y = k.target.y ∨ q.x = k.target.x
  | .arc .., _ => False
  | _, _ => True

/-- The lines between the body and the folds, and those between the tails and the panel. -/
def seams (h x x' c e : ℝ) : Sketch ℝ :=
  [.move ⟨x, e⟩, .line ⟨x, 4 * e⟩, .move ⟨x', 4 * e⟩, .line ⟨x', e⟩,
    .move ⟨x - 4 * c, h - 4 * e⟩, .line ⟨x - 4 * c, 3 * e⟩, .move ⟨x' + 4 * c, 3 * e⟩,
    .line ⟨x' + 4 * c, h - 4 * e⟩]

/-- Every arc comes level with the next line, and no leg leaves the frame. -/
structure Steady (f : Frame ℝ) (s : Sketch ℝ) : Prop where
  level : (Path.empty.legs s).IsChain Leg.ComesLevel
  covers : ∀ l ∈ Path.empty.legs s, f.Covers l.target

theorem Steady.left_of_append {f : Frame ℝ} {s s' : Sketch ℝ} (h : Steady f (s ++ s')) :
    Steady f s := by
  obtain ⟨hlevel, hcovers⟩ := h
  rw [Path.legs_append] at hlevel hcovers
  exact ⟨hlevel.left_of_append, fun l hl => hcovers l (List.mem_append_left _ hl)⟩

section Layers

variable {f : Frame ℝ} {x c e : ℝ} (hg : Hangs f.w f.h x (f.w - x) c e) (he : 0 < e)

include hg he

theorem outline_steady :
    Steady f (hangingBody f.w f.h x (f.w - x) c e ++ seams f.h x (f.w - x) c e) := by
  have hr := hg.positive he
  obtain ⟨hc, -, hx, hx', hxx', hh⟩ := hg
  constructor <;> rw [hangingBody_legs hr] <;>
    simp only [upperLegs, lowerLegs, seams, Leg.straight, Leg.curl, List.cons_append,
      List.nil_append, Path.legs_move, Path.legs_line, Path.legs_nil]
  · simp only [List.isChain_cons_cons, Leg.ComesLevel, List.isChain_singleton, and_true, true_or,
      or_true]
  · simp only [List.forall_mem_cons, List.not_mem_nil, IsEmpty.forall_iff, implies_true, and_true,
      Frame.Covers, le_refl, true_and]
    and_intros <;> linarith

theorem folds_steady : Steady f (leftFold x c e ++ rightFold (f.w - x) c e) := by
  have hr := hg.positive he
  obtain ⟨hc, -, hx, hx', hxx', hh⟩ := hg
  have hhalf : |(180 : ℝ)| = 180 := by norm_num
  have hhalf' : |(-180 : ℝ)| = 180 := by norm_num
  have hdown : e + e = 2 * e := by ring
  have hdown' : 2 * e + e + e = 4 * e := by ring
  constructor <;>
    simp only [leftFold, rightFold, List.cons_append, List.nil_append, Path.empty_eq,
      Path.legs_move, Path.legs_line, Path.legs_close, Path.legs_nil, Path.legs_right_bottom _ hr,
      Path.legs_left_bottom _ hr, Path.legs_top_bottom _ hr hhalf, Path.legs_top_bottom _ hr hhalf',
      hdown, hdown']
  · simp only [List.isChain_cons_cons, Leg.ComesLevel, List.isChain_singleton, and_true, true_or]
  · simp only [List.forall_mem_cons, List.not_mem_nil, IsEmpty.forall_iff, implies_true, and_true,
      Frame.Covers]
    and_intros <;> linarith

end Layers

theorem Sketch.path_append_commands (s t : Sketch ℝ) (h : t.Opens) :
    (s ++ t).path.commands = s.path.commands ++ t.path.commands := by
  obtain ⟨a, rest, rfl⟩ := h
  have happend := Sketch.render_append s (.move a :: rest) .identity
    fun c hc => ⟨a, (Option.some.inj hc).symm⟩
  simp only [Sketch.render, reflect_identity] at happend
  rw [happend, Path.append_commands]

theorem Sketch.commands_congr {s t : Sketch ℝ} (h : List.Forall₂ Stroke.DrawsLike s t) :
    s.path.commands = t.path.commands := by
  rw [Sketch.path, Path.draw_commands, Path.groups_congr h, ← Path.draw_commands, Sketch.path]

/-- The right fold is drawn with the strokes of the left one, reflected, up to a full turn. -/
theorem rightFold_drawsLike (w x c e : ℝ) :
    List.Forall₂ Stroke.DrawsLike (rightFold (w - x) c e)
      (Sketch.reflect (.leftRight w) (leftFold x c e)) := by
  have hcorner : (180 : ℝ) - 0 = 180 := sub_zero 180
  have hline : w - x + 3 * c = w - (x - 3 * c) := by ring
  have hturn : (270 : ℝ) = 180 - 270 + 360 * (1 : ℤ) := by norm_num
  have hcurl : (Stroke.arc ⟨c, e⟩ 270 180).DrawsLike (.arc ⟨c, e⟩ (180 - 270) (- -180)) := by
    rw [neg_neg]
    nth_rewrite 1 [hturn]
    exact Stroke.drawsLike_add_turns ⟨c, e⟩ (180 - 270) 180 1
  change List.Forall₂ Stroke.DrawsLike _ [.move ⟨w - x, e⟩, .arc ⟨c, e⟩ (180 - 0) (-90),
    .line ⟨w - (x - 3 * c), 2 * e⟩, .arc ⟨c, e⟩ (180 - 270) (- -180), .line ⟨w - x, 4 * e⟩, .close]
  rw [hcorner, ← hline]
  exact .cons (.refl _) (.cons (.refl _) (.cons (.refl _) (.cons hcurl
    (.cons (.refl _) (.cons (.refl _) .nil)))))

theorem folds_mirrored (w x c e : ℝ) :
    (leftFold x c e ++ rightFold (w - x) c e).path.commands =
      (leftFold x c e).path.commands ++
        (leftFold x c e).path.commands.map (Command.mirror (fun p => ⟨w - p.x, p.y⟩) id) := by
  have hshort : ∀ s ∈ leftFold x c e, s.Short := by
    simp only [leftFold, List.forall_mem_cons, Stroke.Short]
    norm_num
  have himage := Sketch.reflect_commands (t := .leftRight w) ⟨x, e⟩ (leftFold x c e).tail
    (.inl fun s hs => hshort s (List.mem_of_mem_tail hs))
  rw [Reflection.command_of_reverses _ rfl] at himage
  have hopens : (rightFold (w - x) c e).Opens := ⟨_, _, rfl⟩
  rw [Sketch.path_append_commands _ _ hopens, Sketch.commands_congr (rightFold_drawsLike ..)]
  exact congrArg _ himage

theorem ribbon_outline (f : Frame ℝ) :
    (ribbonBanner f).outline = (ribbonBanner f).body ++ seams f.h (RibbonGuides.ofFrame f).x5
      (RibbonGuides.ofFrame f).x6 (f.w / 32) (RibbonGuides.ofFrame f).curl.y := by
  simp only [ribbonBanner, RibbonGuides.ofFrame, seams, Frame.heightPart, Frame.hc,
    Scalar.zero_real, List.append_cancel_left_eq, List.cons.injEq, Stroke.move.injEq,
    Stroke.line.injEq, Point.mk.injEq, true_and, and_true]
  and_intros <;> ring

/-- The two folds end as far from the one side as from the other. -/
theorem ribbon_ends (f : Frame ℝ) :
    (RibbonGuides.ofFrame f).x6 = f.w - (RibbonGuides.ofFrame f).x5 := by
  simp only [RibbonGuides.ofFrame, Frame.hc]
  ring

/-- A ribbon that hangs at all is symmetric. Run backwards, its body is its own mirror image, leg by
leg, from the other upper corner; one fold is written as the mirror image of the other one; and in
every layer the arcs come level with the lines after them and the pen stays in the frame. -/
theorem ribbon_symmetric {f : Frame ℝ} (hw : 0 < f.w) (hh : 0 < f.h)
    (ha : 0 < f.pinned "adj1" 16667 0 33333) :
    let g := ribbonBanner f
    let fold := leftFold (RibbonGuides.ofFrame f).x5 (f.w / 32) (RibbonGuides.ofFrame f).curl.y
    LayeredPreset.ribbon.layers f =
      [.fill g.body .normal, .shade g.folds .darkenLess, .stroke g.outline] ∧
    (∃ around, Path.empty.legs g.body = ⟨⟨⟨0, 0⟩, ⟨0, 0⟩⟩, .move ⟨0, 0⟩, ⟨0, 0⟩⟩ :: around ∧
      List.Forall₂ (Leg.RunsBack (.leftRight f.w)) around.reverse (around.rotate 9) ∧
      (around.rotate 9).head?.map (fun l => l.trail.pen) = some ⟨f.w, 0⟩) ∧
    g.folds.path.commands = fold.path.commands ++
      fold.path.commands.map (Command.mirror (fun p => ⟨f.w - p.x, p.y⟩) id) ∧
    ∀ l ∈ LayeredPreset.ribbon.layers f, (Path.empty.legs l.sketch).IsChain Leg.ComesLevel ∧
      ∀ n, f.Covers (Sketch.path (l.sketch.take n)).pen := by
  intro g fold
  have hlayers : LayeredPreset.ribbon.layers f =
      [.fill g.body .normal, .shade g.folds .darkenLess, .stroke g.outline] := by
    change g.layers .identity = _
    simp only [Banner.layers, reflect_identity]
  have hg := ribbon_hangs hw hh
  have he : 0 < (RibbonGuides.ofFrame f).curl.y := by
    rw [ribbon_curl]
    positivity
  have hbody := ribbon_body f
  have hfolds := ribbon_folds f
  have houtline := ribbon_outline f
  rw [ribbon_ends] at hg hbody hfolds houtline
  have hf : f.Sized := ⟨hw.le, hh.le⟩
  have hpens {s : Sketch ℝ} (hs : Steady f s) :
      (Path.empty.legs s).IsChain Leg.ComesLevel ∧ ∀ n, f.Covers (Sketch.path (s.take n)).pen :=
    ⟨hs.level, Path.pen_covers hf hs.covers⟩
  have hsteady := outline_steady hg he
  rw [← hbody] at hsteady
  -- the body is where the outline begins
  refine ⟨hlayers, hbody ▸ hangingBody_runsBack (hg.positive he), ?_, ?_⟩
  · rw [hfolds]
    exact folds_mirrored ..
  · rw [hlayers]
    simp only [List.forall_mem_cons]
    exact ⟨hpens hsteady.left_of_append, hpens (hfolds ▸ folds_steady hg he),
      hpens (houtline ▸ hsteady), by simp⟩

/-- The ribbon of a frame without adjustments. -/
theorem plainRibbon_symmetric :
    let f : Frame ℝ := ⟨320, 120, ⟨[]⟩⟩
    let e : ℝ := 50001 / 10000
    let body := hangingBody 320 120 120 200 10 e
    let fold := leftFold 120 10 e
    0 < f.w ∧ 0 < f.h ∧ 0 < f.pinned "adj1" 16667 0 33333 ∧
      LayeredPreset.ribbon.layers f = [.fill body .normal,
        .shade (fold ++ rightFold 200 10 e) .darkenLess, .stroke (body ++ seams 120 120 200 10 e)] ∧
      (∃ around, Path.empty.legs body = ⟨⟨⟨0, 0⟩, ⟨0, 0⟩⟩, .move ⟨0, 0⟩, ⟨0, 0⟩⟩ :: around ∧
        List.Forall₂ (Leg.RunsBack (.leftRight 320)) around.reverse (around.rotate 9) ∧
        (around.rotate 9).head?.map (fun l => l.trail.pen) = some ⟨320, 0⟩) ∧
      (Sketch.path (fold ++ rightFold 200 10 e)).commands = fold.path.commands ++
        fold.path.commands.map (Command.mirror (fun p => ⟨320 - p.x, p.y⟩) id) ∧
      ∀ l ∈ LayeredPreset.ribbon.layers f, (Path.empty.legs l.sketch).IsChain Leg.ComesLevel ∧
        ∀ n, f.Covers (Sketch.path (l.sketch.take n)).pen := by
  intro f e body fold
  have ha1 : f.pinned "adj1" 16667 0 33333 = 16667 :=
    pin_eq_self (show (0 : ℝ) ≤ 16667 by norm_num) (show (16667 : ℝ) ≤ 33333 by norm_num)
  have ha2 : f.pinned "adj2" 50000 25000 75000 = 50000 :=
    pin_eq_self (show (25000 : ℝ) ≤ 50000 by norm_num) (show (50000 : ℝ) ≤ 75000 by norm_num)
  have hw : 0 < f.w := by norm_num [f]
  have hh : 0 < f.h := by norm_num [f]
  have ha : 0 < f.pinned "adj1" 16667 0 33333 := by norm_num [ha1]
  have hc : f.w / 32 = 10 := by norm_num [f]
  have he : (RibbonGuides.ofFrame f).curl.y = e := by
    rw [ribbon_curl, ha1]
    norm_num [f, e]
  have hx5 : (RibbonGuides.ofFrame f).x5 = 120 := by
    simp only [RibbonGuides.ofFrame, Frame.hc, ha2]
    norm_num [f]
  have hx6 : (RibbonGuides.ofFrame f).x6 = 200 := by
    rw [ribbon_ends, hx5]
    norm_num [f]
  obtain ⟨hlayers, hback, hfolds, hlevel⟩ := ribbon_symmetric hw hh ha
  have hbody := ribbon_body f
  have houtline := ribbon_outline f
  have hfold := ribbon_folds f
  rw [hx5, hx6, hc, he] at hbody houtline hfold
  rw [hx5, hc, he, hfold] at hfolds
  rw [hbody] at hback houtline
  rw [hbody, houtline, hfold] at hlayers
  exact ⟨hw, hh, ha, hlayers, hback, hfolds, hlevel⟩

end
end ShapeOutline
