import ShapeOutline.Proofs.ArrowHead

/-! Arrow callouts. Each is drawn within its frame, and on every side with an arrow the
shaft is no wider than its head nor than the text box that it leaves, whose edge is
behind the base of the head. -/

namespace ShapeOutline
noncomputable section

open Shape
open Sketch (polygon)

/-- An arrow on a text box: a head, the corners of the box on its side, and where the shaft leaves
it. -/
structure CalloutArm extends ArrowHead where
  side : Point ℝ
  exit : Point ℝ
  exit' : Point ℝ
  side' : Point ℝ

namespace CalloutArm

def vertices (k : CalloutArm) : List (Point ℝ) :=
  [k.side, k.exit] ++ k.toArrowHead.vertices ++ [k.exit', k.side']

def map (φ : Point ℝ → Point ℝ) (k : CalloutArm) : CalloutArm :=
  ⟨k.toArrowHead.map φ, φ k.side, φ k.exit, φ k.exit', φ k.side'⟩

/-- The shaft runs straight on from between the corners of the box to the base of its head. -/
structure Carries (k : CalloutArm) (f : Frame ℝ) (d : Facing) (rest : List (Point ℝ)) : Prop
    extends k.toArrowHead.Leads f d rest where
  edge : ∀ p ∈ [k.exit, k.exit', k.side'], d.reach f p = d.reach f k.side
  straight : d.offset k.exit = d.offset k.shaft ∧ d.offset k.exit' = d.offset k.shaft'
  between : InOrder ([k.side, k.exit, k.exit', k.side'].map d.offset)
  clear : d.reach f k.side ≤ d.reach f k.corner

end CalloutArm

def HasArm (f : Frame ℝ) (d : Facing) (ps : List (Point ℝ)) : Prop :=
  ∃ (k : CalloutArm) (rest : List (Point ℝ)), ps ~r k.vertices ++ rest ∧ k.Carries f d rest

/-- A closed polygon within the frame, with an arm for each of the directions. -/
structure Sketch.Armed (s : Sketch ℝ) (f : Frame ℝ) (ds : List Facing) : Prop where
  closed : s = polygon s.vertices
  covers : ∀ p ∈ s.vertices, f.Covers p
  arms : ∀ d ∈ ds, HasArm f d s.vertices

section Outlines

variable {f g : Frame ℝ} {d e : Facing} {ps : List (Point ℝ)}

/-- The arm is read from the `n`-th vertex on. -/
theorem hasArm_of_rotate (n : ℕ) (k : CalloutArm) (hk : (ps.rotate n).take 9 = k.vertices)
    (h : k.Carries f d ((ps.rotate n).drop 9)) : HasArm f d ps :=
  ⟨k, _, ⟨n, by rw [← hk, List.take_append_drop]⟩, h⟩

theorem HasArm.map {φ : Point ℝ → Point ℝ} (halong : d.along f = e.along g)
    (hreach : ∀ p, d.reach f (φ p) = e.reach g p) (hoffset : ∀ p, d.offset (φ p) = e.offset p)
    (h : HasArm g e ps) : HasArm f d (ps.map φ) := by
  obtain ⟨k, rest, hps, hk⟩ := h
  refine ⟨k.map φ, rest.map φ, ?_, hk.toLeads.map halong hreach hoffset, ?_, ?_, ?_, ?_⟩
  · simpa [CalloutArm.vertices, CalloutArm.map, ArrowHead.vertices, ArrowHead.map] using hps.map φ
  · simpa [CalloutArm.map, hreach] using hk.edge
  · simpa [CalloutArm.map, ArrowHead.map, hoffset] using hk.straight
  · simpa [CalloutArm.map, hoffset] using hk.between
  · simpa [CalloutArm.map, ArrowHead.map, hreach] using hk.clear

theorem HasArm.ahead (h : HasArm (d.lying f) .right ps) :
    HasArm f d (ps.map (d.reflection f).point) :=
  h.map (by simp) (fun p => by simp) (fun p => by simp)

theorem HasArm.backwards (h : HasArm (d.lying f) .left ps) :
    HasArm f d.opposite (ps.map (d.reflection f).point) :=
  h.map (by simp) (fun p => by simp) (fun p => by simp)

theorem reflect_armed {ds : List Facing} (hcovers : ∀ p ∈ ps, (d.lying f).Covers p)
    (harms : ∀ e ∈ ds, HasArm f e (ps.map (d.reflection f).point)) :
    ((polygon ps).reflect (d.reflection f)).Armed f ds := by
  rw [polygon_reflect]
  refine ⟨by rw [vertices_polygon], ?_, ?_⟩
  · simpa using fun p hp => (hcovers p hp).point
  · simpa using harms

end Outlines

/-- An arm in the middle of its side, by half the widths of head and shaft, the length of the head,
how far ahead the edge of the box is, and half the width of the box. -/
def calloutArm (d : Facing) (f : Frame ℝ) (half shaft head edge side : ℝ) : CalloutArm where
  toArrowHead := axialHead d f (d.offset f.center) half shaft head
  side := d.spot f (d.offset f.center) edge (-side)
  exit := d.spot f (d.offset f.center) edge (-shaft)
  exit' := d.spot f (d.offset f.center) edge shaft
  side' := d.spot f (d.offset f.center) edge side

theorem calloutArm_carries {f : Frame ℝ} (d : Facing) {half shaft head edge side : ℝ}
    {rest : List (Point ℝ)} (hshaft : 0 ≤ shaft) (hhalf : shaft ≤ half) (hside : shaft ≤ side)
    (hhead : 0 ≤ head) (hedge : edge ≤ d.along f - head)
    (hrest : ∀ p ∈ rest, d.reach f p ≤ d.along f - head) :
    (calloutArm d f half shaft head edge side).Carries f d rest where
  toLeads := axialHead_leads d f _ hshaft hhalf hhead hrest
  edge := by simp [calloutArm]
  straight := ⟨d.offset_spot .., d.offset_spot ..⟩
  between := d.inOrder_spot f hshaft hside _ _ _ _ _
  clear := by simpa [calloutArm, axialHead] using hedge

namespace Shape

/-- The head is within the room on its side, and leaves the box the rest of it. -/
structure CalloutGuides.Fits (g : CalloutGuides ℝ) (h room : ℝ) : Prop where
  shaft_nonneg : 0 ≤ g.shaft
  shaft_le : g.shaft ≤ g.half
  half_le : g.half ≤ h / 2
  head_nonneg : 0 ≤ g.head
  head_le : g.head ≤ room
  box_nonneg : 0 ≤ g.box
  box_le : room * g.box / 100000 ≤ room - g.head

variable {f : Frame ℝ} (hf : f.Sized)
include hf

/-- What a head leaves of its room, as a part of the room. -/
theorem rest_of_room {a room : ℝ} (ha : 0 ≤ a) (hroom : f.shortPart a ≤ room) :
    0 ≤ 100000 - divOrZero (a * f.ss) room ∧
      room * (100000 - divOrZero (a * f.ss) room) / 100000 ≤ room - f.shortPart a := by
  have hpart := hf.shortPart_nonneg ha
  rw [divOrZero_real]
  rw [Frame.shortPart_real] at hroom hpart ⊢
  rcases (hpart.trans hroom).eq_or_lt with rfl | hpos
  · constructor <;> simp
    linarith
  · have hle : a * f.ss / room ≤ 100000 := (div_le_iff₀ hpos).2 (by linarith)
    have hmul : room * (a * f.ss / room) = a * f.ss := mul_div_cancel₀ _ hpos.ne'
    constructor <;> linarith

theorem CalloutGuides.ofFrame_fits {h room mostHead : ℝ} (defaultBox : ℝ) (hh : 0 ≤ h)
    (hmost : 0 ≤ mostHead) (hroom : f.shortPart mostHead ≤ room) :
    (ofFrame f h room mostHead defaultBox).Fits h room := by
  have hwidth : 0 ≤ 50000 * h := by positivity
  set a2 := f.pinned "adj2" 25000 0 (divOrZero (50000 * h) f.ss) with ha2
  set a3 := f.pinned "adj3" 25000 0 mostHead with ha3
  obtain ⟨h2, h2'⟩ : 0 ≤ a2 ∧ a2 ≤ divOrZero (50000 * h) f.ss :=
    f.pinned_mem "adj2" 25000 (Frame.divOrZero_nonneg hwidth hf.ss_nonneg)
  obtain ⟨h1, h1'⟩ := f.pinned_mem "adj1" 25000 (show 0 ≤ 2 * a2 by linarith)
  obtain ⟨h3, h3'⟩ : 0 ≤ a3 ∧ a3 ≤ mostHead := f.pinned_mem "adj3" 25000 hmost
  have hhead := (hf.shortPart_le h3').trans hroom
  obtain ⟨hrest, hrest'⟩ := rest_of_room hf h3 hhead
  obtain ⟨h4, h4'⟩ := f.pinned_mem "adj4" defaultBox hrest
  have hroom' : 0 ≤ room := (hf.shortPart_nonneg h3).trans hhead
  have hbox := mul_le_mul_of_nonneg_left h4' hroom'
  have hhalf := (hf.shortPart_le h2').trans (Frame.shortPart_divOrZero_le hwidth)
  have hshaft := hf.shortPart_le h1'
  have hdouble : f.shortPart (2 * a2) = 2 * f.shortPart a2 := by
    simp only [Frame.shortPart_real]
    ring
  have hshaft' := hf.shortPart_nonneg h1
  have hhead' := hf.shortPart_nonneg h3
  simp only [ofFrame, Scalar.zero_real, ← ha2, ← ha3]
  constructor <;> simp only <;> linarith

theorem arrowCallout_armed (d : Facing) : (arrowCallout d f).Armed f [d] := by
  have hw : 0 ≤ d.along f := hf.ss_nonneg.trans d.ss_le_along
  have hh : 0 ≤ d.across f := hf.ss_nonneg.trans d.ss_le_across
  have hlength : 0 ≤ 100000 * d.along f := by positivity
  set g := CalloutGuides.ofFrame f (d.across f) (d.along f)
    (divOrZero (100000 * d.along f) f.ss) 64977 with hg
  obtain ⟨hshaft, hshaft', hhalf, hhead, hhead', hbox, hbox'⟩ : g.Fits (d.across f) (d.along f) :=
    CalloutGuides.ofFrame_fits hf 64977 hh (Frame.divOrZero_nonneg hlength hf.ss_nonneg)
      ((Frame.shortPart_divOrZero_le hlength).trans (by linarith))
  have hedge : 0 ≤ d.along f * g.box / 100000 := by positivity
  simp only [arrowCallout, Scalar.zero_real, ← hg]
  refine reflect_armed ?_ ?_
  · simp only [List.forall_mem_cons, List.not_mem_nil, IsEmpty.forall_iff, implies_true, and_true,
      Frame.Covers, Facing.lying_w, Facing.lying_h]
    constructorm* _ ∧ _ <;> linarith
  · rw [List.forall_mem_singleton]
    refine .ahead (hasArm_of_rotate 1
      (calloutArm .right _ g.half g.shaft g.head (d.along f * g.box / 100000) (d.across f / 2)) ?_
      (calloutArm_carries .right hshaft hshaft' (hshaft'.trans hhalf) hhead ?_ ?_))
    · simp [calloutArm, CalloutArm.vertices, ArrowHead.vertices, axialHead, Facing.spot,
        Frame.center, Frame.vc, sub_eq_add_neg]
    · simpa using hbox'
    · simpa [List.rotate] using hhead'

theorem twoHeadedCallout_armed (d : Facing) :
    (twoHeadedCallout d f).Armed f [d, d.opposite] := by
  have hw : 0 ≤ d.along f := hf.ss_nonneg.trans d.ss_le_along
  have hh : 0 ≤ d.across f := hf.ss_nonneg.trans d.ss_le_across
  have hlength : 0 ≤ 50000 * d.along f := by positivity
  set g := CalloutGuides.ofFrame f (d.across f) (d.along f / 2)
    (divOrZero (50000 * d.along f) f.ss) 48123 with hg
  obtain ⟨hshaft, hshaft', hhalf, hhead, hhead', hbox, hbox'⟩ :
      g.Fits (d.across f) (d.along f / 2) :=
    CalloutGuides.ofFrame_fits hf 48123 hh (Frame.divOrZero_nonneg hlength hf.ss_nonneg)
      ((Frame.shortPart_divOrZero_le hlength).trans (by linarith))
  have hedge : 0 ≤ d.along f * g.box / 200000 := by positivity
  simp only [twoHeadedCallout, Scalar.zero_real, ← hg]
  refine reflect_armed ?_ ?_
  · simp only [List.forall_mem_cons, List.not_mem_nil, IsEmpty.forall_iff, implies_true, and_true,
      Frame.Covers, Facing.lying_w, Facing.lying_h]
    constructorm* _ ∧ _ <;> linarith
  · simp only [List.forall_mem_cons, List.not_mem_nil, IsEmpty.forall_iff, implies_true, and_true]
    have hleft : d.along f - (d.along f / 2 + d.along f * g.box / 200000) =
        d.along f / 2 - d.along f * g.box / 200000 := by linarith
    constructor
    · refine .ahead (hasArm_of_rotate 5 (calloutArm .right _ g.half g.shaft g.head
        (d.along f / 2 + d.along f * g.box / 200000) (d.across f / 2)) ?_
        (calloutArm_carries .right hshaft hshaft' (hshaft'.trans hhalf) hhead ?_ ?_))
      · simp [calloutArm, CalloutArm.vertices, ArrowHead.vertices, axialHead, Facing.spot,
          Frame.center, Frame.vc, sub_eq_add_neg]
      · simp only [Facing.along_right, Facing.lying_w]
        linarith
      · simp [List.rotate]
        constructorm* _ ∧ _ <;> linarith
    · refine .backwards (hasArm_of_rotate 14 (calloutArm .left _ g.half g.shaft g.head
        (d.along f / 2 + d.along f * g.box / 200000) (d.across f / 2)) ?_
        (calloutArm_carries .left hshaft hshaft' (hshaft'.trans hhalf) hhead ?_ ?_))
      · simp [calloutArm, CalloutArm.vertices, ArrowHead.vertices, axialHead, Facing.spot,
          Frame.center, Frame.vc, hleft, sub_eq_add_neg]
      · simp only [Facing.along_left, Facing.lying_w]
        linarith
      · simp [List.rotate]
        constructorm* _ ∧ _ <;> linarith

/-- The adjustments in parts of the short side; the range of the last one is not inverted. -/
structure QuadCalloutGuides.Fits (g : QuadCalloutGuides ℝ) : Prop where
  shaft_nonneg : 0 ≤ g.shaft
  shaft_le : g.shaft ≤ 2 * g.half
  head_nonneg : 0 ≤ g.head
  half_add_head_le : g.half + g.head ≤ 50000
  bounds : g.shaft ≤ 100000 - 2 * g.head
  shaft_le_box : g.shaft ≤ g.box
  box_le : g.box ≤ 100000 - 2 * g.head

omit hf in
theorem QuadCalloutGuides.ofFrame_fits : (ofFrame f).Fits := by
  set a2 := f.pinned "adj2" 18515 0 50000 with ha2
  set a1 := f.pinned "adj1" 18515 0 (2 * a2) with ha1
  set a3 := f.pinned "adj3" 18515 0 (50000 - a2) with ha3
  obtain ⟨h2, h2'⟩ : 0 ≤ a2 ∧ a2 ≤ 50000 := f.pinned_mem "adj2" 18515 (by norm_num)
  obtain ⟨h1, h1'⟩ : 0 ≤ a1 ∧ a1 ≤ 2 * a2 := f.pinned_mem "adj1" 18515 (by linarith)
  obtain ⟨h3, h3'⟩ : 0 ≤ a3 ∧ a3 ≤ 50000 - a2 := f.pinned_mem "adj3" 18515 (by linarith)
  -- a shaft as wide as its head leaves the two heads beside it their length
  have hbounds : a1 ≤ 100000 - 2 * a3 := by linarith
  obtain ⟨h4, h4'⟩ := f.pinned_mem "adj4" 48123 hbounds
  simp only [ofFrame, Scalar.zero_real, ← ha2, ← ha1, ← ha3]
  constructor <;> simp only <;> linarith

/-- Half the widths of head and shaft, the length of a head, and half the box along each side: the
box is between the shaft and the base of the head. -/
structure QuadLengths (f : Frame ℝ) (half shaft head dx dy : ℝ) : Prop where
  w_eq : f.w = f.hc + f.hc
  h_eq : f.h = f.vc + f.vc
  shaft_nonneg : 0 ≤ shaft
  shaft_le : shaft ≤ half
  head_nonneg : 0 ≤ head
  half_add_head_le_hc : half + head ≤ f.hc
  half_add_head_le_vc : half + head ≤ f.vc
  shaft_le_dx : shaft ≤ dx
  dx_add_head_le : dx + head ≤ f.hc
  shaft_le_dy : shaft ≤ dy
  dy_add_head_le : dy + head ≤ f.vc

theorem quadLengths_fit :
    let g := QuadCalloutGuides.ofFrame f
    QuadLengths f (f.shortPart g.half) (f.shortPart g.shaft / 2) (f.shortPart g.head)
      (f.w * g.box / 200000) (f.h * g.box / 200000) := by
  intro g
  obtain ⟨h1, h1', h3, h3', -, h4, h4'⟩ : g.Fits := QuadCalloutGuides.ofFrame_fits
  have hw := f.ss_le_w
  have hh := f.ss_le_h
  have hhc : f.hc = f.w / 2 := rfl
  have hvc : f.vc = f.h / 2 := rfl
  have hshaft := hf.shortPart_nonneg h1
  have hhead := hf.shortPart_nonneg h3
  have hhalf : f.shortPart g.shaft / 2 ≤ f.shortPart g.half := by
    have h := hf.shortPart_le h1'
    simp only [Frame.shortPart_real] at h ⊢
    linarith
  have hsum : f.shortPart g.half + f.shortPart g.head ≤ f.ss / 2 := by
    have h := hf.shortPart_le h3'
    simp only [Frame.shortPart_real] at h ⊢
    linarith
  have hbox {side : ℝ} (hside : f.ss ≤ side) : f.shortPart g.shaft / 2 ≤ side * g.box / 200000 ∧
      side * g.box / 200000 ≤ side / 2 - f.shortPart g.head := by
    have hside' := hf.ss_nonneg.trans hside
    have hlo := mul_le_mul hside h4 h1 hside'
    have hhi := mul_le_mul_of_nonneg_left h4' hside'
    have hle := mul_le_mul_of_nonneg_right hside h3
    simp only [Frame.shortPart_real]
    constructor <;> linarith
  obtain ⟨hboxw, hboxw'⟩ := hbox hw
  obtain ⟨hboxh, hboxh'⟩ := hbox hh
  constructor <;> linarith

/-- The outline in terms of its lengths, from the left tip on. -/
theorem quadArrowCallout_vertices : ∃ half shaft head dx dy : ℝ,
    QuadLengths f half shaft head dx dy ∧
    (quadArrowCallout f).vertices =
      [⟨0, f.vc⟩, ⟨head, f.vc - half⟩, ⟨head, f.vc - shaft⟩, ⟨f.hc - dx, f.vc - shaft⟩,
        ⟨f.hc - dx, f.vc - dy⟩, ⟨f.hc - shaft, f.vc - dy⟩, ⟨f.hc - shaft, head⟩,
        ⟨f.hc - half, head⟩, ⟨f.hc, 0⟩, ⟨f.hc + half, head⟩, ⟨f.hc + shaft, head⟩,
        ⟨f.hc + shaft, f.vc - dy⟩, ⟨f.hc + dx, f.vc - dy⟩, ⟨f.hc + dx, f.vc - shaft⟩,
        ⟨f.w - head, f.vc - shaft⟩, ⟨f.w - head, f.vc - half⟩, ⟨f.w, f.vc⟩,
        ⟨f.w - head, f.vc + half⟩, ⟨f.w - head, f.vc + shaft⟩, ⟨f.hc + dx, f.vc + shaft⟩,
        ⟨f.hc + dx, f.vc + dy⟩, ⟨f.hc + shaft, f.vc + dy⟩, ⟨f.hc + shaft, f.h - head⟩,
        ⟨f.hc + half, f.h - head⟩, ⟨f.hc, f.h⟩, ⟨f.hc - half, f.h - head⟩,
        ⟨f.hc - shaft, f.h - head⟩, ⟨f.hc - shaft, f.vc + dy⟩, ⟨f.hc - dx, f.vc + dy⟩,
        ⟨f.hc - dx, f.vc + shaft⟩, ⟨head, f.vc + shaft⟩, ⟨head, f.vc + half⟩] :=
  ⟨_, _, _, _, _, quadLengths_fit hf, by
    simp only [quadArrowCallout, vertices_polygon, Scalar.zero_real]⟩

theorem quadArrowCallout_covers : ∀ p ∈ (quadArrowCallout f).vertices, f.Covers p := by
  obtain ⟨half, shaft, head, dx, dy, hfit, hps⟩ := quadArrowCallout_vertices hf
  obtain ⟨hw, hh, hshaft, hshaft', hhead, hhalfw, hhalfh, hdx, hdx', hdy, hdy'⟩ := hfit
  simp only [hps, List.forall_mem_cons, List.not_mem_nil, IsEmpty.forall_iff, implies_true,
    and_true, Frame.Covers]
  constructorm* _ ∧ _ <;> linarith

/-- On each side the arm is the same, with the box as far out and as wide as it is there. -/
theorem quadArrowCallout_arm (d : Facing) : HasArm f d (quadArrowCallout f).vertices := by
  obtain ⟨half, shaft, head, dx, dy, hfit, hps⟩ := quadArrowCallout_vertices hf
  obtain ⟨hw, hh, hshaft, hshaft', hhead, hhalfw, hhalfh, hdx, hdx', hdy, hdy'⟩ := hfit
  have hleft : f.w - (f.hc + dx) = f.hc - dx := by linarith
  have hup : f.h - (f.vc + dy) = f.vc - dy := by linarith
  let edge : Facing → ℝ
    | .left | .right => f.hc + dx
    | .up | .down => f.vc + dy
  let side : Facing → ℝ
    | .left | .right => dy
    | .up | .down => dx
  -- the outline goes around from the left tip, so its first arm comes last
  let first : Facing → ℕ
    | .left => 28
    | .up => 4
    | .right => 12
    | .down => 20
  rw [hps]
  refine hasArm_of_rotate (first d) (calloutArm d f half shaft head (edge d) (side d)) ?_
    (calloutArm_carries d hshaft hshaft' ?_ hhead ?_ ?_)
  · cases d <;> simp [first, edge, side, calloutArm, CalloutArm.vertices, ArrowHead.vertices,
      axialHead, Facing.spot, Frame.center, hleft, hup, sub_eq_add_neg]
  · cases d <;> assumption
  · cases d <;> simp only [edge, Facing.along_left, Facing.along_right, Facing.along_up,
      Facing.along_down] <;> linarith
  · cases d <;> simp [first, List.rotate] <;> constructorm* _ ∧ _ <;> linarith

theorem quadArrowCallout_armed :
    (quadArrowCallout f).Armed f [.left, .up, .right, .down] where
  closed := by simp only [quadArrowCallout, vertices_polygon]
  covers := quadArrowCallout_covers hf
  arms := fun d _ => quadArrowCallout_arm hf d

end Shape

/-- The arrow callouts, each with the directions of its arms. -/
def Preset.arrowCallouts : List (Preset × List Facing) :=
  [(.rightArrowCallout, [.right]), (.leftArrowCallout, [.left]), (.upArrowCallout, [.up]),
    (.downArrowCallout, [.down]), (.leftRightArrowCallout, [.right, .left]),
    (.upDownArrowCallout, [.down, .up]), (.quadArrowCallout, [.left, .up, .right, .down])]

/-- In every frame, flat ones too, and with any adjustments an arrow callout stays in the frame; on
each side with an arrow the shaft is between the corners of its head and between those of the box,
and the edge of the box is behind the base of the head. The range that the box of four arms is
pinned to is never inverted. -/
theorem arrowCallouts_fit (w h : ℝ) (a : Adjustments ℝ) :
    let f := Frame.ofSides w h a
    let g := QuadCalloutGuides.ofFrame f
    (∀ q ∈ Preset.arrowCallouts, (q.1.sketch f).Armed f q.2) ∧
      g.box = f.pinned "adj4" 48123 g.shaft (100000 - 2 * g.head) ∧
      g.shaft ≤ 100000 - 2 * g.head := by
  intro f g
  have hf : f.Sized := Frame.ofSides_sized w h a
  refine ⟨?_, rfl, QuadCalloutGuides.ofFrame_fits.bounds⟩
  simp only [Preset.arrowCallouts, List.forall_mem_cons, List.not_mem_nil, IsEmpty.forall_iff,
    implies_true, and_true]
  exact ⟨arrowCallout_armed hf .right, arrowCallout_armed hf .left, arrowCallout_armed hf .up,
    arrowCallout_armed hf .down, twoHeadedCallout_armed hf .right, twoHeadedCallout_armed hf .down,
    quadArrowCallout_armed hf⟩

end
end ShapeOutline
