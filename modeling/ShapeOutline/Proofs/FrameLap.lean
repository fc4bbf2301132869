import Mathlib
import ShapeOutline.Preset.Sketch
import ShapeOutline.Proofs.Legs

/-! Rectangles with treated corners go around their frame once. Each stretch of the lap is a
side, run along without turning back, or a corner, cut off at the same distance on both
of its sides. -/

namespace ShapeOutline
noncomputable section

open Shape

namespace Shape.Side

def length (f : Frame ℝ) : Side → ℝ
  | top | bottom => f.w
  | right | left => f.h

/-- The point of a side at a distance from its start, clockwise. -/
def pointAt (f : Frame ℝ) (d : ℝ) : Side → Point ℝ
  | top => ⟨d, 0⟩
  | right => ⟨f.w, d⟩
  | bottom => ⟨f.w - d, f.h⟩
  | left => ⟨0, f.h - d⟩

end Shape.Side

namespace Shape.CornerPlace

/-- The side that leads to a corner, clockwise. -/
def before : CornerPlace → Side
  | topLeft => .left
  | topRight => .top
  | bottomRight => .right
  | bottomLeft => .bottom

def after : CornerPlace → Side
  | topLeft => .top
  | topRight => .right
  | bottomRight => .bottom
  | bottomLeft => .left

end Shape.CornerPlace

/-- A point on a side of the frame. -/
def Frame.OnBoundary (f : Frame ℝ) (p : Point ℝ) : Prop :=
  ∃ (side : Side) (d : ℝ), 0 ≤ d ∧ d ≤ side.length f ∧ p = side.pointAt f d

/-- A part of the way around a frame. -/
inductive Stretch where
  | side (s : Side)
  | corner (c : CornerPlace)

/-- The way around, clockwise from the left side's end. -/
def Stretch.lap : List Stretch :=
  [.corner .topLeft, .side .top, .corner .topRight, .side .right, .corner .bottomRight,
    .side .bottom, .corner .bottomLeft, .side .left]

namespace Leg

/-- A straight leg along a side, in the clockwise direction or of no length. -/
structure RunsAlong (f : Frame ℝ) (side : Side) (l : Leg) : Prop where
  straight : l.stroke.IsStraight
  ends : ∃ d e, 0 ≤ d ∧ d ≤ e ∧ e ≤ side.length f ∧
    l.trail.pen = side.pointAt f d ∧ l.target = side.pointAt f e

/-- A straight leg or a quarter of a circle from the one side of a corner to the other, as far from
the corner on both. -/
structure RunsAcross (f : Frame ℝ) (place : CornerPlace) (l : Leg) : Prop where
  ends : ∃ d, 0 ≤ d ∧ d ≤ place.before.length f ∧ d ≤ place.after.length f ∧
    l.trail.pen = place.before.pointAt f (place.before.length f - d) ∧
    l.target = place.after.pointAt f d ∧
    (l.stroke.IsStraight ∨ ∃ start sweep, l.stroke = .arc ⟨d, d⟩ start sweep ∧ |sweep| = 90)

def Follows (f : Frame ℝ) (l : Leg) : Stretch → Prop
  | .side s => l.RunsAlong f s
  | .corner c => l.RunsAcross f c

theorem Follows.target_onBoundary {f : Frame ℝ} {l : Leg} {s : Stretch} (h : l.Follows f s) :
    f.OnBoundary l.target := by
  cases s with
  | side s =>
    obtain ⟨-, d, e, hd, hde, he, -, htarget⟩ := h
    exact ⟨s, e, hd.trans hde, he, htarget⟩
  | corner c =>
    obtain ⟨d, hd, -, hafter, -, htarget, -⟩ := h
    exact ⟨c.after, d, hd, hafter, htarget⟩

end Leg

/-- The legs of a closed outline. -/
structure Circuit where
  opening : Leg
  around : List Leg
  closing : List Leg

namespace Circuit

def all (o : Circuit) : List Leg := o.opening :: o.around ++ o.closing

/-- Stretches in the order of the lap, each of them once at most and every side among them. -/
structure OnceAround (stretches : List Stretch) : Prop where
  sides : ∀ s, .side s ∈ stretches
  ordered : ∃ n, stretches.Sublist (Stretch.lap.rotate n)

/-- From a point of the boundary once around the frame, and closed there. A closing leg may be left
over that does not lead anywhere. -/
structure GoesAround (o : Circuit) (f : Frame ℝ) : Prop where
  opens : o.opening.stroke = .move o.opening.target
  starts : f.OnBoundary o.opening.target
  follows : ∃ stretches, OnceAround stretches ∧ List.Forall₂ (Leg.Follows f) o.around stretches
  stays : ∀ l ∈ o.closing, l.trail.pen = o.opening.target ∧ l.target = o.opening.target
  closes : ∃ l, o.all.getLast? = some l ∧ l.stroke = .close ∧ l.target = o.opening.target

theorem GoesAround.target_onBoundary {o : Circuit} {f : Frame ℝ} (h : o.GoesAround f) {l : Leg}
    (hl : l ∈ o.all) : f.OnBoundary l.target := by
  rw [all, List.cons_append, List.mem_cons, List.mem_append] at hl
  rcases hl with rfl | hl | hl
  · exact h.starts
  · obtain ⟨stretches, -, hfollows⟩ := h.follows
    obtain ⟨i, hi, rfl⟩ := List.getElem_of_mem hl
    exact (hfollows.get hi (hfollows.length_eq ▸ hi)).target_onBoundary
  · rw [(h.stays l hl).2]
    exact h.starts

end Circuit

namespace Shape

variable (f : Frame ℝ) (place : CornerPlace) (d : ℝ)

theorem Corner.entry_eq : Corner.entry f.w f.h d place =
    place.before.pointAt f (place.before.length f - d) := by
  cases place <;> simp [Corner.entry, CornerPlace.before, Side.pointAt, Side.length]

theorem Corner.exit_eq : Corner.exit f.w f.h d place = place.after.pointAt f d := by
  cases place <;> simp [Corner.exit, CornerPlace.after, Side.pointAt]

/-- Where a side ends the next one begins. -/
theorem CornerPlace.pointAt_corner :
    place.before.pointAt f (place.before.length f) = place.after.pointAt f 0 := by
  cases place <;> simp [before, after, Side.pointAt, Side.length]

theorem bearing_full : bearing 360 = ⟨1, 0⟩ := by
  rw [← zero_add (360 : ℝ), bearing_add_full, bearing_zero]

/-- A quarter of a circle about the centre of a rounded corner. -/
theorem Corner.round_turn : Corner.entry f.w f.h d place -
    bearing (Corner.roundStart place) * d + bearing (Corner.roundStart place + 90) * d =
      Corner.exit f.w f.h d place := by
  cases place <;> simp only [Corner.entry, Corner.exit, Corner.roundStart, Scalar.zero_real] <;>
    ext <;> norm_num [bearing_zero, bearing_ninety, bearing_half, bearing_threeQuarters,
      bearing_full]

/-- A quarter of a circle about the corner itself. -/
theorem Corner.scoop_turn : Corner.entry f.w f.h d place -
    bearing (Corner.scoopStart place) * d + bearing (Corner.scoopStart place + -90) * d =
      Corner.exit f.w f.h d place := by
  cases place <;> simp only [Corner.entry, Corner.exit, Corner.scoopStart, Scalar.zero_real] <;>
    ext <;> norm_num [bearing_zero, bearing_ninety, bearing_half, bearing_threeQuarters,
      bearing_up_left, sub_eq_add_neg]

end Shape

/-- From trail to trail strokes follow some stretches, whatever comes after them. -/
def Traverses (f : Frame ℝ) (s : Sketch ℝ) (t u : Trail) (stretches : List Stretch) : Prop :=
  ∃ legs, List.Forall₂ (Leg.Follows f) legs stretches ∧
    ∀ rest, (Path.bare t).legs (s ++ rest) = legs ++ (Path.bare u).legs rest

namespace Traverses

variable {f : Frame ℝ} {s s' : Sketch ℝ} {t u v : Trail} {a b : List Stretch}

theorem nil : Traverses f [] t t [] := ⟨[], .nil, fun _ => rfl⟩

theorem append (h : Traverses f s t u a) (h' : Traverses f s' u v b) :
    Traverses f (s ++ s') t v (a ++ b) := by
  obtain ⟨legs, hlegs, hs⟩ := h
  obtain ⟨legs', hlegs', hs'⟩ := h'
  refine ⟨legs ++ legs', List.rel_append hlegs hlegs', fun rest => ?_⟩
  rw [List.append_assoc, hs, hs', List.append_assoc]

theorem single {c : Stroke ℝ} {q : Point ℝ} {stretch : Stretch}
    (h : Leg.Follows f ⟨t, c, q⟩ stretch)
    (hafter : ∀ rest, (Path.bare t).legs (c :: rest) =
      ⟨t, c, q⟩ :: (Path.bare ⟨q, t.start⟩).legs rest) :
    Traverses f [c] t ⟨q, t.start⟩ [stretch] :=
  ⟨[⟨t, c, q⟩], .cons h .nil, hafter⟩

end Traverses

namespace Circuit

variable {f : Frame ℝ} {s : Sketch ℝ} {p q : Point ℝ} {a : List Stretch} (hp : f.OnBoundary p)

/-- The leg to where a path from the middle of nowhere begins. -/
def openingAt (p : Point ℝ) : Leg := ⟨⟨⟨0, 0⟩, ⟨0, 0⟩⟩, .move p, p⟩

theorem legs_eq {legs : List Leg}
    (hs : ∀ rest, (Path.bare ⟨p, p⟩).legs (s ++ rest) = legs ++ (Path.bare ⟨q, p⟩).legs rest) :
    Path.empty.legs (.move p :: s ++ [.close]) =
      openingAt p :: legs ++ [⟨⟨q, p⟩, .close, p⟩] := by
  rw [List.cons_append, Path.empty_eq, Path.legs_move, hs, Path.legs_close, Path.legs_nil]
  rfl

include hp

/-- The closing leg is the last stretch. -/
theorem goesAround_of_follows (h : Traverses f s ⟨p, p⟩ ⟨q, p⟩ a) {last : Stretch}
    (hlast : Leg.Follows f ⟨⟨q, p⟩, .close, p⟩ last) (ha : OnceAround (a ++ [last])) :
    ∃ o : Circuit, Path.empty.legs (.move p :: s ++ [.close]) = o.all ∧ o.GoesAround f := by
  obtain ⟨legs, hlegs, hs⟩ := h
  refine ⟨⟨openingAt p, legs ++ [⟨⟨q, p⟩, .close, p⟩], []⟩, ?_, rfl, hp, ?_, nofun, ?_⟩
  · rw [legs_eq hs, all, List.append_nil, List.cons_append]
  · exact ⟨_, ha, List.rel_append hlegs (.cons hlast .nil)⟩
  · refine ⟨⟨⟨q, p⟩, .close, p⟩, ?_, rfl, rfl⟩
    rw [all, List.append_nil, ← List.cons_append, List.getLast?_concat]

/-- The last stretch ends where the outline began. -/
theorem goesAround_of_stays (h : Traverses f s ⟨p, p⟩ ⟨p, p⟩ a) (ha : OnceAround a) :
    ∃ o : Circuit, Path.empty.legs (.move p :: s ++ [.close]) = o.all ∧ o.GoesAround f := by
  obtain ⟨legs, hlegs, hs⟩ := h
  refine ⟨⟨openingAt p, legs, [⟨⟨p, p⟩, .close, p⟩]⟩, legs_eq hs, rfl, hp, ⟨_, ha, hlegs⟩, ?_, ?_⟩
  · simp [openingAt]
  · exact ⟨⟨⟨p, p⟩, .close, p⟩, List.getLast?_concat, rfl, rfl⟩

end Circuit

namespace Shape

variable {f : Frame ℝ}

/-- A corner treated as far as half the short side. -/
structure Corner.Fits (c : Corner ℝ) (f : Frame ℝ) : Prop where
  inset_nonneg : 0 ≤ c.inset
  inset_le : 2 * c.inset ≤ f.ss

theorem Side.ss_le_length (f : Frame ℝ) (s : Side) : f.ss ≤ s.length f := by
  cases s
  exacts [f.ss_le_w, f.ss_le_h, f.ss_le_w, f.ss_le_h]

/-- There is room for two corners on each side. -/
theorem Corner.Fits.add_le {c c' : Corner ℝ} (hc : c.Fits f) (hc' : c'.Fits f) (s : Side) :
    c.inset + c'.inset ≤ s.length f := by
  have hss := s.ss_le_length f
  have h := hc.inset_le
  have h' := hc'.inset_le
  linarith

theorem Corner.Fits.le {c : Corner ℝ} (hc : c.Fits f) (s : Side) : c.inset ≤ s.length f :=
  (le_add_of_nonneg_left hc.inset_nonneg).trans (hc.add_le hc s)

namespace Corner

variable (place : CornerPlace) {c : Corner ℝ} (start : Point ℝ)

/-- A corner that is left square is no stretch of its own. -/
def stretches (place : CornerPlace) : Corner ℝ → List Stretch
  | square => []
  | _ => [.corner place]

theorem stretches_sublist (c : Corner ℝ) : (c.stretches place).Sublist [.corner place] := by
  cases c with
  | square => exact List.nil_sublist _
  | snip d => exact .refl _
  | round d => exact .refl _
  | scoop d => exact .refl _

theorem treatment_traverses (hc : c.Fits f) : Traverses f (c.treatment f.w f.h place)
    ⟨place.before.pointAt f (place.before.length f - c.inset), start⟩
    ⟨place.after.pointAt f c.inset, start⟩ (c.stretches place) := by
  have hpos := hc.inset_nonneg
  have hbefore := hc.le place.before
  have hafter := hc.le place.after
  rw [← entry_eq, ← exit_eq]
  cases c with
  | square =>
    have hcorner : Corner.entry f.w f.h 0 place = Corner.exit f.w f.h 0 place := by
      rw [entry_eq, exit_eq, sub_zero, CornerPlace.pointAt_corner]
    simp only [inset, Scalar.zero_real, hcorner]
    exact .nil
  | snip d =>
    refine .single ⟨d, hpos, hbefore, hafter, entry_eq .., exit_eq .., .inl trivial⟩ fun rest => ?_
    exact Path.legs_line _ _ rest
  | round d =>
    refine .single ⟨d, hpos, hbefore, hafter, entry_eq .., exit_eq .., .inr ⟨_, 90, rfl, ?_⟩⟩
      fun rest => ?_
    · norm_num
    · exact Path.legs_circle rest hpos (by norm_num) (by norm_num) (round_turn f place d)
  | scoop d =>
    refine .single ⟨d, hpos, hbefore, hafter, entry_eq .., exit_eq .., .inr ⟨_, -90, rfl, ?_⟩⟩
      fun rest => ?_
    · norm_num
    · exact Path.legs_circle rest hpos (by norm_num) (by norm_num) (scoop_turn f place d)

/-- Along the side before a corner. -/
theorem line_traverses (hc : 0 ≤ c.inset) {d : ℝ} (hd : 0 ≤ d)
    (hroom : d + c.inset ≤ place.before.length f) :
    Traverses f [.line (entry f.w f.h c.inset place)] ⟨place.before.pointAt f d, start⟩
      ⟨place.before.pointAt f (place.before.length f - c.inset), start⟩ [.side place.before] := by
  rw [entry_eq]
  refine .single ⟨trivial, d, _, hd, le_sub_iff_add_le.2 hroom, sub_le_self _ hc, rfl, rfl⟩
    fun rest => ?_
  exact Path.legs_line _ _ rest

theorem strokes_traverses (hc : c.Fits f) {d : ℝ} (hd : 0 ≤ d)
    (hroom : d + c.inset ≤ place.before.length f) :
    Traverses f (c.strokes f.w f.h place) ⟨place.before.pointAt f d, start⟩
      ⟨place.after.pointAt f c.inset, start⟩ (.side place.before :: c.stretches place) :=
  (line_traverses place start hc.inset_nonneg hd hroom).append (treatment_traverses place start hc)

end Corner

namespace CornerRect

structure Fits (r : CornerRect ℝ) (f : Frame ℝ) : Prop where
  topLeft : r.topLeft.Fits f
  topRight : r.topRight.Fits f
  bottomRight : r.bottomRight.Fits f
  bottomLeft : r.bottomLeft.Fits f

variable {r : CornerRect ℝ} (start : Point ℝ) (hr : r.Fits f)

def middleStretches (r : CornerRect ℝ) : List Stretch :=
  .side .top :: r.topRight.stretches .topRight ++
    .side .right :: r.bottomRight.stretches .bottomRight ++
      .side .bottom :: r.bottomLeft.stretches .bottomLeft

include hr

theorem middle_traverses : Traverses f (r.middle f.w f.h)
    ⟨Side.top.pointAt f r.topLeft.inset, start⟩ ⟨Side.left.pointAt f r.bottomLeft.inset, start⟩
    r.middleStretches := by
  have htop := Corner.strokes_traverses .topRight start hr.topRight hr.topLeft.inset_nonneg
    (hr.topLeft.add_le hr.topRight _)
  have hright := Corner.strokes_traverses .bottomRight start hr.bottomRight hr.topRight.inset_nonneg
    (hr.topRight.add_le hr.bottomRight _)
  have hbottom := Corner.strokes_traverses .bottomLeft start hr.bottomLeft
    hr.bottomRight.inset_nonneg (hr.bottomRight.add_le hr.bottomLeft _)
  exact (htop.append hright).append hbottom

omit hr in
theorem middleStretches_sublist (r : CornerRect ℝ) : r.middleStretches.Sublist
    [.side .top, .corner .topRight, .side .right, .corner .bottomRight, .side .bottom,
      .corner .bottomLeft] :=
  (((Corner.stretches_sublist _ _).cons_cons _).append
    ((Corner.stretches_sublist _ _).cons_cons _)).append
      ((Corner.stretches_sublist _ _).cons_cons _)

omit hr in
/-- With the left side, and its end treated before or after, they are all sides and corners. -/
theorem onceAround_edge (r : CornerRect ℝ) : Circuit.OnceAround
    (r.topLeft.stretches .topLeft ++ r.middleStretches ++ [.side .left]) where
  sides s := by cases s <;> simp [middleStretches]
  ordered := ⟨0, ((Corner.stretches_sublist _ _).append r.middleStretches_sublist).append
    (.refl _)⟩

omit hr in
theorem onceAround_top (r : CornerRect ℝ) : Circuit.OnceAround
    (r.middleStretches ++ (Stretch.side .left :: r.topLeft.stretches .topLeft)) where
  sides s := by cases s <;> simp [middleStretches]
  ordered := ⟨1, r.middleStretches_sublist.append
    ((Corner.stretches_sublist _ _).cons_cons _)⟩

/-- The left side from the bottom left corner up to the top left one. -/
theorem follows_left : Leg.Follows f ⟨⟨Side.left.pointAt f r.bottomLeft.inset, start⟩, .close,
    Side.left.pointAt f (f.h - r.topLeft.inset)⟩ (.side .left) :=
  ⟨trivial, _, _, hr.bottomLeft.inset_nonneg,
    le_sub_iff_add_le.2 (hr.bottomLeft.add_le hr.topLeft .left),
    sub_le_self _ hr.topLeft.inset_nonneg, rfl, rfl⟩

theorem fromEdge_goesAround :
    ∃ o : Circuit, Path.empty.legs (r.fromEdge f) = o.all ∧ o.GoesAround f := by
  have hstart : Corner.entry f.w f.h r.topLeft.inset .topLeft =
      Side.left.pointAt f (f.h - r.topLeft.inset) := Corner.entry_eq f .topLeft _
  have hroom : r.topLeft.inset ≤ f.h := hr.topLeft.le .left
  rw [fromEdge, hstart, List.cons_append]
  refine Circuit.goesAround_of_follows
    ⟨.left, _, sub_nonneg.2 hroom, sub_le_self _ hr.topLeft.inset_nonneg, rfl⟩
    ((Corner.treatment_traverses .topLeft _ hr.topLeft).append (middle_traverses _ hr))
    (follows_left _ hr) r.onceAround_edge

theorem fromTop_goesAround :
    ∃ o : Circuit, Path.empty.legs (r.fromTop f) = o.all ∧ o.GoesAround f := by
  set p := Side.top.pointAt f r.topLeft.inset with hp
  have hstart : Corner.exit f.w f.h r.topLeft.inset .topLeft = p := Corner.exit_eq f .topLeft _
  have hon : f.OnBoundary p := ⟨.top, _, hr.topLeft.inset_nonneg, hr.topLeft.le .top, rfl⟩
  have hmiddle := middle_traverses p hr
  have honce := r.onceAround_top
  have hleft := follows_left p hr
  have hroom := hr.bottomLeft.add_le hr.topLeft .left
  -- up to the entry of the top left corner, and around it unless closing does so
  have hline := Corner.line_traverses .topLeft p hr.topLeft.inset_nonneg
    hr.bottomLeft.inset_nonneg hroom
  have hstrokes : Traverses f (r.topLeft.strokes f.w f.h .topLeft)
      ⟨Side.left.pointAt f r.bottomLeft.inset, p⟩ ⟨p, p⟩
      (.side .left :: r.topLeft.stretches .topLeft) :=
    Corner.strokes_traverses .topLeft p hr.topLeft hr.bottomLeft.inset_nonneg hroom
  have htop := hr.topLeft
  rw [fromTop, hstart, List.cons_append]
  cases hcorner : r.topLeft with
  | square =>
    rw [hcorner] at honce hleft hp
    have hend : Side.left.pointAt f (f.h - Corner.square.inset) = p := by
      rw [hp]
      simp [Corner.inset, Side.pointAt]
    rw [hend] at hleft
    rw [Corner.last, List.append_nil]
    exact Circuit.goesAround_of_follows hon hmiddle hleft honce
  | snip d =>
    rw [hcorner] at honce hline htop hp
    have hsnip : Leg.Follows f ⟨⟨Side.left.pointAt f (f.h - d), p⟩, .close, p⟩ (.corner .topLeft) :=
      ⟨d, htop.inset_nonneg, htop.le .left, htop.le .top, rfl, hp, .inl trivial⟩
    refine Circuit.goesAround_of_follows hon (hmiddle.append hline) hsnip ?_
    rw [List.append_assoc]
    exact honce
  | round d =>
    rw [hcorner] at hstrokes honce
    exact Circuit.goesAround_of_stays hon (hmiddle.append hstrokes) honce
  | scoop d =>
    rw [hcorner] at hstrokes honce
    exact Circuit.goesAround_of_stays hon (hmiddle.append hstrokes) honce

end CornerRect

theorem square_fits (hf : f.Sized) : (Corner.square : Corner ℝ).Fits f := by
  have hss := hf.ss_nonneg
  constructor <;> simp only [Corner.inset, Scalar.zero_real] <;> linarith

/-- An adjustment asks for half the short side at most. -/
theorem adjusted_fits (hf : f.Sized) {c : Corner ℝ} {name : String} {default : ℝ}
    (hc : c.inset = cornerInset f name default) : c.Fits f := by
  have hpin := f.pinned_mem name default (show (0 : ℝ) ≤ 50000 by norm_num)
  have hle := hf.shortPart_le hpin.2
  rw [f.shortPart_real 50000] at hle
  simp only [cornerInset, Scalar.zero_real] at hc
  refine ⟨hc ▸ hf.shortPart_nonneg hpin.1, ?_⟩
  rw [hc]
  linarith

theorem sixth_fits (hf : f.Sized) : (Corner.round (f.ss / 6)).Fits f := by
  have hss := hf.ss_nonneg
  constructor <;> simp only [Corner.inset] <;> linarith

theorem CornerRect.uniform_fits {c : Corner ℝ} (hc : c.Fits f) : (uniform c).Fits f :=
  ⟨hc, hc, hc, hc⟩

end Shape

/-- The rectangles with treated corners. -/
def Preset.cornerRects : List Preset :=
  [.roundRect, .round1Rect, .round2SameRect, .round2DiagRect, .snip1Rect, .snip2SameRect,
    .snip2DiagRect, .snipRoundRect, .plaque, .flowChartAlternateProcess]

theorem cornerRects_outline {f : Frame ℝ} (hf : f.Sized) : ∀ p ∈ Preset.cornerRects,
    ∃ r : CornerRect ℝ, r.Fits f ∧ (p.sketch f = r.fromEdge f ∨ p.sketch f = r.fromTop f) := by
  have hround (name : String) (default : ℝ) : (Corner.round (cornerInset f name default)).Fits f :=
    adjusted_fits hf rfl
  have hsnip (name : String) (default : ℝ) : (Corner.snip (cornerInset f name default)).Fits f :=
    adjusted_fits hf rfl
  have hscoop : (Corner.scoop (cornerInset f "adj" 16667)).Fits f := adjusted_fits hf rfl
  have hsquare := square_fits hf
  simp only [Preset.cornerRects, List.forall_mem_cons, List.not_mem_nil, IsEmpty.forall_iff,
    implies_true, and_true]
  refine ⟨?_, ?_, ?_, ?_, ?_, ?_, ?_, ?_, ?_, ?_⟩
  · exact ⟨_, CornerRect.uniform_fits (hround _ _), .inl rfl⟩
  · exact ⟨_, ⟨hsquare, hround _ _, hsquare, hsquare⟩, .inr rfl⟩
  · exact ⟨_, ⟨hround _ _, hround _ _, hround _ _, hround _ _⟩, .inr rfl⟩
  · exact ⟨_, ⟨hround _ _, hround _ _, hround _ _, hround _ _⟩, .inr rfl⟩
  · exact ⟨_, ⟨hsquare, hsnip _ _, hsquare, hsquare⟩, .inr rfl⟩
  · exact ⟨_, ⟨hsnip _ _, hsnip _ _, hsnip _ _, hsnip _ _⟩, .inr rfl⟩
  · exact ⟨_, ⟨hsnip _ _, hsnip _ _, hsnip _ _, hsnip _ _⟩, .inr rfl⟩
  · exact ⟨_, ⟨hround _ _, hsnip _ _, hsquare, hsquare⟩, .inr rfl⟩
  · exact ⟨_, CornerRect.uniform_fits hscoop, .inl rfl⟩
  · exact ⟨_, CornerRect.uniform_fits (sixth_fits hf), .inl rfl⟩

/-- After any number of strokes the pen is on the boundary. -/
theorem Circuit.GoesAround.pen_onBoundary {f : Frame ℝ} (hf : f.Sized) {o : Circuit}
    (h : o.GoesAround f) {s : Sketch ℝ} (hs : Path.empty.legs s = o.all) (n : ℕ) :
    f.OnBoundary (Sketch.path (s.take n)).pen := by
  rcases Path.empty.exists_leg_of_prefix s n with hpen | ⟨l, hl, hpen⟩
  · refine ⟨.top, 0, le_rfl, hf.w_nonneg, ?_⟩
    rw [Sketch.path, hpen, Path.empty_eq]
    rfl
  · rw [Sketch.path, hpen]
    exact h.target_onBoundary (hs ▸ hl)

/-- Every rectangle with treated corners goes around its frame once, in every frame and with all
adjustments, and its pen never leaves the boundary. -/
theorem cornerRects_goAround {f : Frame ℝ} (hf : f.Sized) {p : Preset}
    (hp : p ∈ Preset.cornerRects) :
    (∃ o : Circuit, Path.empty.legs (p.sketch f) = o.all ∧ o.GoesAround f) ∧
      ∀ n, f.OnBoundary (Sketch.path ((p.sketch f).take n)).pen := by
  obtain ⟨r, hr, hsketch⟩ := cornerRects_outline hf p hp
  have h : ∃ o : Circuit, Path.empty.legs (p.sketch f) = o.all ∧ o.GoesAround f := by
    rcases hsketch with hsketch | hsketch
    · rw [hsketch]
      exact r.fromEdge_goesAround hr
    · rw [hsketch]
      exact r.fromTop_goesAround hr
  obtain ⟨o, ho, haround⟩ := h
  exact ⟨⟨o, ho, haround⟩, haround.pen_onBoundary hf ho⟩

/-- Opposite corners snipped as far as they can be, the others a little. -/
theorem snip2DiagRect_goesAround :
    let f : Frame ℝ := ⟨60, 40, ⟨[("adj1", 50000), ("adj2", 10000)]⟩⟩
    f.Sized ∧ Preset.snip2DiagRect ∈ Preset.cornerRects ∧
      (∃ o : Circuit, Path.empty.legs (Preset.snip2DiagRect.sketch f) = o.all ∧ o.GoesAround f) ∧
        ∀ n, f.OnBoundary (Sketch.path ((Preset.snip2DiagRect.sketch f).take n)).pen := by
  intro f
  have hf : f.Sized := ⟨by norm_num [f], by norm_num [f]⟩
  have hp : Preset.snip2DiagRect ∈ Preset.cornerRects := by decide
  exact ⟨hf, hp, cornerRects_goAround hf hp⟩

end
end ShapeOutline
