import Mathlib
import ShapeOutline.Preset.Sketch
import ShapeOutline.Proofs.Legs

/-! Arrows around corners. Their arcs end on the lines that go on from them, and the two
edges of a U-turn stay the thickness of the shaft apart. -/

namespace ShapeOutline
noncomputable section

open Shape

/-- The legs keep to the frame, straight ones to the axes and to the tangents of the arcs beside
them. Only the sides of the head, which meet at the tip, are slanted. -/
structure Joined (f : Frame ℝ) (tip : Point ℝ) (legs : List Leg) : Prop where
  covers : ∀ l ∈ legs, f.Covers l.trail.pen ∧ f.Covers l.target
  meets : legs.IsChain Leg.Meets
  level : ∃ before side side' after, legs = before ++ side :: side' :: after ∧
    side.stroke = .line tip ∧ side'.trail.pen = tip ∧ side'.stroke.IsStraight ∧
    ∀ l ∈ before ++ after, l.Level

theorem Joined.pen_covers {f : Frame ℝ} {tip : Point ℝ} {s : Sketch ℝ} (hf : f.Sized)
    (h : Joined f tip (Path.empty.legs s)) (n : ℕ) : f.Covers (Sketch.path (s.take n)).pen :=
  Path.pen_covers hf (fun l hl => (h.covers l hl).2) n

namespace Shape

/-- The head is as wide as the shaft with what stands out on either side of it, and the bend is
sharper inside. -/
structure BendGuides.Fits (g : BendGuides ℝ) : Prop where
  thickness_nonneg : 0 ≤ g.thickness
  overhang_nonneg : 0 ≤ g.overhang
  half_eq : 2 * g.half = g.thickness + 2 * g.overhang
  head_nonneg : 0 ≤ g.head
  outer_nonneg : 0 ≤ g.outer
  inner_nonneg : 0 ≤ g.inner
  outer_le : g.outer ≤ g.thickness + g.inner

structure BendGuides.FitsCorner (g : BendGuides ℝ) (f : Frame ℝ) : Prop extends g.Fits where
  half_le : 2 * g.half ≤ f.h
  outer_le_w : g.outer + g.head ≤ f.w
  outer_le_h : g.overhang + g.outer ≤ f.h
  inner_le_w : g.thickness + g.inner ≤ f.w
  inner_le_h : g.overhang + (g.thickness + g.inner) ≤ f.h

structure UturnGuides.FitsTurn (g : UturnGuides ℝ) (f : Frame ℝ) : Prop
    extends g.toBendGuides.Fits where
  half_le : 4 * g.half ≤ f.w
  inner_le : 2 * (g.thickness + g.inner) ≤ f.w - g.overhang
  inner_le_tip : g.thickness + g.inner ≤ g.tip - g.head
  tip_le : g.tip ≤ f.h
  leastTip_le : g.leastTip ≤ 100000

theorem thickness_add_inner (thickness outer : ℝ) :
    thickness + max (outer - thickness) 0 = max outer thickness := by
  rw [← max_add_add_left, add_sub_cancel, add_zero]

variable {f : Frame ℝ} (hf : f.Sized)
include hf

/-- The radius of the bend is within its room. -/
theorem bendRadius_mem {room : ℝ} (hroom : 0 ≤ room) :
    let r := f.shortPart (f.pinned "adj4" 43750 0 (shortRatio f room))
    0 ≤ r ∧ r ≤ room := by
  have hlength : 0 ≤ 100000 * room := by positivity
  obtain ⟨h4, h4'⟩ := f.pinned_mem "adj4" 43750 (Frame.divOrZero_nonneg hlength hf.ss_nonneg)
  refine ⟨hf.shortPart_nonneg h4, (hf.shortPart_le h4').trans ?_⟩
  exact (Frame.shortPart_divOrZero_le hlength).trans (by linarith)

/-- The thickness of the shaft, half the width of its head and how far the head stands out. -/
theorem shaft_fits {a1 a2 most : ℝ} (h1 : 0 ≤ a1) (h1' : a1 ≤ 2 * a2) (h2 : a2 ≤ most) :
    0 ≤ f.shortPart a1 ∧ 0 ≤ f.shortPart a2 - f.shortPart a1 / 2 ∧
      f.shortPart a2 ≤ f.ss * most / 100000 := by
  have hshaft := hf.shortPart_le h1'
  have hhalf := hf.shortPart_le h2
  have hnonneg := hf.shortPart_nonneg h1
  simp only [Frame.shortPart_real] at *
  refine ⟨hnonneg, ?_, ?_⟩ <;> linarith

theorem BendGuides.ofBentArrow_fits : (ofBentArrow f).FitsCorner f := by
  set a2 := f.pinned "adj2" 25000 0 50000 with ha2
  set a1 := f.pinned "adj1" 25000 0 (2 * a2) with ha1
  set a3 := f.pinned "adj3" 25000 0 50000 with ha3
  obtain ⟨h2, h2'⟩ : 0 ≤ a2 ∧ a2 ≤ 50000 := f.pinned_mem "adj2" 25000 (by norm_num)
  obtain ⟨h1, h1'⟩ : 0 ≤ a1 ∧ a1 ≤ 2 * a2 := f.pinned_mem "adj1" 25000 (by linarith)
  obtain ⟨h3, h3'⟩ : 0 ≤ a3 ∧ a3 ≤ 50000 := f.pinned_mem "adj3" 25000 (by norm_num)
  obtain ⟨hthick, hover, hhalf⟩ := shaft_fits hf h1 h1' h2'
  have hhead := hf.shortPart_nonneg h3
  have hhead' := hf.shortPart_le h3'
  rw [f.shortPart_real 50000] at hhead'
  have hw := f.ss_le_w
  have hh := f.ss_le_h
  have hss := hf.ss_nonneg
  have hroom : 0 ≤ min (f.w - f.shortPart a3)
      (f.h - (f.shortPart a2 - f.shortPart a1 / 2)) := le_min (by linarith) (by linarith)
  obtain ⟨hr, hr'⟩ := bendRadius_mem hf hroom
  obtain ⟨hr1, hr2⟩ := le_min_iff.1 hr'
  simp only [ofBentArrow, Scalar.zero_real, Scalar.min_real, Scalar.max_real, ← ha2, ← ha1, ← ha3]
  generalize f.shortPart (f.pinned "adj4" 43750 0 _) = r at hr hr' hr1 hr2 ⊢
  have hbend := le_max_left r (f.shortPart a1)
  have hbend_w : max r (f.shortPart a1) ≤ f.w := max_le (by linarith) (by linarith)
  have hbend_h : max r (f.shortPart a1) ≤ f.h - (f.shortPart a2 - f.shortPart a1 / 2) :=
    max_le hr2 (by linarith)
  refine ⟨⟨hthick, hover, ?_, hhead, hr, le_max_right .., ?_⟩, ?_, ?_, ?_, ?_, ?_⟩ <;>
    simp only [thickness_add_inner] <;> linarith

/-- The thickness of the shaft leaves the head some of the height. -/
theorem rest_nonneg {a : ℝ} (ha : 0 ≤ a) (ha' : a ≤ 100000) :
    0 ≤ divOrZero ((100000 - divOrZero (a * f.ss) f.h) * f.h) f.ss := by
  have hh := hf.h_nonneg
  have hle : divOrZero (a * f.ss) f.h ≤ a := by
    rw [divOrZero_real]
    exact div_le_of_le_mul₀ hh ha (mul_le_mul_of_nonneg_left f.ss_le_h ha)
  exact Frame.divOrZero_nonneg (mul_nonneg (by linarith) hh) hf.ss_nonneg

/-- A head that is no longer than the rest of the height has a tip within it. -/
theorem leastTip_fits {a1 a3 : ℝ}
    (h3 : a3 ≤ divOrZero ((100000 - divOrZero (a1 * f.ss) f.h) * f.h) f.ss) :
    divOrZero ((a3 + a1) * f.ss) f.h ≤ 100000 ∧
      f.heightPart (divOrZero ((a3 + a1) * f.ss) f.h) = f.shortPart a3 + f.shortPart a1 := by
  rw [divOrZero_real, divOrZero_real] at h3
  simp only [divOrZero_real, Frame.heightPart_real, Frame.shortPart_real]
  rcases hf.ss_nonneg.eq_or_lt with h0 | hss
  · simp [← h0]
  · have hh : 0 < f.h := hss.trans_le f.ss_le_h
    have hsum : (a3 + a1) * f.ss ≤ 100000 * f.h := by
      rw [le_div_iff₀ hss, sub_mul, div_mul_cancel₀ _ hh.ne'] at h3
      linarith
    refine ⟨(div_le_iff₀ hh).2 hsum, ?_⟩
    rw [mul_div_cancel₀ _ hh.ne']
    ring

theorem UturnGuides.ofFrame_fits : (ofFrame f).FitsTurn f := by
  set a2 := f.pinned "adj2" 25000 0 25000 with ha2
  set a1 := f.pinned "adj1" 25000 0 (2 * a2) with ha1
  set a3 := f.pinned "adj3" 25000 0
    (divOrZero ((100000 - divOrZero (a1 * f.ss) f.h) * f.h) f.ss) with ha3
  set least := divOrZero ((a3 + a1) * f.ss) f.h with hleast
  set a5 := f.pinned "adj5" 75000 least 100000 with ha5
  obtain ⟨h2, h2'⟩ : 0 ≤ a2 ∧ a2 ≤ 25000 := f.pinned_mem "adj2" 25000 (by norm_num)
  obtain ⟨h1, h1'⟩ : 0 ≤ a1 ∧ a1 ≤ 2 * a2 := f.pinned_mem "adj1" 25000 (by linarith)
  have hw := f.ss_le_w
  have hh := f.ss_le_h
  have hss := hf.ss_nonneg
  obtain ⟨h3, h3'⟩ : 0 ≤ a3 ∧ a3 ≤ _ :=
    f.pinned_mem "adj3" 25000 (rest_nonneg hf h1 (by linarith))
  obtain ⟨hleast', htip⟩ := leastTip_fits hf h3'
  obtain ⟨h5, h5'⟩ : least ≤ a5 ∧ a5 ≤ 100000 := f.pinned_mem "adj5" 75000 hleast'
  obtain ⟨hthick, hover, hhalf⟩ := shaft_fits hf h1 h1' h2'
  have hhead := hf.shortPart_nonneg h3
  have htip' := hf.heightPart_le h5
  have htip'' := hf.heightPart_le h5'
  rw [hleast, htip] at htip'
  rw [f.heightPart_real 100000] at htip''
  have hroom : 0 ≤ min ((f.w - (f.shortPart a2 - f.shortPart a1 / 2)) / 2)
      (f.heightPart a5 - f.shortPart a3) := le_min (by linarith) (by linarith)
  obtain ⟨hr, hr'⟩ := bendRadius_mem hf hroom
  obtain ⟨hr1, hr2⟩ := le_min_iff.1 hr'
  simp only [ofFrame, Scalar.zero_real, Scalar.min_real, Scalar.max_real, ← ha2, ← ha1, ← ha3,
    ← hleast, ← ha5]
  generalize f.shortPart (f.pinned "adj4" 43750 0 _) = r at hr hr' hr1 hr2 ⊢
  have hbend := le_max_left r (f.shortPart a1)
  have hbend_w :
      max r (f.shortPart a1) ≤ (f.w - (f.shortPart a2 - f.shortPart a1 / 2)) / 2 :=
    max_le hr1 (by linarith)
  have hbend_tip : max r (f.shortPart a1) ≤ f.heightPart a5 - f.shortPart a3 :=
    max_le hr2 (by linarith)
  refine ⟨⟨hthick, hover, ?_, hhead, hr, le_max_right .., ?_⟩, ?_, ?_, ?_, ?_, hleast'⟩ <;>
    simp only [thickness_add_inner] <;> linarith

theorem bentArrow_joined :
    Joined f ⟨f.w, (BendGuides.ofBentArrow f).half⟩ (Path.empty.legs (bentArrow f)) := by
  set g := BendGuides.ofBentArrow f with hg
  obtain ⟨⟨hthick, hover, hhalf, hhead, hr, hinner, houter⟩, hh, hrw, hrh, hiw, hih⟩ :
      g.FitsCorner f := BendGuides.ofBentArrow_fits hf
  simp only [bentArrow, ← hg, Scalar.zero_real, Path.empty_eq, Path.legs_move, Path.legs_line,
    Path.legs_close, Path.legs_nil, Path.legs_up_right _ hr, Path.legs_left_down _ hinner]
  refine ⟨?_, ?_, [_, _, _, _, _], _, _, [_, _, _, _, _], rfl, rfl, rfl, trivial, ?_⟩
  · simp only [List.forall_mem_cons, List.not_mem_nil, IsEmpty.forall_iff, implies_true, and_true,
      Frame.Covers]
    constructorm* _ ∧ _ <;> linarith
  · simp [Leg.meets_iff, Stroke.IsStraight, Leg.vector, dot_real, bearing_half, bearing_up_right,
      bearing_threeQuarters, bearing_left_down]
  · simp [Leg.Level, Stroke.IsStraight, Leg.vector]

theorem uturnArrow_joined :
    Joined f ⟨f.w - (UturnGuides.ofFrame f).half, (UturnGuides.ofFrame f).tip⟩
      (Path.empty.legs (uturnArrow f)) := by
  set g := UturnGuides.ofFrame f with hg
  obtain ⟨⟨hthick, hover, hhalf, hhead, hr, hinner, houter⟩, hw, hiw, hit, htip, -⟩ :
      g.FitsTurn f := UturnGuides.ofFrame_fits hf
  simp only [uturnArrow, ← hg, Scalar.zero_real, Path.empty_eq, Path.legs_move, Path.legs_line,
    Path.legs_close, Path.legs_nil, Path.legs_up_right _ hr, Path.legs_right_down _ hr,
    Path.legs_up_left _ hinner, Path.legs_left_down _ hinner]
  refine ⟨?_, ?_, [_, _, _, _, _, _, _], _, _, [_, _, _, _, _, _, _], rfl, rfl, rfl, trivial, ?_⟩
  · simp only [List.forall_mem_cons, List.not_mem_nil, IsEmpty.forall_iff, implies_true, and_true,
      Frame.Covers]
    constructorm* _ ∧ _ <;> linarith
  · simp [Leg.meets_iff, Stroke.IsStraight, Leg.vector, dot_real, bearing_half, bearing_up_right,
      bearing_threeQuarters, bearing_left_down, bearing_right_down, bearing_up_left, bearing_zero]
  · simp [Leg.Level, Stroke.IsStraight, Leg.vector]

end Shape

section Distances

variable {p q : Plane} {r m t w : ℝ}

/-- How far apart two points are. -/
def apart (p q : Plane) : ℝ := Real.sqrt ((q.1 - p.1) ^ 2 + (q.2 - p.2) ^ 2)

/-- Points are as far apart as they are in some direction. -/
theorem le_apart_of_direction {a b : ℝ} (hr : 0 < r) (hab : a ^ 2 + b ^ 2 = r ^ 2)
    (h : r * t ≤ a * (q.1 - p.1) + b * (q.2 - p.2)) : t ≤ apart p q := by
  set s := apart p q with hs
  have hs0 : 0 ≤ s := Real.sqrt_nonneg _
  have hs2 : s ^ 2 = (q.1 - p.1) ^ 2 + (q.2 - p.2) ^ 2 := Real.sq_sqrt (by positivity)
  have hsq : (a * (q.1 - p.1) + b * (q.2 - p.2)) ^ 2 ≤ (r * s) ^ 2 := by
    -- the squares of what is along the direction and of what is across it add up
    have hcross := sq_nonneg (a * (q.2 - p.2) - b * (q.1 - p.1))
    rw [mul_pow, hs2, ← hab]
    linarith
  have hle := (le_abs_self _).trans (abs_le_of_sq_le_sq hsq (by positivity))
  exact le_of_mul_le_mul_left (h.trans hle) hr

/-- In the direction of a corner of radius `r`, what is `d` off its centre along both axes and past
it along one of them. -/
theorem corner_direction {a b d u v : ℝ} (ha : 0 ≤ a) (hb : 0 ≤ b) (hr : 0 ≤ r)
    (hab : a ^ 2 + b ^ 2 = r ^ 2) (hu : d ≤ u) (hv : d ≤ v) (hpast : 0 ≤ u ∨ 0 ≤ v) :
    r * d ≤ a * u + b * v := by
  have hau := mul_le_mul_of_nonneg_left hu ha
  have hbv := mul_le_mul_of_nonneg_left hv hb
  rcases le_total 0 d with hd | hd
  · have hsum : r ≤ a + b := by
      have hprod := mul_nonneg ha hb
      exact le_of_sq_le_sq (by linarith) (by linarith)
    have hrd := mul_le_mul_of_nonneg_right hsum hd
    linarith
  · have har : a ≤ r := le_of_sq_le_sq (by linarith [sq_nonneg b]) hr
    have hbr : b ≤ r := le_of_sq_le_sq (by linarith [sq_nonneg a]) hr
    have hard := mul_le_mul_of_nonpos_right har hd
    have hbrd := mul_le_mul_of_nonpos_right hbr hd
    rcases hpast with hu0 | hv0
    · linarith [mul_nonneg ha hu0]
    · linarith [mul_nonneg hb hv0]

/-- The sides of an arch that is `w` wide, its top, and its corners of radius `r`. -/
def OnArch (r w : ℝ) (q : Plane) : Prop :=
  q.1 = 0 ∨ q.2 = 0 ∨ q.1 = w ∨
    (0 < r ∧ (q.1 - r) ^ 2 + (q.2 - r) ^ 2 = r ^ 2 ∧ q.1 ≤ r ∧ q.2 ≤ r) ∨
    (0 < r ∧ (q.1 - (w - r)) ^ 2 + (q.2 - r) ^ 2 = r ^ 2 ∧ w - r ≤ q.1 ∧ q.2 ≤ r)

/-- Points that are `t` inside the arch, and past the corners along one of the axes. -/
structure InsideArch (t m w : ℝ) (p : Plane) : Prop where
  left : t ≤ p.1
  right : p.1 ≤ w - t
  top : t ≤ p.2
  past : m ≤ p.2 ∨ m ≤ p.1 ∧ p.1 ≤ w - m

theorem InsideArch.le_apart (h : InsideArch t m w p) (hr : 0 ≤ r) (hm : r ≤ m) (hq : OnArch r w q) :
    t ≤ apart p q := by
  obtain ⟨hleft, hright, htop, hpast⟩ := h
  rcases hq with hq | hq | hq | ⟨hpos, hq, hq1, hq2⟩ | ⟨hpos, hq, hq1, hq2⟩
  · exact le_apart_of_direction (a := -1) (b := 0) one_pos (by norm_num) (by linarith)
  · exact le_apart_of_direction (a := 0) (b := -1) one_pos (by norm_num) (by linarith)
  · exact le_apart_of_direction (a := 1) (b := 0) one_pos (by norm_num) (by linarith)
  · -- outwards, from the centre of the corner to the point of its arc
    have hcorner : r * (t - r) ≤ (r - q.1) * (p.1 - r) + (r - q.2) * (p.2 - r) := by
      refine corner_direction ?_ ?_ hr ?_ ?_ ?_ ?_
      · linarith
      · linarith
      · linarith
      · linarith
      · linarith
      · exact hpast.symm.imp (fun h => by linarith [h.1]) (fun h => by linarith)
    refine le_apart_of_direction hpos hq ?_
    linear_combination hcorner - hq
  · have hcorner : r * (t - r) ≤ (q.1 - (w - r)) * (w - r - p.1) + (r - q.2) * (p.2 - r) := by
      refine corner_direction ?_ ?_ hr ?_ ?_ ?_ ?_
      · linarith
      · linarith
      · linarith
      · linarith
      · linarith
      · exact hpast.symm.imp (fun h => by linarith [h.2]) (fun h => by linarith)
    refine le_apart_of_direction hpos hq ?_
    linear_combination hcorner - hq

end Distances

/-- One edge of a shaft that turns twice: its straight runs, and the corners between them. -/
structure BendEdge where
  left : Leg
  corner : Leg
  top : Leg
  corner' : Leg
  right : Leg

namespace BendEdge

def legs (e : BendEdge) : List Leg := [e.left, e.corner, e.top, e.corner', e.right]

def drawn (e : BendEdge) : Set Plane := {p | ∃ l ∈ e.legs, p ∈ l.drawn}

def runs (e : BendEdge) : List Leg := [e.left, e.top, e.right]

end BendEdge

/-- The edges of a U-turn. Along its straight runs the inner one is the thickness of the shaft away
from the outer one, and its corners are one beside the other. -/
structure Parallel (outer inner : BendEdge) (thickness : ℝ) : Prop where
  straight : ∀ l ∈ outer.runs ++ inner.runs, l.stroke.IsStraight
  distance : ∀ l ∈ inner.runs, ∀ p ∈ l.drawn, IsLeast (apart p '' outer.drawn) thickness
  beside : ∀ p ∈ inner.corner.drawn, ∀ q ∈ inner.corner'.drawn, p.1 ≤ q.1
  touch : (inner.corner.drawn ∩ inner.corner'.drawn).Subsingleton

section Edges

variable (r t i w b y : ℝ)

/-- The outer edge, with corners of radius `r`, up from `b` and down to `y`. -/
def outerEdge : BendEdge where
  left := ⟨⟨⟨0, b⟩, ⟨0, b⟩⟩, .line ⟨0, r⟩, ⟨0, r⟩⟩
  corner := ⟨⟨⟨0, r⟩, ⟨0, b⟩⟩, .arc ⟨r, r⟩ 180 90, ⟨r, 0⟩⟩
  top := ⟨⟨⟨r, 0⟩, ⟨0, b⟩⟩, .line ⟨w - r, 0⟩, ⟨w - r, 0⟩⟩
  corner' := ⟨⟨⟨w - r, 0⟩, ⟨0, b⟩⟩, .arc ⟨r, r⟩ 270 90, ⟨w, r⟩⟩
  right := ⟨⟨⟨w, r⟩, ⟨0, b⟩⟩, .line ⟨w, y⟩, ⟨w, y⟩⟩

/-- The inner edge, with corners of radius `i`, drawn from its right end on. -/
def innerEdge : BendEdge where
  left := ⟨⟨⟨t, t + i⟩, ⟨0, b⟩⟩, .line ⟨t, b⟩, ⟨t, b⟩⟩
  corner := ⟨⟨⟨t + i, t⟩, ⟨0, b⟩⟩, .arc ⟨i, i⟩ 270 (-90), ⟨t, t + i⟩⟩
  top := ⟨⟨⟨w - t - i, t⟩, ⟨0, b⟩⟩, .line ⟨t + i, t⟩, ⟨t + i, t⟩⟩
  corner' := ⟨⟨⟨w - t, t + i⟩, ⟨0, b⟩⟩, .arc ⟨i, i⟩ 0 (-90), ⟨w - t - i, t⟩⟩
  right := ⟨⟨⟨w - t, y⟩, ⟨0, b⟩⟩, .line ⟨w - t, t + i⟩, ⟨w - t, t + i⟩⟩

variable {r t i w b y}

theorem onArch_of_mem_drawn (hr : 0 ≤ r) {q : Plane} (hq : q ∈ (outerEdge r w b y).drawn) :
    OnArch r w q := by
  obtain ⟨l, hl, hq⟩ := hq
  simp only [BendEdge.legs, List.mem_cons, List.not_mem_nil, or_false] at hl
  rcases hl with rfl | rfl | rfl | rfl | rfl
  · exact .inl (mem_segment_down.1 hq).1
  · have h := Trail.drawn_up_right hr hq
    rw [zero_add] at h
    exact .inr (.inr (.inr (.inl h)))
  · exact .inr (.inl (mem_segment_across.1 hq).1)
  · have h := Trail.drawn_right_down hr hq
    rw [zero_add] at h
    exact .inr (.inr (.inr (.inr h)))
  · exact .inr (.inr (.inl (mem_segment_down.1 hq).1))

variable (hw : 2 * (t + i) ≤ w) (hb : t + i ≤ b) (hy : t + i ≤ y)
include hw hb hy

theorem insideArch_of_mem_run (hi : 0 ≤ i) {l : Leg} (hl : l ∈ (innerEdge t i w b y).runs)
    {p : Plane} (hp : p ∈ l.drawn) : InsideArch t (t + i) w p := by
  simp only [BendEdge.runs, List.mem_cons, List.not_mem_nil, or_false] at hl
  rcases hl with rfl | rfl | rfl
  · have h : p.1 = t ∧ p.2 ∈ Set.uIcc (t + i) b := mem_segment_down.1 hp
    rw [Set.uIcc_of_le hb, Set.mem_Icc] at h
    constructor <;> first | linarith | exact .inl h.2.1
  · have h : p.2 = t ∧ p.1 ∈ Set.uIcc (w - t - i) (t + i) := mem_segment_across.1 hp
    rw [Set.uIcc_of_ge (by linarith), Set.mem_Icc] at h
    constructor <;> first | linarith | exact .inr ⟨h.2.1, by linarith⟩
  · have h : p.1 = w - t ∧ p.2 ∈ Set.uIcc y (t + i) := mem_segment_down.1 hp
    rw [Set.uIcc_of_ge hy, Set.mem_Icc] at h
    constructor <;> first | linarith | exact .inl h.2.1

/-- Across the shaft from a run of the inner edge there is one of the outer edge. -/
theorem exists_across (ht : 0 ≤ t) (hri : r ≤ t + i) {l : Leg}
    (hl : l ∈ (innerEdge t i w b y).runs) {p : Plane} (hp : p ∈ l.drawn) :
    ∃ q ∈ (outerEdge r w b y).drawn, apart p q = t := by
  have hroot : Real.sqrt (t ^ 2) = t := Real.sqrt_sq ht
  simp only [BendEdge.runs, List.mem_cons, List.not_mem_nil, or_false] at hl
  rcases hl with rfl | rfl | rfl
  · have h : p.1 = t ∧ p.2 ∈ Set.uIcc (t + i) b := mem_segment_down.1 hp
    rw [Set.uIcc_of_le hb, Set.mem_Icc] at h
    refine ⟨(0, p.2), ⟨_, .head _, mem_segment_down.2 ⟨rfl, ?_⟩⟩, ?_⟩
    · exact Set.mem_uIcc.2 (.inr ⟨hri.trans h.2.1, h.2.2⟩)
    · simp [apart, h.1, hroot]
  · have h : p.2 = t ∧ p.1 ∈ Set.uIcc (w - t - i) (t + i) := mem_segment_across.1 hp
    rw [Set.uIcc_of_ge (by linarith), Set.mem_Icc] at h
    refine ⟨(p.1, 0), ⟨_, .tail _ (.tail _ (.head _)), mem_segment_across.2 ⟨rfl, ?_⟩⟩, ?_⟩
    · exact Set.mem_uIcc.2 (.inl ⟨hri.trans h.2.1, h.2.2.trans (by linarith)⟩)
    · simp [apart, h.1, hroot]
  · have h : p.1 = w - t ∧ p.2 ∈ Set.uIcc y (t + i) := mem_segment_down.1 hp
    rw [Set.uIcc_of_ge hy, Set.mem_Icc] at h
    refine ⟨(w, p.2), ⟨_, .tail _ (.tail _ (.tail _ (.tail _ (.head _)))),
      mem_segment_down.2 ⟨rfl, ?_⟩⟩, ?_⟩
    · exact Set.mem_uIcc.2 (.inl ⟨hri.trans h.2.1, h.2.2⟩)
    · simp [apart, h.1, hroot]

theorem edges_parallel (ht : 0 ≤ t) (hi : 0 ≤ i) (hr : 0 ≤ r) (hri : r ≤ t + i) :
    Parallel (outerEdge r w b y) (innerEdge t i w b y) t where
  straight := by simp [BendEdge.runs, outerEdge, innerEdge, Stroke.IsStraight]
  distance l hl p hp := by
    constructor
    · obtain ⟨q, hq, h⟩ := exists_across hw hb hy ht hri hl hp
      exact ⟨q, hq, h⟩
    · rintro _ ⟨q, hq, rfl⟩
      exact (insideArch_of_mem_run hw hb hy hi hl hp).le_apart hr hri (onArch_of_mem_drawn hr hq)
  beside p hp q hq := by
    obtain ⟨-, -, hpx, -⟩ := Trail.drawn_left_down hi hp
    obtain ⟨-, -, hqx, -⟩ := Trail.drawn_up_left hi hq
    linarith
  touch := by
    -- they can only meet where both have climbed to the run between them
    have hpoint : ∀ p ∈ (innerEdge t i w b y).corner.drawn ∩ (innerEdge t i w b y).corner'.drawn,
        p = (t + i, t) := by
      rintro p ⟨hp, hp'⟩
      obtain ⟨-, hcircle, hpx, hpy⟩ := Trail.drawn_left_down hi hp
      obtain ⟨-, -, hpx', -⟩ := Trail.drawn_up_left hi hp'
      have hx : p.1 = t + i := by linarith
      rw [hx, sub_self, zero_pow two_ne_zero, zero_add, ← neg_sq, neg_sub,
        sq_eq_sq₀ (by linarith) hi] at hcircle
      exact Prod.ext hx (by linarith)
    intro p hp q hq
    rw [hpoint p hp, hpoint q hq]

end Edges

theorem uturnArrow_parallel {f : Frame ℝ} (hf : f.Sized) :
    ∃ (outer inner : BendEdge) (first last : Leg) (head : List Leg),
      Path.empty.legs (uturnArrow f) =
        first :: outer.legs ++ head ++ inner.legs.reverse ++ [last] ∧
      Parallel outer inner (UturnGuides.ofFrame f).thickness := by
  set g := UturnGuides.ofFrame f with hg
  obtain ⟨⟨hthick, hover, hhalf, hhead, hr, hinner, houter⟩, hw, hiw, hit, htip, -⟩ :
      g.FitsTurn f := UturnGuides.ofFrame_fits hf
  have hright : f.w - g.half - g.half + g.overhang = f.w - g.overhang - g.thickness := by linarith
  simp only [uturnArrow, ← hg, Scalar.zero_real, Path.empty_eq, Path.legs_move, Path.legs_line,
    Path.legs_close, Path.legs_nil, Path.legs_up_right _ hr, Path.legs_right_down _ hr,
    Path.legs_up_left _ hinner, Path.legs_left_down _ hinner, hright, zero_add, sub_self,
    add_sub_cancel_right, sub_add_cancel]
  exact ⟨outerEdge g.outer (f.w - g.overhang) f.h (g.tip - g.head),
    innerEdge g.thickness g.inner (f.w - g.overhang) f.h (g.tip - g.head), _, _, [_, _, _, _], rfl,
    edges_parallel hiw (by linarith) hit hthick hinner hr houter⟩

/-- In every frame, flat ones too, and with any adjustments, an arrow around corners keeps its pen in
the frame, and what it draws straight is along the axes and tangent to the arcs beside it, but for
the sides of the head. The range of the tip of a U-turn is never inverted, and its edges keep the
thickness of the shaft between them. -/
theorem cornerArrows_joined (w h : ℝ) (a : Adjustments ℝ) :
    let f := Frame.ofSides w h a
    let bent := Preset.bentArrow.sketch f
    let uturn := Preset.uturnArrow.sketch f
    let g := UturnGuides.ofFrame f
    (∀ n, f.Covers (Sketch.path (bent.take n)).pen ∧ f.Covers (Sketch.path (uturn.take n)).pen) ∧
      Joined f ⟨f.w, (BendGuides.ofBentArrow f).half⟩ (Path.empty.legs bent) ∧
      Joined f ⟨f.w - g.half, g.tip⟩ (Path.empty.legs uturn) ∧
      g.tip = f.heightPart (f.pinned "adj5" 75000 g.leastTip 100000) ∧ g.leastTip ≤ 100000 ∧
      ∃ (outer inner : BendEdge) (first last : Leg) (head : List Leg),
        Path.empty.legs uturn = first :: outer.legs ++ head ++ inner.legs.reverse ++ [last] ∧
          Parallel outer inner g.thickness := by
  intro f bent uturn g
  have hf : f.Sized := Frame.ofSides_sized w h a
  have hbent := bentArrow_joined hf
  have huturn := uturnArrow_joined hf
  exact ⟨fun n => ⟨hbent.pen_covers hf n, huturn.pen_covers hf n⟩, hbent, huturn, rfl,
    (UturnGuides.ofFrame_fits hf).leastTip_le, uturnArrow_parallel hf⟩

end
end ShapeOutline
