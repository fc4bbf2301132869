import Mathlib
import ShapeOutline.Preset.Sketch
import ShapeOutline.Proofs.FrameParts

/-! Heads of polygonal arrows. A head is found on the outline itself: five vertices in
a row, the tip in the middle, the corners and the edges of the shaft on one line
across. Nothing but the tip is beyond that line. -/

namespace ShapeOutline
noncomputable section

open Shape
open Sketch (polygon)

/-- The vertices of straight outlines, in the order of the pen. -/
def Sketch.vertices (s : Sketch ℝ) : List (Point ℝ) :=
  s.filterMap fun
    | .move p | .line p => some p
    | _ => none

@[simp] theorem vertices_polygon (ps : List (Point ℝ)) : (polygon ps).vertices = ps := by
  have hlines (qs : List (Point ℝ)) : Sketch.vertices (Sketch.lines qs ++ [.close]) = qs := by
    induction qs with
    | nil => rfl
    | cons q qs ih => exact congrArg (q :: ·) ih
  cases ps with
  | nil => rfl
  | cons p ps => exact congrArg (p :: ·) (hlines ps)

/-- The tip of a head, the corners beside it, and where the shaft meets its base. -/
structure ArrowHead where
  shaft : Point ℝ
  corner : Point ℝ
  tip : Point ℝ
  corner' : Point ℝ
  shaft' : Point ℝ

namespace ArrowHead

def vertices (k : ArrowHead) : List (Point ℝ) := [k.shaft, k.corner, k.tip, k.corner', k.shaft']

def map (φ : Point ℝ → Point ℝ) (k : ArrowHead) : ArrowHead :=
  ⟨φ k.shaft, φ k.corner, φ k.tip, φ k.corner', φ k.shaft'⟩

end ArrowHead

/-- Numbers that go one way, up or down. -/
def InOrder (xs : List ℝ) : Prop := xs.IsChain (· ≤ ·) ∨ xs.IsChain (· ≥ ·)

/-- A pair of numbers about `m` within another pair. -/
theorem inOrder_about {m outer inner : ℝ} {xs : List ℝ} (hinner : 0 ≤ inner)
    (hle : inner ≤ outer) (hxs : xs = [m - outer, m - inner, m + inner, m + outer] ∨
      xs = [m + outer, m + inner, m - inner, m - outer]) : InOrder xs := by
  rcases hxs with rfl | rfl
  · refine .inl ?_
    simp only [List.isChain_cons_cons, List.isChain_singleton]
    refine ⟨?_, ?_, ?_, trivial⟩ <;> linarith
  · refine .inr ?_
    simp only [List.isChain_cons_cons, List.isChain_singleton]
    refine ⟨?_, ?_, ?_, trivial⟩ <;> linarith

/-- A head whose tip touches the side that `d` points to, with `rest` behind it: across it the shaft
is between the corners. -/
structure ArrowHead.Leads (k : ArrowHead) (f : Frame ℝ) (d : Facing) (rest : List (Point ℝ)) :
    Prop where
  level : ∀ p ∈ [k.shaft, k.shaft', k.corner'], d.reach f p = d.reach f k.corner
  forward : d.reach f k.corner ≤ d.reach f k.tip
  touches : d.reach f k.tip = d.along f
  nested : InOrder ([k.corner, k.shaft, k.shaft', k.corner'].map d.offset)
  behind : ∀ p ∈ rest, d.reach f p ≤ d.reach f k.corner

/-- The closed outline through the vertices has a head pointing `d`, and all other vertices are
behind its base. -/
def HasHead (f : Frame ℝ) (d : Facing) (ps : List (Point ℝ)) : Prop :=
  ∃ (k : ArrowHead) (rest : List (Point ℝ)), ps ~r k.vertices ++ rest ∧ k.Leads f d rest

section Axis

variable (d : Facing) (f : Frame ℝ)

/-- The point `r` ahead in a direction and `o` to its right, from where the axis at `m` meets the
side behind. -/
def Shape.Facing.spot (m r o : ℝ) : Point ℝ :=
  match d with
  | .right => ⟨r, m + o⟩
  | .left => ⟨f.w - r, m - o⟩
  | .down => ⟨m - o, r⟩
  | .up => ⟨m + o, f.h - r⟩

@[simp] theorem Shape.Facing.reach_spot (m r o : ℝ) : d.reach f (d.spot f m r o) = r := by
  cases d <;> simp [spot]

theorem Shape.Facing.offset_spot (m r r' o : ℝ) :
    d.offset (d.spot f m r o) = d.offset (d.spot f m r' o) := by
  cases d <;> rfl

theorem Shape.Facing.inOrder_spot {inner outer : ℝ} (hinner : 0 ≤ inner) (hle : inner ≤ outer)
    (m a b b' a' : ℝ) :
    InOrder ([d.spot f m a (-outer), d.spot f m b (-inner), d.spot f m b' inner,
      d.spot f m a' outer].map d.offset) := by
  cases d with
  | right => exact inOrder_about (m := m) hinner hle (.inl (by simp [spot, sub_eq_add_neg]))
  | left => exact inOrder_about (m := m) hinner hle (.inr (by simp [spot]))
  | down => exact inOrder_about (m := m) hinner hle (.inr (by simp [spot]))
  | up => exact inOrder_about (m := m) hinner hle (.inl (by simp [spot, sub_eq_add_neg]))

/-- A head on the axis at `m`, by half the widths of head and shaft and by its length. -/
def axialHead (m half shaft length : ℝ) : ArrowHead where
  shaft := d.spot f m (d.along f - length) (-shaft)
  corner := d.spot f m (d.along f - length) (-half)
  tip := d.spot f m (d.along f) 0
  corner' := d.spot f m (d.along f - length) half
  shaft' := d.spot f m (d.along f - length) shaft

theorem axialHead_leads (m : ℝ) {half shaft length : ℝ} {rest : List (Point ℝ)}
    (hshaft : 0 ≤ shaft) (hhalf : shaft ≤ half) (hlength : 0 ≤ length)
    (hrest : ∀ p ∈ rest, d.reach f p ≤ d.along f - length) :
    (axialHead d f m half shaft length).Leads f d rest where
  level := by simp [axialHead]
  forward := by simpa [axialHead] using hlength
  touches := by simp [axialHead]
  nested := d.inOrder_spot f hshaft hhalf m _ _ _ _
  behind := by simpa [axialHead] using hrest

end Axis

variable {f : Frame ℝ} {d : Facing} {ps : List (Point ℝ)}

/-- The head is read from the `n`-th vertex on. -/
theorem hasHead_of_rotate (n : ℕ) (k : ArrowHead) (hk : (ps.rotate n).take 5 = k.vertices)
    (h : k.Leads f d ((ps.rotate n).drop 5)) : HasHead f d ps :=
  ⟨k, _, ⟨n, by rw [← hk, List.take_append_drop]⟩, h⟩

theorem polygon_reflect (t : Reflection ℝ) (ps : List (Point ℝ)) :
    (polygon ps).reflect t = polygon (ps.map t.point) := by
  cases ps with
  | nil => rfl
  | cons p ps => simp [polygon, Sketch.lines, Sketch.reflect, Reflection.stroke]

/-- The frame lying on its side where the arrow is a vertical one. -/
def Shape.Facing.lying (d : Facing) (f : Frame ℝ) : Frame ℝ :=
  ⟨d.along f, d.across f, f.adjustments⟩

@[simp] theorem Shape.Facing.lying_w : (d.lying f).w = d.along f := rfl
@[simp] theorem Shape.Facing.lying_h : (d.lying f).h = d.across f := rfl

theorem Frame.Covers.point {p : Point ℝ} (h : (d.lying f).Covers p) :
    f.Covers ((d.reflection f).point p) := by
  rw [d.covers_iff, d.reach_point, d.offset_point]
  exact h

section Carried

variable {g : Frame ℝ} {e : Facing} {φ : Point ℝ → Point ℝ}

/-- A map that keeps how far ahead and how far across the points are carries a head along. -/
theorem ArrowHead.Leads.map {k : ArrowHead} {rest : List (Point ℝ)}
    (halong : d.along f = e.along g) (hreach : ∀ p, d.reach f (φ p) = e.reach g p)
    (hoffset : ∀ p, d.offset (φ p) = e.offset p) (h : k.Leads g e rest) :
    (k.map φ).Leads f d (rest.map φ) where
  level := by simpa [ArrowHead.map, hreach] using h.level
  forward := by simpa [ArrowHead.map, hreach] using h.forward
  touches := by simpa [ArrowHead.map, hreach, halong] using h.touches
  nested := by simpa [ArrowHead.map, hoffset] using h.nested
  behind := by simpa [ArrowHead.map, hreach] using h.behind

theorem HasHead.map (halong : d.along f = e.along g)
    (hreach : ∀ p, d.reach f (φ p) = e.reach g p) (hoffset : ∀ p, d.offset (φ p) = e.offset p)
    (h : HasHead g e ps) : HasHead f d (ps.map φ) := by
  obtain ⟨k, rest, hps, hk⟩ := h
  exact ⟨k.map φ, rest.map φ, by simpa [ArrowHead.vertices, ArrowHead.map] using hps.map φ,
    hk.map halong hreach hoffset⟩

end Carried

theorem HasHead.ahead (h : HasHead (d.lying f) .right ps) :
    HasHead f d (ps.map (d.reflection f).point) :=
  h.map (by simp) (fun p => by simp) (fun p => by simp)

theorem HasHead.backwards (h : HasHead (d.lying f) .left ps) :
    HasHead f d.opposite (ps.map (d.reflection f).point) :=
  h.map (by simp) (fun p => by simp) (fun p => by simp)

end
end ShapeOutline
