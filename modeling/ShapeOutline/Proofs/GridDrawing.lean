import Mathlib
import ShapeOutline.Grid
import ShapeOutline.Proofs.CustomFit
import ShapeOutline.Proofs.Trace

/-! Symbols authored on a grid. The drawing scales the grid and then computes the ends
of arcs, the interpreter of custom geometry computes them on the grid and then scales.
Both give the scaled image of the grid drawing as long as every arc begins and ends at
a right angle, where the visual angle of a point does not depend on the scale. -/

namespace ShapeOutline
noncomputable section

theorem cuts_of_le {sweep : ℝ} (h : |sweep| ≤ 180) (pen target : Point ℝ) :
    cuts sweep pen target = [sweep] := by
  refine if_neg fun hs => ?_
  rcases needsHalves_iff.1 hs with hfull | ⟨hlarge, -⟩ <;> linarith

theorem arcEnd_eq (pen radii : Point ℝ) (start sweep : ℝ) :
    arcEnd pen radii start sweep = pen - spoke radii start + spoke radii (start + sweep) := rfl

/-- An arc with an extent, of a half turn at most. Strokes of any other kind are whole. -/
def Stroke.Whole : Stroke ℝ → Prop
  | .arc radii _ sweep => radii.Positive ∧ sweep ≠ 0 ∧ |sweep| ≤ 180
  | _ => True

/-- The command of an arc from `pen`. -/
def arcFrom (pen radii : Point ℝ) (start sweep : ℝ) : Command ℝ :=
  arcCommand (arcCenter pen radii start) radii start sweep

/-- The command of a stroke from `pen`. -/
def Stroke.command (pen : Point ℝ) : Stroke ℝ → Command ℝ
  | .move p => .move p
  | .line p => .line p
  | .cubic a b p => .cubic a b p
  | .quad a p => .quad a p
  | .arc radii start sweep => arcFrom pen radii start sweep
  | .close => .close

theorem Path.stroke_whole (p : Path ℝ) {s : Stroke ℝ} (hs : s.Whole) :
    p.stroke s = p.push (s.command p.pen) := by
  cases s with
  | arc radii start sweep =>
    obtain ⟨hr, h0, hle⟩ := hs
    change p.arcTo radii start sweep = _
    rw [Path.arcTo_eq p start (isDegenerate_eq_false.2 ⟨hr, h0⟩),
      drawnSweep_of_abs_le (hle.trans (by norm_num)), cuts_of_le hle]
    rfl
  | move q | line q | cubic a b q | quad a q | close => rfl

theorem Tracing.apply_whole (r : Tracing ℝ) {s : Stroke ℝ} (hs : s.Whole) :
    r.apply (.stroke s) =
      ⟨r.out.push ((s.command r.pen).stretch r.scale), (s.command r.pen).pen r.start,
        (s.command r.pen).subpath r.start, r.scale⟩ := by
  cases s with
  | arc radii start sweep =>
    obtain ⟨hr, h0, hle⟩ := hs
    change r.arcTo radii start sweep = _
    rw [Tracing.arcTo_eq r start (isDegenerate_eq_false.2 ⟨hr, h0⟩),
      drawnSweep_of_abs_le (hle.trans (by norm_num)), cuts_of_le hle]
    rfl
  | move q | line q | cubic a b q | quad a q | close => rfl

def Path.stretch (k : Point ℝ) (p : Path ℝ) : Path ℝ :=
  ⟨p.commands.map (Command.stretch k), p.pen.stretch k, p.start.stretch k⟩

variable {k : Point ℝ}

theorem Path.empty_stretch (k : Point ℝ) : Path.empty.stretch k = .empty := by
  have hzero : (Point.zero : Point ℝ).stretch k = .zero := by ext <;> simp [Point.zero]
  unfold stretch empty
  rw [hzero]
  rfl

theorem Path.push_stretch (p : Path ℝ) (c : Command ℝ) :
    (p.push c).stretch k = (p.stretch k).push (c.stretch k) := by
  cases c <;> simp [Path.push, Path.stretch, Command.pen, Command.subpath, Command.stretch]

/-- The interpreter has drawn the image of `p`, its own pen where that of `p` is. -/
structure Traces (k : Point ℝ) (p : Path ℝ) (r : Tracing ℝ) : Prop where
  scale : r.scale = k
  out : r.out = p.stretch k
  pen : r.pen = p.pen
  start : r.start = p.start

namespace Traces

variable {p : Path ℝ} {r : Tracing ℝ}

theorem initial (k : Point ℝ) : Traces k .empty (.ofScale k) :=
  ⟨rfl, (Path.empty_stretch k).symm, rfl, rfl⟩

theorem apply (h : Traces k p r) {s : Stroke ℝ} (hs : s.Whole) :
    Traces k (p.stroke s) (r.apply (.stroke s)) := by
  rw [p.stroke_whole hs, r.apply_whole hs]
  exact
    { scale := h.scale
      out := by rw [Path.push_stretch, h.out, h.pen, h.scale]
      pen := by rw [h.pen, h.start]; rfl
      start := by rw [h.pen, h.start]; rfl }

theorem foldl (h : Traces k p r) {s : Sketch ℝ} (hs : ∀ a ∈ s, a.Whole) :
    Traces k (p.draw s) ((s.map Authored.stroke).foldl Tracing.apply r) := by
  induction s generalizing p r with
  | nil => exact h
  | cons a rest ih =>
    obtain ⟨ha, hrest⟩ := List.forall_mem_cons.1 hs
    exact ih (h.apply ha) hrest

end Traces

/-- The ends of the arc are seen at the same angles when it is scaled. -/
def Stroke.KeepsAngles (k : Point ℝ) : Stroke ℝ → Prop
  | .arc radii start sweep => ∀ deg ∈ [start, start + sweep],
      spoke (radii.stretch k) deg = (spoke radii deg).stretch k
  | _ => True

theorem Stroke.Whole.stretch (hk : k.Positive) {s : Stroke ℝ} (hs : s.Whole) :
    (s.stretch k).Whole := by
  cases s with
  | arc radii start sweep => exact ⟨hs.1.stretch hk, hs.2⟩
  | _ => trivial

theorem Stroke.command_stretch {s : Stroke ℝ} (h : s.KeepsAngles k) (pen : Point ℝ) :
    (s.stretch k).command (pen.stretch k) = (s.command pen).stretch k := by
  cases s with
  | arc radii start sweep =>
    have hend : arcEnd (pen.stretch k) (radii.stretch k) start sweep =
        (arcEnd pen radii start sweep).stretch k := by
      rw [arcEnd_eq, arcEnd_eq, h start (by simp), h (start + sweep) (by simp)]
      ext <;> simp [sub_mul, add_mul]
    exact congrArg (Command.arc (radii.stretch k) 0 _ _) hend
  | move q | line q | cubic a b q | quad a q | close => rfl

theorem Path.draw_stretch (hk : k.Positive) {s : Sketch ℝ}
    (hs : ∀ a ∈ s, a.Whole ∧ a.KeepsAngles k) (p : Path ℝ) :
    (p.stretch k).draw (s.stretch k) = (p.draw s).stretch k := by
  induction s generalizing p with
  | nil => rfl
  | cons a rest ih =>
    obtain ⟨⟨hwhole, hkeeps⟩, hrest⟩ := List.forall_mem_cons.1 hs
    change ((p.stretch k).stroke (a.stretch k)).draw (Sketch.stretch k rest) = _
    have hstroke : (p.stretch k).stroke (a.stretch k) = (p.stroke a).stretch k := by
      rw [Path.stroke_whole _ (hwhole.stretch hk), Path.stroke_whole _ hwhole, Path.push_stretch,
        ← a.command_stretch hkeeps]
      rfl
    rw [hstroke, ih hrest]
    rfl

namespace GridSymbol

/-- A grid with an area, on which every arc is whole. -/
structure Proper (g : GridSymbol ℝ) : Prop where
  width : 0 < g.width
  height : 0 < g.height
  whole : ∀ s ∈ g.sketch, s.Whole

variable {g : GridSymbol ℝ} {f : Frame ℝ}

theorem Proper.scale_positive (hg : g.Proper) (hw : 0 < f.w) (hh : 0 < f.h) :
    (g.scale f).Positive :=
  ⟨div_pos hw hg.width, div_pos hh hg.height⟩

theorem Proper.scale_authored (hg : g.Proper) (hw : 0 < f.w) (hh : 0 < f.h) :
    g.authored.scale f.w f.h none = g.scale f := by
  have hsize {v : ℝ} (hv : 0 < v) : CustomPath.validSize? (some v) = some v :=
    CustomPath.validSize?_eq_some_iff.2 ⟨rfl, rfl, by simpa using hv⟩
  have hfit {side size : ℝ} (hside : 0 < side) (hsize : 0 < size) :
      fit (dimensionOrZero side) size = side / size := by
    rw [dimensionOrZero_real, if_neg hside.not_gt, fit_real, if_pos hsize]
  simp only [CustomPath.scale, CustomPath.extent, CustomPath.axisExtent, authored,
    hsize hg.width, hsize hg.height, Option.some_or, Option.getD_some, hfit hw hg.width,
    hfit hh hg.height]
  rfl

/-- Interpreted as custom geometry, a symbol is the scaled image of its grid drawing. -/
theorem Proper.resolve_authored (hg : g.Proper) (hw : 0 < f.w) (hh : 0 < f.h) :
    g.authored.resolve f.w f.h none = g.sketch.path.stretch (g.scale f) := by
  rw [CustomPath.resolve, hg.scale_authored hw hh]
  exact ((Traces.initial (g.scale f)).foldl hg.whole).out

/-- Drawn in the frame, it is so too if its arcs keep their angles. -/
theorem Proper.path_draw (hg : g.Proper) (hw : 0 < f.w) (hh : 0 < f.h)
    (hkeeps : ∀ s ∈ g.sketch, s.KeepsAngles (g.scale f)) :
    (g.draw f).path = g.sketch.path.stretch (g.scale f) := by
  have hdraw := Path.draw_stretch (hg.scale_positive hw hh)
    (fun s hs => ⟨hg.whole s hs, hkeeps s hs⟩) .empty
  rwa [Path.empty_stretch] at hdraw

end GridSymbol

/-- Of an arc: half a turn from one right angle to the opposite one. -/
def Stroke.HalfTurn : Stroke ℝ → Prop
  | .arc radii start sweep =>
    radii.Positive ∧ (start = 0 ∨ start = 90 ∨ start = 180 ∨ start = 270) ∧
      (sweep = 180 ∨ sweep = -180)
  | _ => True

section RightAngles

variable {radii : Point ℝ} (hr : radii.Positive)
include hr

theorem spoke_add_half (deg : ℝ) : spoke radii (deg + 180) = -spoke radii deg := by
  have hspread : spread radii (deg + 180) = spread radii deg := by
    simp only [spread, bearing_add_half, Point.neg_x, Point.neg_y, mul_neg, neg_sq]
  rw [spoke_eq hr, spoke_eq hr, bearing_add_half, spokeLength, hspread]
  ext <;> simp [spokeLength]

theorem spoke_quarters_stretch (hk : k.Positive) (m : ℤ) :
    spoke (radii.stretch k) (90 * m) = (spoke radii (90 * m)).stretch k := by
  rw [spoke_quarters hr, spoke_quarters (hr.stretch hk)]
  ext <;> exact mul_right_comm ..

/-- Half a turn leads to the point opposite, clockwise or not. -/
theorem arcEnd_half (pen : Point ℝ) (start : ℝ) :
    arcEnd pen radii start 180 = pen - spoke radii start * (2 : ℝ) ∧
      arcEnd pen radii start (-180) = pen - spoke radii start * (2 : ℝ) := by
  have hback : spoke radii (start + -180) = -spoke radii start := by
    have h := spoke_add_half hr (start + -180)
    rw [neg_add_cancel_right] at h
    rw [h]
    ext <;> simp
  have hopposite (v : Point ℝ) : pen - v + -v = pen - v * (2 : ℝ) := by
    ext
    · simp only [Point.add_x, Point.sub_x, Point.neg_x, Point.mul_x]
      ring
    · simp only [Point.add_y, Point.sub_y, Point.neg_y, Point.mul_y]
      ring
  constructor
  · rw [arcEnd_eq, spoke_add_half hr, hopposite]
  · rw [arcEnd_eq, hback, hopposite]

end RightAngles

theorem Stroke.HalfTurn.whole {s : Stroke ℝ} (h : s.HalfTurn) : s.Whole := by
  cases s with
  | arc radii start sweep =>
    obtain ⟨hr, -, rfl | rfl⟩ := h
    · exact ⟨hr, by norm_num, by norm_num⟩
    · exact ⟨hr, by norm_num, by norm_num⟩
  | _ => trivial

/-- At right angles any scale will do. -/
theorem Stroke.HalfTurn.keepsAngles (hk : k.Positive) {s : Stroke ℝ} (h : s.HalfTurn) :
    s.KeepsAngles k := by
  cases s with
  | arc radii start sweep =>
    obtain ⟨hr, hstart, hsweep⟩ := h
    have hquarter : ∃ m : ℤ, start = 90 * m := by
      rcases hstart with rfl | rfl | rfl | rfl
      · exact ⟨0, by norm_num⟩
      · exact ⟨1, by norm_num⟩
      · exact ⟨2, by norm_num⟩
      · exact ⟨3, by norm_num⟩
    obtain ⟨m, rfl⟩ := hquarter
    have hstop : ∃ n : ℤ, 90 * (m : ℝ) + sweep = 90 * n := by
      rcases hsweep with rfl | rfl
      · exact ⟨m + 2, by push_cast; ring⟩
      · exact ⟨m - 2, by push_cast; ring⟩
    obtain ⟨n, hn⟩ := hstop
    intro deg hdeg
    rcases List.mem_pair.1 hdeg with rfl | rfl
    · exact spoke_quarters_stretch hr hk m
    · rw [hn]
      exact spoke_quarters_stretch hr hk n
  | _ => trivial

/-- Where an arc ends. -/
def Command.arcTarget? : Command ℝ → Option (Point ℝ)
  | arc _ _ _ _ p => some p
  | _ => none

/-- The vector from the centre of an ellipse to its point at a right angle. -/
def axisPoint (radii : Point ℝ) (deg : ℝ) : Point ℝ :=
  if deg = 0 then ⟨radii.x, 0⟩
  else if deg = 90 then ⟨0, radii.y⟩
  else if deg = 180 then ⟨-radii.x, 0⟩
  else ⟨0, -radii.y⟩

/-- Where the arcs of a sketch of half turns end, from `pen` in a sub-path from `start`. -/
def Sketch.landings (pen start : Point ℝ) : Sketch ℝ → List (Point ℝ)
  | [] => []
  | .move p :: s => landings p p s
  | .line p :: s => landings p start s
  | .cubic _ _ p :: s => landings p start s
  | .quad _ p :: s => landings p start s
  | .arc radii deg _ :: s =>
    let opposite := pen - axisPoint radii deg * (2 : ℝ)
    opposite :: landings opposite start s
  | .close :: s => landings start start s

theorem Stroke.HalfTurn.arcEnd_eq {radii : Point ℝ} {start sweep : ℝ}
    (h : (Stroke.arc radii start sweep).HalfTurn) (pen : Point ℝ) :
    arcEnd pen radii start sweep = pen - axisPoint radii start * (2 : ℝ) := by
  obtain ⟨hr, hstart, hsweep⟩ := h
  have hspoke : spoke radii start = axisPoint radii start := by
    rcases hstart with rfl | rfl | rfl | rfl
    · simp [axisPoint, spoke_zero hr]
    · simp [axisPoint, spoke_ninety hr]
    · simp [axisPoint, spoke_half hr]
    · norm_num [axisPoint, spoke_threeQuarters hr]
  rw [← hspoke]
  rcases hsweep with rfl | rfl
  · exact (arcEnd_half hr pen start).1
  · exact (arcEnd_half hr pen start).2

theorem Path.push_targets (p : Path ℝ) (c : Command ℝ) :
    (p.push c).commands.filterMap Command.arcTarget? =
      p.commands.filterMap Command.arcTarget? ++ c.arcTarget?.toList := by
  change (p.commands ++ [c]).filterMap Command.arcTarget? = _
  rw [List.filterMap_append]
  cases c <;> rfl

theorem Path.draw_targets {s : Sketch ℝ} (hs : ∀ a ∈ s, a.HalfTurn) (p : Path ℝ) :
    (p.draw s).commands.filterMap Command.arcTarget? =
      p.commands.filterMap Command.arcTarget? ++ s.landings p.pen p.start := by
  induction s generalizing p with
  | nil => exact (List.append_nil _).symm
  | cons a rest ih =>
    obtain ⟨ha, hrest⟩ := List.forall_mem_cons.1 hs
    change ((p.stroke a).draw rest).commands.filterMap Command.arcTarget? = _
    rw [ih hrest, p.stroke_whole ha.whole, Path.push_targets, List.append_assoc]
    cases a with
    | arc radii start sweep => rw [Sketch.landings, ← ha.arcEnd_eq]; rfl
    | move q | line q | cubic b c q | quad b q | close => rfl

end
end ShapeOutline
