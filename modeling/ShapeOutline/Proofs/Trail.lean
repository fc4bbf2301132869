import ShapeOutline.Proofs.ArcReach
import ShapeOutline.Proofs.Calls

/-! The trail of the pen among the authored coordinates of custom geometry. The
pass that measures the commands and the one that draws them both follow it,
whatever the scale. -/

namespace ShapeOutline
noncomputable section

structure Trail where
  pen : Point ℝ
  start : Point ℝ

namespace Trail

def origin : Trail := ⟨.zero, .zero⟩

/-- The trail after one more command. -/
def after (t : Trail) : Authored ℝ → Trail
  | .stroke (.move p) => ⟨p, p⟩
  | .stroke (.line p) => ⟨p, t.start⟩
  | .stroke (.cubic _ _ p) => ⟨p, t.start⟩
  | .stroke (.quad _ p) => ⟨p, t.start⟩
  | .stroke (.arc radii start sweep) =>
    if isDegenerate radii sweep then t else ⟨arcEnd t.pen radii start (drawnSweep sweep), t.start⟩
  | .stroke .close => ⟨t.start, t.start⟩
  | .unknown _ => t

/-- The points of the arc that a command draws. -/
def curve (t : Trail) : Authored ℝ → Set (Point ℝ)
  | .stroke (.arc radii start sweep) =>
    if isDegenerate radii sweep then ∅
    else arcCurve (arcCenter t.pen radii start) radii start (drawnSweep sweep)
  | _ => ∅

/-- The end point and the control points of a command, and every point of its arc. -/
def points (t : Trail) : Authored ℝ → Set (Point ℝ)
  | .stroke (.move p) => {p}
  | .stroke (.line p) => {p}
  | .stroke (.cubic a b p) => {a, b, p}
  | .stroke (.quad a p) => {a, p}
  | c => t.curve c

/-- The commands that are written at scale `k`. -/
def written (t : Trail) (k : Point ℝ) : Authored ℝ → List (Command ℝ)
  | .stroke (.move p) => [.move (p.stretch k)]
  | .stroke (.line p) => [.line (p.stretch k)]
  | .stroke (.cubic a b p) => [.cubic (a.stretch k) (b.stretch k) (p.stretch k)]
  | .stroke (.quad a p) => [.quad (a.stretch k) (p.stretch k)]
  | .stroke (.arc radii start sweep) =>
    if isDegenerate radii sweep then []
    else
      (arcChain (arcCenter t.pen radii start) radii start
        (cuts (drawnSweep sweep) (t.pen.stretch k)
          ((arcEnd t.pen radii start (drawnSweep sweep)).stretch k))).map (Command.stretch k)
  | .stroke .close => [.close]
  | .unknown _ => []

/-- The commands, each with the trail before it. -/
def steps (t : Trail) : List (Authored ℝ) → List (Trail × Authored ℝ)
  | [] => []
  | c :: cs => (t, c) :: steps (t.after c) cs

/-- What `f` finds at the commands along the trail. -/
def gather (f : Trail → Authored ℝ → Set (Point ℝ)) (t : Trail) (cs : List (Authored ℝ)) :
    Set (Point ℝ) := {q | ∃ s ∈ t.steps cs, q ∈ f s.1 s.2}

theorem gather_cons (f : Trail → Authored ℝ → Set (Point ℝ)) (t : Trail) (c : Authored ℝ)
    (cs : List (Authored ℝ)) : t.gather f (c :: cs) = f t c ∪ (t.after c).gather f cs := by
  ext q
  simp [gather, steps]

end Trail

def Extent.trail (e : Extent ℝ) : Trail := ⟨e.pen, e.start⟩

def Tracing.trail (r : Tracing ℝ) : Trail := ⟨r.pen, r.start⟩

theorem Tracing.arcTo_degenerate (r : Tracing ℝ) {radii : Point ℝ} {sweep : ℝ} (start : ℝ)
    (h : isDegenerate radii sweep = true) : r.arcTo radii start sweep = r := by
  unfold arcTo
  rw [if_pos h]

theorem Extent.goTo_eq (e : Extent ℝ) (p furthest : Point ℝ) :
    e.goTo p furthest = ⟨p, e.start, e.reach.greatest furthest⟩ := rfl

theorem Extent.apply_arc (e : Extent ℝ) {radii : Point ℝ} {sweep : ℝ} (start : ℝ)
    (h : isDegenerate radii sweep = false) :
    e.apply (.stroke (.arc radii start sweep)) =
      ⟨arcEnd e.pen radii start (drawnSweep sweep), e.start,
        e.reach.greatest (furthestOnArc e.pen radii start sweep).2⟩ := by
  have htarget : (furthestOnArc e.pen radii start sweep).1 =
      arcEnd e.pen radii start (drawnSweep sweep) := by rw [furthestOnArc_eq]
  simp only [Extent.apply, h, Bool.false_eq_true, if_false, Extent.goTo_eq, htarget]

theorem Extent.apply_arc_degenerate (e : Extent ℝ) {radii : Point ℝ} {sweep : ℝ} (start : ℝ)
    (h : isDegenerate radii sweep = true) : e.apply (.stroke (.arc radii start sweep)) = e := by
  simp only [Extent.apply, h, if_true]

/-- The measuring pass follows the trail. -/
theorem Extent.apply_trail (e : Extent ℝ) (c : Authored ℝ) :
    (e.apply c).trail = e.trail.after c := by
  cases c with
  | unknown word => rfl
  | stroke s =>
    cases s with
    | move p => rfl
    | line p => rfl
    | cubic a b p => rfl
    | quad a p => rfl
    | close => rfl
    | arc radii start sweep =>
      cases h : isDegenerate radii sweep with
      | true => simp [Extent.apply_arc_degenerate e start h, Trail.after, h]
      | false => simp [Extent.apply_arc e start h, Trail.after, h, Extent.trail]

theorem Path.foldl_push_chain (p : Path ℝ) (center radii k : Point ℝ) (start sweep : ℝ)
    (pen target : Point ℝ) :
    let cs := (arcChain center radii start (cuts sweep pen target)).map (Command.stretch k)
    cs.foldl push p =
      ⟨p.commands ++ cs, (ellipsePoint center radii (start + sweep)).stretch k, p.start⟩ := by
  intro cs
  have hpen : (cs.foldl push p).pen = (ellipsePoint center radii (start + sweep)).stretch k := by
    simp only [cs, cuts]
    split_ifs
    · rw [← add_halves sweep, ← add_assoc, add_halves sweep]
      rfl
    · rfl
  have hstart : (cs.foldl push p).start = p.start := by
    simp only [cs, cuts]
    split_ifs <;> rfl
  rw [← hpen, ← hstart, ← foldl_push_commands]

/-- The drawing pass follows the trail, and pushes what it says at its scale. -/
theorem Tracing.apply_eq (r : Tracing ℝ) (c : Authored ℝ) :
    r.apply c =
      ⟨(r.trail.written r.scale c).foldl Path.push r.out, (r.trail.after c).pen,
        (r.trail.after c).start, r.scale⟩ := by
  cases c with
  | unknown word => rfl
  | stroke s =>
    cases s with
    | move p => rfl
    | line p => rfl
    | cubic a b p => rfl
    | quad a p => rfl
    | close => rfl
    | arc radii start sweep =>
      change r.arcTo radii start sweep = _
      cases h : isDegenerate radii sweep with
      | true =>
        rw [Tracing.arcTo_degenerate r start h]
        simp only [Trail.written, Trail.after, h, if_true]
        rfl
      | false =>
        rw [Tracing.arcTo_eq r start h]
        simp only [Trail.written, Trail.after, h, Bool.false_eq_true, if_false,
          Path.foldl_push_chain]
        rfl

theorem Tracing.foldl_commands (cs : List (Authored ℝ)) (r : Tracing ℝ) :
    (cs.foldl Tracing.apply r).out.commands =
      r.out.commands ++ (r.trail.steps cs).flatMap fun s => s.1.written r.scale s.2 := by
  induction cs generalizing r with
  | nil => simp [Trail.steps]
  | cons c rest ih =>
    rw [List.foldl_cons, ih, Tracing.apply_eq, Path.foldl_push_commands, List.append_assoc]
    rfl

/-- Custom geometry is drawn as the trail of its commands says, at its scale. -/
theorem CustomPath.resolve_commands (p : CustomPath ℝ) (w h : ℝ) (hint : Option (Point ℝ)) :
    (p.resolve w h hint).commands =
      (Trail.origin.steps p.commands).flatMap fun s => s.1.written (p.scale w h hint) s.2 :=
  Tracing.foldl_commands p.commands (Tracing.ofScale (p.scale w h hint))

end
end ShapeOutline
