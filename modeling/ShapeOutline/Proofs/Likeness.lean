import ShapeOutline.Proofs.ArcPieces

/-! Maps of the plane under which a drawing of a sketch goes to a drawing of the
mapped sketch. A likeness takes each ellipse to an ellipse and keeps its angles in
step, so the pen follows the map through every stroke, the arcs included, and so
does what each stroke draws. -/

namespace ShapeOutline
noncomputable section

namespace Path

/-- The commands that a stroke adds. -/
def added (p : Path ℝ) (s : Stroke ℝ) : List (Command ℝ) :=
  (p.stroke s).commands.drop p.commands.length

/-- The commands of a sketch, those of each stroke in a group. -/
def groups (p : Path ℝ) : Sketch ℝ → List (List (Command ℝ))
  | [] => []
  | s :: rest => p.added s :: (p.stroke s).groups rest

theorem arcTo_degenerate (p : Path ℝ) {radii : Point ℝ} {sweep : ℝ} (start : ℝ)
    (h : isDegenerate radii sweep = true) : p.arcTo radii start sweep = p := by
  unfold arcTo
  rw [if_pos h]

theorem stroke_commands (p : Path ℝ) (s : Stroke ℝ) :
    (p.stroke s).commands = p.commands ++ p.added s := by
  have hpre : p.commands <+: (p.stroke s).commands := by
    cases s with
    | move a => exact List.prefix_append _ _
    | line a => exact List.prefix_append _ _
    | cubic a b c => exact List.prefix_append _ _
    | quad a b => exact List.prefix_append _ _
    | close => exact List.prefix_append _ _
    | arc radii start sweep =>
      change p.commands <+: (p.arcTo radii start sweep).commands
      cases h : isDegenerate radii sweep with
      | true => rw [arcTo_degenerate p start h]
      | false => rw [arcTo_eq p start h]; exact List.prefix_append _ _
  obtain ⟨cs, hcs⟩ := hpre
  rw [added, ← hcs, List.drop_left]

theorem draw_commands (s : Sketch ℝ) (p : Path ℝ) :
    (p.draw s).commands = p.commands ++ (p.groups s).flatten := by
  induction s generalizing p with
  | nil => simp [draw, groups]
  | cons a rest ih =>
    change ((p.stroke a).draw rest).commands = _
    rw [ih, stroke_commands, groups, List.flatten_cons, List.append_assoc]

theorem added_push (p : Path ℝ) (c : Command ℝ) :
    (p.push c).commands.drop p.commands.length = [c] :=
  List.drop_left

end Path

open Classical in
/-- Two arcs along one ellipse, the same way around and neither of them long, are the halves of one
arc that spans more than half a turn. Any other commands of a stroke stand as they are. -/
def whole : List (Command ℝ) → List (Command ℝ)
  | [.arc r rotation large sweep a, .arc r' rotation' large' sweep' b] =>
    if r = r' ∧ rotation = rotation' ∧ sweep = sweep' ∧ large = false ∧ large' = false then
      [.arc r rotation true sweep b]
    else [.arc r rotation large sweep a, .arc r' rotation' large' sweep' b]
  | cs => cs

theorem whole_halves (r : Point ℝ) (rotation : ℝ) (sweep : Bool) (a b : Point ℝ) :
    whole [.arc r rotation false sweep a, .arc r rotation false sweep b] =
      [.arc r rotation true sweep b] :=
  if_pos ⟨rfl, rfl, rfl, rfl, rfl⟩

theorem whole_cuts (center radii : Point ℝ) (start : ℝ) {sweep : ℝ} (h : |sweep| ≤ 360)
    (pen target : Point ℝ) :
    whole (arcChain center radii start (cuts sweep pen target)) =
      [arcCommand center radii start sweep] := by
  unfold cuts
  split_ifs with hs
  · have hlong : 180 < |sweep| := by
      rcases needsHalves_iff.1 hs with h0 | h0
      · linarith
      · exact h0.1
    have hhalf : ¬180 < |sweep / 2| := by rw [abs_div, abs_two]; linarith
    have hsweep : 0 < sweep / 2 ↔ 0 < sweep := by constructor <;> intro <;> linarith
    simp only [arcChain, arcCommand, hhalf, hlong, hsweep, decide_false, decide_true, whole_halves,
      add_assoc, add_halves]
  · rfl

theorem length_arcChain (center radii : Point ℝ) (start : ℝ) (sweeps : List ℝ) :
    (arcChain center radii start sweeps).length = sweeps.length := by
  induction sweeps generalizing start with
  | nil => rfl
  | cons sweep rest ih => exact congrArg (· + 1) (ih (start + sweep))

theorem Path.added_arc (p : Path ℝ) {radii : Point ℝ} {sweep : ℝ} (start : ℝ)
    (h : isDegenerate radii sweep = false) :
    p.added (.arc radii start sweep) =
      arcChain (arcCenter p.pen radii start) radii start
        (cuts (drawnSweep sweep) p.pen (arcEnd p.pen radii start (drawnSweep sweep))) := by
  change ((p.arcTo radii start sweep).commands).drop p.commands.length = _
  rw [Path.arcTo_eq p start h, List.drop_left]

theorem whole_added_arc (p : Path ℝ) {radii : Point ℝ} {sweep : ℝ} (start : ℝ)
    (h : isDegenerate radii sweep = false) :
    whole (p.added (.arc radii start sweep)) =
      [arcCommand (arcCenter p.pen radii start) radii start (drawnSweep sweep)] := by
  rw [p.added_arc start h, whole_cuts _ _ _ (abs_drawnSweep_le sweep)]

/-- `g'` draws the image of what `g` draws: as it stands if both have as many commands, so that an
arc is in halves in both or in neither, and in any case once halves are put together. -/
structure DrawsImage (f : Command ℝ → Command ℝ) (g g' : List (Command ℝ)) : Prop where
  pieces : g'.length = g.length → g' = g.map f
  whole : whole g' = (whole g).map f

/-- A sweep, turned the other way if `reverses` is set. -/
def turned (reverses : Bool) (sweep : ℝ) : ℝ := if reverses then -sweep else sweep

theorem id_add_turned (deg sweep : ℝ) : id (deg + sweep) = id deg + turned false sweep := rfl

/-- A map of the points and of the vectors between them, of radii and of visual angles: a spoke of
an ellipse goes to the spoke of the image ellipse at the image angle. -/
structure Likeness where
  point : Point ℝ → Point ℝ
  vector : Point ℝ → Point ℝ
  radii : Point ℝ → Point ℝ
  angle : ℝ → ℝ
  reverses : Bool
  point_add : ∀ p v, point (p + v) = point p + vector v
  angle_add : ∀ deg sweep, angle (deg + sweep) = angle deg + turned reverses sweep
  radii_positive : ∀ r, (radii r).Positive ↔ r.Positive
  spoke_angle : ∀ r, r.Positive → ∀ deg, spoke (radii r) (angle deg) = vector (spoke r deg)

namespace Likeness

variable (m : Likeness)

def turn (sweep : ℝ) : ℝ := turned m.reverses sweep

def stroke : Stroke ℝ → Stroke ℝ
  | .move p => .move (m.point p)
  | .line p => .line (m.point p)
  | .cubic a b p => .cubic (m.point a) (m.point b) (m.point p)
  | .quad a p => .quad (m.point a) (m.point p)
  | .arc r start sweep => .arc (m.radii r) (m.angle start) (m.turn sweep)
  | .close => .close

/-- The image of a command. -/
def command : Command ℝ → Command ℝ
  | .move p => .move (m.point p)
  | .line p => .line (m.point p)
  | .cubic a b p => .cubic (m.point a) (m.point b) (m.point p)
  | .quad a p => .quad (m.point a) (m.point p)
  | .arc r rotation large sweep p =>
    .arc (m.radii r) rotation large (sweep ^^ m.reverses) (m.point p)
  | .close => .close

variable {r : Point ℝ} (hr : r.Positive)

include hr

theorem point_arcCenter (pen : Point ℝ) (start : ℝ) :
    arcCenter (m.point pen) (m.radii r) (m.angle start) = m.point (arcCenter pen r start) := by
  have h : m.point pen = m.point (arcCenter pen r start) + m.vector (spoke r start) := by
    rw [← m.point_add, ← ellipsePoint_eq, ellipsePoint_arcCenter]
  rw [h, ← m.spoke_angle r hr, ← ellipsePoint_eq, arcCenter_ellipsePoint]

theorem point_ellipsePoint (center : Point ℝ) (deg : ℝ) :
    ellipsePoint (m.point center) (m.radii r) (m.angle deg) =
      m.point (ellipsePoint center r deg) := by
  rw [ellipsePoint_eq, m.spoke_angle r hr, ← m.point_add, ellipsePoint_eq]

theorem point_arcEnd (pen : Point ℝ) (start sweep : ℝ) :
    arcEnd (m.point pen) (m.radii r) (m.angle start) (m.turn sweep) =
      m.point (arcEnd pen r start sweep) := by
  rw [arcEnd, m.point_arcCenter hr, turn, ← m.angle_add, m.point_ellipsePoint hr, arcEnd]

theorem command_arcCommand (center : Point ℝ) (start : ℝ) {sweep : ℝ} (h : sweep ≠ 0) :
    arcCommand (m.point center) (m.radii r) (m.angle start) (m.turn sweep) =
      m.command (arcCommand center r start sweep) := by
  have hlarge : |m.turn sweep| = |sweep| := by
    unfold turn turned
    split_ifs <;> simp
  have hsweep : decide (0 < m.turn sweep) = (decide (0 < sweep) ^^ m.reverses) := by
    unfold turn turned
    rcases lt_or_gt_of_ne h with h0 | h0 <;> cases m.reverses <;> simp [h0, h0.le]
  rw [arcCommand, hlarge, hsweep, turn, ← m.angle_add, m.point_ellipsePoint hr]
  rfl

omit hr

theorem turn_drawnSweep (sweep : ℝ) : drawnSweep (m.turn sweep) = m.turn (drawnSweep sweep) := by
  unfold turn turned
  split_ifs
  · exact drawnSweep_neg sweep
  · rfl

theorem turn_half (sweep : ℝ) : m.turn (sweep / 2) = m.turn sweep / 2 := by
  unfold turn turned
  split_ifs
  · exact (neg_div 2 sweep).symm
  · rfl

theorem turn_ne_zero {sweep : ℝ} : m.turn sweep ≠ 0 ↔ sweep ≠ 0 := by
  unfold turn turned
  split_ifs <;> simp

theorem cuts_turn {sweep : ℝ} {pen pen' target target' : Point ℝ}
    (h : (cuts (m.turn sweep) pen' target').length = (cuts sweep pen target).length) :
    cuts (m.turn sweep) pen' target' = (cuts sweep pen target).map m.turn := by
  unfold cuts at h ⊢
  split_ifs at h ⊢
  · simp only [List.map_cons, List.map_nil, m.turn_half]
  · cases h
  · cases h
  · rfl

theorem isDegenerate_image (r : Point ℝ) (sweep : ℝ) :
    isDegenerate (m.radii r) (m.turn sweep) = isDegenerate r sweep := by
  rw [Bool.eq_iff_iff, ← not_iff_not, Bool.not_eq_true, Bool.not_eq_true, isDegenerate_eq_false,
    isDegenerate_eq_false, m.radii_positive, m.turn_ne_zero]

theorem arcChain_image (hr : r.Positive) (center : Point ℝ) (start : ℝ) {sweeps : List ℝ}
    (h : ∀ sweep ∈ sweeps, sweep ≠ 0) :
    arcChain (m.point center) (m.radii r) (m.angle start) (sweeps.map m.turn) =
      (arcChain center r start sweeps).map m.command := by
  induction sweeps generalizing start with
  | nil => rfl
  | cons sweep rest ih =>
    obtain ⟨hsweep, hrest⟩ := List.forall_mem_cons.1 h
    have hnext : m.angle start + m.turn sweep = m.angle (start + sweep) :=
      (m.angle_add start sweep).symm
    simp only [List.map_cons, arcChain, m.command_arcCommand hr center start hsweep, hnext,
      ih (start + sweep) hrest]

theorem drawsImage_push (p q : Path ℝ) (c : Command ℝ) :
    DrawsImage m.command ((p.push c).commands.drop p.commands.length)
      ((q.push (m.command c)).commands.drop q.commands.length) := by
  rw [Path.added_push, Path.added_push]
  refine ⟨fun _ => rfl, ?_⟩
  cases c <;> rfl

end Likeness

/-- The pen and the start of the sub-path of `q` are the images of those of `p`. -/
structure Alike (m : Likeness) (p q : Path ℝ) : Prop where
  pen : q.pen = m.point p.pen
  start : q.start = m.point p.start

namespace Alike

variable {m : Likeness} {p q : Path ℝ}

theorem push (h : Alike m p q) (c : Command ℝ) : Alike m (p.push c) (q.push (m.command c)) := by
  cases c with
  | move a => exact ⟨rfl, rfl⟩
  | line a => exact ⟨rfl, h.start⟩
  | cubic a b c => exact ⟨rfl, h.start⟩
  | quad a b => exact ⟨rfl, h.start⟩
  | arc r rotation large sweep a => exact ⟨rfl, h.start⟩
  | close => exact ⟨h.start, h.start⟩

theorem stroke (h : Alike m p q) (s : Stroke ℝ) : Alike m (p.stroke s) (q.stroke (m.stroke s)) := by
  cases s with
  | move a => exact h.push (.move a)
  | line a => exact h.push (.line a)
  | cubic a b c => exact h.push (.cubic a b c)
  | quad a b => exact h.push (.quad a b)
  | close => exact h.push .close
  | arc r start sweep =>
    change Alike m (p.arcTo r start sweep) (q.arcTo (m.radii r) (m.angle start) (m.turn sweep))
    have himage := m.isDegenerate_image r sweep
    cases hd : isDegenerate r sweep with
    | true =>
      rw [Path.arcTo_degenerate p start hd, Path.arcTo_degenerate q _ (himage.trans hd)]
      exact h
    | false =>
      rw [Path.arcTo_eq p start hd, Path.arcTo_eq q _ (himage.trans hd)]
      refine ⟨?_, h.start⟩
      change arcEnd q.pen (m.radii r) (m.angle start) (drawnSweep (m.turn sweep)) = _
      rw [h.pen, m.turn_drawnSweep, m.point_arcEnd (isDegenerate_eq_false.1 hd).1]

theorem draw (s : Sketch ℝ) (h : Alike m p q) : Alike m (p.draw s) (q.draw (s.map m.stroke)) := by
  induction s generalizing p q with
  | nil => exact h
  | cons a rest ih => exact ih (h.stroke a)

/-- A stroke and its image draw images. -/
theorem added (h : Alike m p q) (s : Stroke ℝ) :
    DrawsImage m.command (p.added s) (q.added (m.stroke s)) := by
  cases s with
  | move a => exact m.drawsImage_push p q (.move a)
  | line a => exact m.drawsImage_push p q (.line a)
  | cubic a b c => exact m.drawsImage_push p q (.cubic a b c)
  | quad a b => exact m.drawsImage_push p q (.quad a b)
  | close => exact m.drawsImage_push p q .close
  | arc r start sweep =>
    have himage := m.isDegenerate_image r sweep
    change DrawsImage _ _ (q.added (.arc (m.radii r) (m.angle start) (m.turn sweep)))
    cases hd : isDegenerate r sweep with
    | true =>
      simp only [Path.added, Path.stroke, Path.arcTo_degenerate p start hd,
        Path.arcTo_degenerate q _ (himage.trans hd), List.drop_length]
      exact ⟨fun _ => rfl, rfl⟩
    | false =>
      obtain ⟨hr, h0⟩ := isDegenerate_eq_false.1 hd
      have hne := drawnSweep_ne_zero h0
      refine ⟨fun hlength => ?_, ?_⟩
      · rw [q.added_arc _ (himage.trans hd), p.added_arc start hd, length_arcChain,
          length_arcChain, m.turn_drawnSweep] at hlength
        rw [q.added_arc _ (himage.trans hd), p.added_arc start hd, m.turn_drawnSweep,
          m.cuts_turn hlength, h.pen, m.point_arcCenter hr]
        exact m.arcChain_image hr _ start fun sweep' h' =>
          (cuts_short hne (abs_drawnSweep_le sweep) _ _ sweep' h').1
      · rw [whole_added_arc q _ (himage.trans hd), whole_added_arc p start hd, h.pen,
          m.point_arcCenter hr, m.turn_drawnSweep, m.command_arcCommand hr _ start hne]
        rfl

theorem groups (s : Sketch ℝ) (h : Alike m p q) :
    List.Forall₂ (DrawsImage m.command) (p.groups s) (q.groups (s.map m.stroke)) := by
  induction s generalizing p q with
  | nil => exact .nil
  | cons a rest ih => exact .cons (h.added a) (ih (h.stroke a))

end Alike

end
end ShapeOutline
