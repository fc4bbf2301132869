import ShapeOutline.Proofs.Likeness

/-! A sketch drawn under a reflection is the reflection of its drawing. The pen
and the start of the sub-path are images after every stroke, and so is what each
stroke draws; an arc is turned the other way exactly by an odd number of
reflections. -/

namespace ShapeOutline
noncomputable section

namespace Reflection

/-- The image of a vector, for which the extents do not count. -/
def vector (t : Reflection ℝ) (v : Point ℝ) : Point ℝ :=
  let q := if t.swap then v.transpose else v
  ⟨if t.flipX.isSome then -q.x else q.x, if t.flipY.isSome then -q.y else q.y⟩

theorem flip_add (extent : Option ℝ) (x v : ℝ) :
    flip extent (x + v) = flip extent x + if extent.isSome then -v else v := by
  cases extent with
  | none => rfl
  | some e => change e - (x + v) = e - x + -v; ring

theorem point_add (t : Reflection ℝ) (p v : Point ℝ) :
    t.point (p + v) = t.point p + t.vector v := by
  have hq : (if t.swap then (p + v).transpose else p + v) =
      (if t.swap then p.transpose else p) + if t.swap then v.transpose else v := by
    split_ifs <;> rfl
  simp only [point, vector, hq]
  ext
  · exact flip_add ..
  · exact flip_add ..

/-- Whether an odd number of the three reflections is on. -/
def reverses (t : Reflection ℝ) : Bool := t.swap ^^ t.flipX.isSome ^^ t.flipY.isSome

/-- The image of a visual angle. -/
def angle (t : Reflection ℝ) (deg : ℝ) : ℝ := (t.angles deg 0).1

/-- The image of a sweep. -/
def turn (t : Reflection ℝ) (sweep : ℝ) : ℝ := if t.reverses then -sweep else sweep

theorem angles_eq (t : Reflection ℝ) (start sweep : ℝ) :
    t.angles start sweep = (t.angle start, t.turn sweep) := by
  obtain ⟨swap, flipX, flipY⟩ := t
  cases swap <;> cases flipX <;> cases flipY <;> simp [angles, angle, turn, reverses]

theorem angle_add (t : Reflection ℝ) (deg sweep : ℝ) :
    t.angle (deg + sweep) = t.angle deg + t.turn sweep := by
  obtain ⟨swap, flipX, flipY⟩ := t
  cases swap <;> cases flipX <;> cases flipY <;> simp [angles, angle, turn, reverses] <;> ring

theorem radii_positive (t : Reflection ℝ) {r : Point ℝ} : (t.radii r).Positive ↔ r.Positive := by
  unfold radii
  split_ifs
  · exact ⟨Point.Positive.transpose, Point.Positive.transpose⟩
  · rfl

/-- The point seen at the image of an angle is the image of the point seen at the angle. -/
theorem spoke_angle (t : Reflection ℝ) {r : Point ℝ} (hr : r.Positive) (deg : ℝ) :
    spoke (t.radii r) (t.angle deg) = t.vector (spoke r deg) := by
  have hpos := t.radii_positive.2 hr
  have hswap : spoke (t.radii r) (if t.swap then 90 - deg else deg) =
      if t.swap then (spoke r deg).transpose else spoke r deg := by
    unfold radii
    split_ifs
    · exact spoke_complement hr deg
    · rfl
  obtain ⟨swap, flipX, flipY⟩ := t
  simp only [vector, ← hswap]
  cases flipX <;> cases flipY <;> cases swap <;>
    simp only [angle, angles, Option.isSome, Bool.false_eq_true, if_true, if_false,
      spoke_neg hpos, spoke_supplement hpos]

/-- The image of a command, an arc being turned the other way by an odd number of reflections. -/
def command (t : Reflection ℝ) : Command ℝ → Command ℝ
  | .move p => .move (t.point p)
  | .line p => .line (t.point p)
  | .cubic a b p => .cubic (t.point a) (t.point b) (t.point p)
  | .quad a p => .quad (t.point a) (t.point p)
  | .arc r rotation large sweep p =>
    .arc (t.radii r) rotation large (sweep ^^ t.reverses) (t.point p)
  | .close => .close

theorem stroke_arc (t : Reflection ℝ) (r : Point ℝ) (start sweep : ℝ) :
    t.stroke (.arc r start sweep) = .arc (t.radii r) (t.angle start) (t.turn sweep) := by
  simp only [stroke, angles_eq]

/-- A reflection is a likeness. -/
def likeness (t : Reflection ℝ) : Likeness where
  point := t.point
  vector := t.vector
  radii := t.radii
  angle := t.angle
  reverses := t.reverses
  point_add := t.point_add
  angle_add := t.angle_add
  radii_positive _ := t.radii_positive
  spoke_angle _ hr := t.spoke_angle hr

theorem likeness_stroke (t : Reflection ℝ) : t.likeness.stroke = t.stroke := by
  funext s
  cases s with
  | arc r start sweep => exact (t.stroke_arc r start sweep).symm
  | _ => rfl

theorem likeness_command (t : Reflection ℝ) : t.likeness.command = t.command := by
  funext c
  cases c <;> rfl

end Reflection

/-- The pen and the start of the sub-path of `q` are the images of those of `p`. -/
structure Mirrored (t : Reflection ℝ) (p q : Path ℝ) : Prop where
  pen : q.pen = t.point p.pen
  start : q.start = t.point p.start

variable {t : Reflection ℝ} {p q : Path ℝ}

theorem Mirrored.alike (h : Mirrored t p q) : Alike t.likeness p q := ⟨h.pen, h.start⟩

theorem Mirrored.draw (s : Sketch ℝ) (h : Mirrored t p q) :
    Mirrored t (p.draw s) (q.draw (s.reflect t)) := by
  have hdraw := h.alike.draw s
  rw [t.likeness_stroke] at hdraw
  exact ⟨hdraw.pen, hdraw.start⟩

theorem Mirrored.groups (s : Sketch ℝ) (h : Mirrored t p q) :
    List.Forall₂ (DrawsImage t.command) (p.groups s) (q.groups (s.reflect t)) := by
  have hgroups := h.alike.groups s
  rw [t.likeness_stroke, t.likeness_command] at hgroups
  exact hgroups

theorem reflect_identity (s : Sketch ℝ) : s.reflect .identity = s := by
  have h : Reflection.stroke (.identity : Reflection ℝ) = id := by
    funext a
    cases a <;> rfl
  unfold Sketch.reflect
  rw [h, List.map_id]

/-- A sketch that begins with a move is drawn reflected as the image of its drawing. -/
theorem Path.groups_reflect (t : Reflection ℝ) (a : Point ℝ) (s : Sketch ℝ) :
    List.Forall₂ (DrawsImage t.command) (empty.groups (.move a :: s))
      (empty.groups (Sketch.reflect t (.move a :: s))) := by
  have hmove : Mirrored t (empty.push (.move a)) (empty.push (.move (t.point a))) := ⟨rfl, rfl⟩
  exact .cons ⟨fun _ => rfl, rfl⟩ (hmove.groups s)

/-- The second sketch draws the mirror image of the first one: from the first stroke on the pen and
the start of the sub-path are images, and every stroke draws the image of what it draws there. -/
structure DrawsMirrored (t : Reflection ℝ) (s s' : Sketch ℝ) : Prop where
  pen : ∀ n, Mirrored t (Sketch.path (s.take (n + 1))) (Sketch.path (s'.take (n + 1)))
  commands : List.Forall₂ (DrawsImage t.command) (Path.empty.groups s) (Path.empty.groups s')

theorem drawsMirrored_reflect (t : Reflection ℝ) (a : Point ℝ) (s : Sketch ℝ) :
    DrawsMirrored t (.move a :: s) (Sketch.reflect t (.move a :: s)) := by
  refine ⟨fun n => ?_, Path.groups_reflect t a s⟩
  have hmove : Mirrored t (Path.empty.push (.move a)) (Path.empty.push (.move (t.point a))) :=
    ⟨rfl, rfl⟩
  have hdraw := hmove.draw (s.take n)
  rw [Sketch.reflect, List.map_take] at hdraw
  exact hdraw

/-- The commands of a rendered sketch, those of each stroke in a group. -/
def Sketch.groups (s : Sketch ℝ) (t : Reflection ℝ) : List (List (Command ℝ)) :=
  Path.empty.groups (s.reflect t)

theorem Sketch.render_commands (s : Sketch ℝ) (t : Reflection ℝ) :
    (s.render t).commands = (s.groups t).flatten :=
  Path.draw_commands (s.reflect t) .empty

/-- A sketch that begins with a move and its reflection keep in step: from the move on the pen and
the start of the sub-path are images, and every stroke draws the image of what it draws unreflected,
or nothing in both. If only one of the two drawings writes an arc in halves, these put together are
the image of the other's arc. -/
theorem render_reflected (a : Point ℝ) (s : Sketch ℝ) (t : Reflection ℝ) :
    (∀ n, Mirrored t (Sketch.render (.move a :: s.take n) .identity)
      (Sketch.render (.move a :: s.take n) t)) ∧
    (∀ u : Reflection ℝ, (Sketch.render (.move a :: s) u).commands =
      (Sketch.groups (.move a :: s) u).flatten) ∧
    List.Forall₂ (DrawsImage t.command) (Sketch.groups (.move a :: s) .identity)
      (Sketch.groups (.move a :: s) t) := by
  have hmove : Mirrored t (Path.empty.push (.move a)) (Path.empty.push (.move (t.point a))) :=
    ⟨rfl, rfl⟩
  refine ⟨fun n => ?_, fun u => Sketch.render_commands _ u, ?_⟩
  · have hdraw := hmove.draw (s.take n)
    unfold Sketch.render
    rw [reflect_identity]
    exact hdraw
  · unfold Sketch.groups
    rw [reflect_identity]
    exact Path.groups_reflect t a s

end
end ShapeOutline
