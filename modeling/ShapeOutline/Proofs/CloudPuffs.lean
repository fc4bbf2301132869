import Mathlib
import ShapeOutline.Preset.Sketch
import ShapeOutline.Proofs.GridDrawing
import ShapeOutline.Proofs.Likeness

/-! The cloud, whose puffs begin and end at angles of all kinds. Drawn in a frame
that is not square it is no scaled image of the cloud on its grid, as the interpreter
of custom geometry draws it: the radii and the flags are the same, but every visual
angle is taken on the scaled ellipse, and leads to another point of it. -/

namespace ShapeOutline
noncomputable section

variable {k radii : Point ℝ} {deg : ℝ}

theorem spread_stretch_sq (k radii : Point ℝ) (deg : ℝ) :
    spread (radii.stretch k) deg ^ 2 =
      (k.y * spread radii deg) ^ 2 +
        (k.x ^ 2 - k.y ^ 2) * (radii.x * (bearing deg).y) ^ 2 := by
  rw [mul_pow, spread_sq, spread_sq, Point.stretch_x, Point.stretch_y]
  ring

/-- How much closer to the centre the point seen at an angle comes when an ellipse is scaled,
compared to a scale of both axes by the first factor. -/
def shrinkage (k radii : Point ℝ) (deg : ℝ) : ℝ :=
  k.y * spread radii deg / spread (radii.stretch k) deg

theorem spoke_stretch_x (hr : radii.Positive) (hk : k.Positive) (deg : ℝ) :
    (spoke (radii.stretch k) deg).x = k.x * (spoke radii deg).x * shrinkage k radii deg := by
  have h := (spread_pos hr deg).ne'
  have h' := (spread_pos (hr.stretch hk) deg).ne'
  rw [spoke_eq hr, spoke_eq (hr.stretch hk)]
  simp only [Point.mul_x, spokeLength, shrinkage, Point.stretch_x, Point.stretch_y]
  field_simp

section Shrinkage

variable (hr : radii.Positive) (hk : k.Positive)
include hr hk

theorem shrinkage_lt_one (hdeg : (bearing deg).y ≠ 0) (h : k.y < k.x) :
    shrinkage k radii deg < 1 := by
  rw [shrinkage, div_lt_one (spread_pos (hr.stretch hk) deg)]
  refine lt_of_pow_lt_pow_left₀ 2 (spread_pos (hr.stretch hk) deg).le ?_
  rw [spread_stretch_sq, lt_add_iff_pos_right]
  have hsq : 0 < k.x ^ 2 - k.y ^ 2 := sub_pos.2 (pow_lt_pow_left₀ h hk.2.le two_ne_zero)
  have hx := hr.1.ne'
  positivity

theorem one_lt_shrinkage (hdeg : (bearing deg).y ≠ 0) (h : k.x < k.y) :
    1 < shrinkage k radii deg := by
  rw [shrinkage, one_lt_div (spread_pos (hr.stretch hk) deg)]
  refine lt_of_pow_lt_pow_left₀ 2 (mul_pos hk.2 (spread_pos hr deg)).le ?_
  rw [spread_stretch_sq, add_lt_iff_neg_left]
  have hsq : k.x ^ 2 - k.y ^ 2 < 0 := sub_neg.2 (pow_lt_pow_left₀ h hk.1.le two_ne_zero)
  have hx := hr.1.ne'
  exact mul_neg_of_neg_of_pos hsq (by positivity)

/-- A scale of both axes by one factor keeps every angle. -/
theorem spoke_stretch_of_eq (h : k.x = k.y) (deg : ℝ) :
    spoke (radii.stretch k) deg = (spoke radii deg).stretch k := by
  have hspread : spread (radii.stretch k) deg = k.y * spread radii deg := by
    rw [← pow_left_inj₀ (spread_pos (hr.stretch hk) deg).le
      (mul_pos hk.2 (spread_pos hr deg)).le two_ne_zero, spread_stretch_sq, h]
    ring
  have hky := hk.2.ne'
  have hs := (spread_pos hr deg).ne'
  rw [spoke_eq hr, spoke_eq (hr.stretch hk), spokeLength, spokeLength, hspread]
  ext
  · simp only [Point.mul_x, Point.stretch_x, Point.stretch_y]
    field_simp
  · simp only [Point.mul_y, Point.stretch_x, Point.stretch_y, h]
    field_simp

/-- An arc from the left half of its ellipse to the right half, no end of it on the horizontal
axis, ends elsewhere if it is scaled first and its axes are not scaled alike. -/
theorem arcEnd_stretch_ne {start sweep : ℝ} (hx : (bearing start).x < 0)
    (hx' : 0 < (bearing (start + sweep)).x) (hy : (bearing start).y ≠ 0)
    (hy' : (bearing (start + sweep)).y ≠ 0) (h : k.x ≠ k.y) (pen : Point ℝ) :
    arcEnd (pen.stretch k) (radii.stretch k) start sweep ≠
      (arcEnd pen radii start sweep).stretch k := by
  intro heq
  have hleft : (spoke radii start).x < 0 := by
    rw [spoke_eq hr]
    exact mul_neg_of_neg_of_pos hx (spokeLength_pos hr start)
  have hright : 0 < (spoke radii (start + sweep)).x := by
    rw [spoke_eq hr]
    exact mul_pos hx' (spokeLength_pos hr _)
  have hends := congrArg Point.x heq
  simp only [arcEnd_eq, Point.add_x, Point.sub_x, Point.stretch_x, spoke_stretch_x hr hk] at hends
  -- both ends of the arc move towards the middle, or both away from it
  have hzero : (spoke radii (start + sweep)).x * (shrinkage k radii (start + sweep) - 1) =
      (spoke radii start).x * (shrinkage k radii start - 1) := by
    apply mul_left_cancel₀ hk.1.ne'
    linear_combination hends
  rcases lt_or_gt_of_ne h with hlt | hgt
  · have h1 := one_lt_shrinkage hr hk hy hlt
    have h2 := one_lt_shrinkage hr hk hy' hlt
    have hneg := mul_neg_of_neg_of_pos hleft (sub_pos.2 h1)
    have hpos := mul_pos hright (sub_pos.2 h2)
    linarith
  · have h1 := shrinkage_lt_one hr hk hy hgt
    have h2 := shrinkage_lt_one hr hk hy' hgt
    have hpos := mul_pos_of_neg_of_neg hleft (sub_neg.2 h1)
    have hneg := mul_neg_of_pos_of_neg hright (sub_neg.2 h2)
    linarith

end Shrinkage

/-- A command without the end of its arc. -/
def Command.withoutEnd : Command ℝ → Command ℝ
  | arc radii rotation large sweep _ => arc radii rotation large sweep .zero
  | c => c

theorem Stroke.command_withoutEnd (s : Stroke ℝ) (k pen pen' : Point ℝ) :
    ((s.stretch k).command pen).withoutEnd = ((s.command pen').stretch k).withoutEnd := by
  cases s <;> rfl

theorem Path.draw_withoutEnd (hk : k.Positive) {s : Sketch ℝ} (hs : ∀ a ∈ s, a.Whole)
    {p q : Path ℝ} (hpq : p.commands.map Command.withoutEnd =
      (q.stretch k).commands.map Command.withoutEnd) :
    (p.draw (s.stretch k)).commands.map Command.withoutEnd =
      ((q.draw s).stretch k).commands.map Command.withoutEnd := by
  induction s generalizing p q with
  | nil => exact hpq
  | cons a rest ih =>
    obtain ⟨ha, hrest⟩ := List.forall_mem_cons.1 hs
    refine ih hrest ?_
    rw [p.stroke_whole (ha.stretch hk), q.stroke_whole ha, Path.push_stretch]
    change (p.commands ++ [_]).map _ = ((q.stretch k).commands ++ [_]).map _
    rw [List.map_append, List.map_append, hpq, List.map_singleton, List.map_singleton,
      a.command_withoutEnd k p.pen q.pen]

theorem Sketch.path_commands_cons {s : Stroke ℝ} (hs : s.Whole) (start : Point ℝ)
    (rest : Sketch ℝ) : ∃ cs, (Sketch.path (.move start :: s :: rest)).commands =
      .move start :: s.command start :: cs := by
  have hpath : Sketch.path (.move start :: s :: rest) =
      ((Path.empty.stroke (.move start)).stroke s).draw rest := rfl
  rw [hpath, Path.draw_commands, Path.stroke_whole _ hs]
  exact ⟨_, rfl⟩

/-- A drawing that begins with such an arc is not the scaled image of the drawing on the grid. -/
theorem GridSymbol.Proper.draw_ne {g : GridSymbol ℝ} (hg : g.Proper) {f : Frame ℝ} (hw : 0 < f.w)
    (hh : 0 < f.h) {start radii : Point ℝ} {deg sweep : ℝ} {rest : Sketch ℝ}
    (hs : g.sketch = .move start :: .arc radii deg sweep :: rest)
    (hx : (bearing deg).x < 0) (hx' : 0 < (bearing (deg + sweep)).x) (hy : (bearing deg).y ≠ 0)
    (hy' : (bearing (deg + sweep)).y ≠ 0) (h : (g.scale f).x ≠ (g.scale f).y) :
    (g.draw f).path.commands ≠ (g.sketch.path.stretch (g.scale f)).commands := by
  have hk : (g.scale f).Positive := hg.scale_positive hw hh
  have hwhole : (Stroke.arc radii deg sweep).Whole := hg.whole _ (by simp [hs])
  intro heq
  rw [GridSymbol.draw, hs] at heq
  obtain ⟨cs, hcs⟩ :=
    Sketch.path_commands_cons (hwhole.stretch hk) (start.stretch (g.scale f)) (rest.stretch _)
  obtain ⟨ds, hds⟩ := Sketch.path_commands_cons hwhole start rest
  have hlists := hcs.symm.trans (heq.trans (congrArg (List.map (Command.stretch (g.scale f))) hds))
  have hends := (List.cons.inj (List.cons.inj hlists).2).1
  exact arcEnd_stretch_ne hwhole.1 hk hx hx' hy hy' h start (Command.arc.inj hends).2.2.2.2

theorem bearing_upRight (deg : ℝ) (hlo : -90 < deg) (hhi : deg < 0) :
    0 < (bearing deg).x ∧ (bearing deg).y < 0 := by
  have hy := bearing_y_pos (neg_pos.2 hhi) (by linarith)
  rw [bearing_neg] at hy
  exact ⟨bearing_x_pos (abs_lt.2 ⟨hlo, by linarith⟩), neg_pos.1 hy⟩

namespace Shape

theorem cloudSymbol_proper : (cloudSymbol : GridSymbol ℝ).Proper := by
  refine ⟨?_, ?_, ?_⟩ <;> norm_num [cloudSymbol, puff, Stroke.Whole, Point.Positive, abs_le]

variable {f : Frame ℝ} (hw : 0 < f.w) (hh : 0 < f.h)
include hw hh

/-- The first puff leads from the left side of its ellipse to the top right. -/
theorem cloud_ne (h : f.w ≠ f.h) :
    (cloud f).path.commands ≠
      (cloudSymbol.sketch.path.stretch (cloudSymbol.scale f)).commands := by
  have hscale : (cloudSymbol.scale f).x ≠ (cloudSymbol.scale f).y := fun heq =>
    h ((div_left_inj' (by norm_num : (43200 : ℝ) ≠ 0)).1 heq)
  have hback : bearing (-629249 / 60000) = -bearing (-11429249 / 60000) := by
    rw [← bearing_add_half]
    norm_num
  obtain ⟨hx, hy⟩ := bearing_upRight (-629249 / 60000) (by norm_num) (by norm_num)
  obtain ⟨hx', hy'⟩ := bearing_upRight (-11429249 / 60000 + 7426832 / 60000)
    (by norm_num) (by norm_num)
  rw [hback, Point.neg_x, neg_pos] at hx
  rw [hback, Point.neg_y, neg_lt_zero] at hy
  exact cloudSymbol_proper.draw_ne hw hh rfl hx hx' hy.ne' hy'.ne hscale

/-- In a square frame every angle stays what it is. -/
theorem cloud_square (h : f.w = f.h) :
    (cloud f).path = cloudSymbol.sketch.path.stretch (cloudSymbol.scale f) := by
  have hk := cloudSymbol_proper.scale_positive hw hh
  have hscale : (cloudSymbol.scale f).x = (cloudSymbol.scale f).y :=
    congrArg (· / (43200 : ℝ)) h
  refine cloudSymbol_proper.path_draw hw hh fun s hs => ?_
  have hwhole := cloudSymbol_proper.whole s hs
  cases s with
  | arc radii deg sweep => exact fun d _ => spoke_stretch_of_eq hwhole.1 hk hscale d
  | move q | line q | cubic a b q | quad a q | close => trivial

end Shape

/-- The cloud is drawn with the radii and the flags with which the interpreter draws it as custom
geometry, which gives the scaled image of the cloud on its grid. But the puffs end where they do
there in square frames only. The cloud callout begins with the cloud. -/
theorem Preset.cloud_drawn_as_authored_iff {f : Frame ℝ} (hw : 0 < f.w) (hh : 0 < f.h) :
    let drawn := (cloud.sketch f).path
    let authored := Shape.cloudSymbol.authored.resolve f.w f.h none
    authored = Shape.cloudSymbol.sketch.path.stretch (Shape.cloudSymbol.scale f) ∧
      drawn.commands.map Command.withoutEnd = authored.commands.map Command.withoutEnd ∧
      (drawn.commands = authored.commands ↔ f.w = f.h) ∧
      drawn.commands <+: (cloudCallout.sketch f).path.commands := by
  intro drawn authored
  have hauthored : authored = Shape.cloudSymbol.sketch.path.stretch (Shape.cloudSymbol.scale f) :=
    Shape.cloudSymbol_proper.resolve_authored hw hh
  refine ⟨hauthored, ?_, ?_, ?_⟩
  · rw [hauthored]
    exact Path.draw_withoutEnd (Shape.cloudSymbol_proper.scale_positive hw hh)
      Shape.cloudSymbol_proper.whole (p := .empty) (q := .empty) rfl
  · rw [hauthored]
    constructor
    · intro h
      by_contra hne
      exact Shape.cloud_ne hw hh hne h
    · exact fun h => congrArg Path.commands (Shape.cloud_square hw hh h)
  · have hcallout : ∃ bubbles, cloudCallout.sketch f = cloud.sketch f ++ bubbles := by
      simp only [sketch, Shape.cloudCallout, List.append_assoc]
      exact ⟨_, rfl⟩
    obtain ⟨bubbles, hbubbles⟩ := hcallout
    have hpath : (cloudCallout.sketch f).path = drawn.draw bubbles := by
      rw [hbubbles]
      exact List.foldl_append
    rw [hpath, Path.draw_commands]
    exact List.prefix_append _ _

/-- A square cloud. -/
theorem Preset.cloud_drawn_as_authored_square :
    (0 : ℝ) < 100 ∧
    (let f : Frame ℝ := ⟨100, 100, .empty⟩
    let drawn := (cloud.sketch f).path
    let authored := Shape.cloudSymbol.authored.resolve f.w f.h none
    authored = Shape.cloudSymbol.sketch.path.stretch (Shape.cloudSymbol.scale f) ∧
      drawn.commands.map Command.withoutEnd = authored.commands.map Command.withoutEnd ∧
      (drawn.commands = authored.commands ↔ f.w = f.h) ∧
      drawn.commands <+: (cloudCallout.sketch f).path.commands) := by
  have h : (0 : ℝ) < 100 := by norm_num
  exact ⟨h, cloud_drawn_as_authored_iff h h⟩

/-- A cloud of twice its height. -/
theorem Preset.wide_cloud_drawn_apart :
    let f : Frame ℝ := ⟨200, 100, .empty⟩
    (cloud.sketch f).path ≠ Shape.cloudSymbol.authored.resolve f.w f.h none := by
  intro f heq
  have hw : (0 : ℝ) < f.w := by norm_num [f]
  have hh : (0 : ℝ) < f.h := by norm_num [f]
  rw [Shape.cloudSymbol_proper.resolve_authored hw hh] at heq
  exact Shape.cloud_ne hw hh (by norm_num [f]) (congrArg Path.commands heq)

end
end ShapeOutline
