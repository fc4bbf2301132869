import ShapeOutline.Proofs.CircularArrow
import ShapeOutline.Proofs.Mirror

/-! A counterclockwise arrow is a clockwise one turned upside down. It is solved with the
angles of the clockwise one less a full turn, which leaves every corner where it is, and
then reflected. The visual angles of its arcs may come out whole turns apart from the
reflected ones, but an arc is drawn alike wherever its angles are counted from. -/

namespace ShapeOutline
noncomputable section

theorem visualToParametric_add_turns (radii : Point ℝ) (deg : ℝ) (n : ℤ) :
    visualToParametric radii (deg + 360 * n) = visualToParametric radii deg := by
  have hbearing (deg : ℝ) : visualToParametric radii deg =
      Complex.arg ⟨radii.y * (bearing deg).x, radii.x * (bearing deg).y⟩ := rfl
  rw [hbearing, hbearing, bearing_add_turns]

theorem arcSegment_add_turns (pen radii : Point ℝ) (start sweep : ℝ) (n : ℤ) :
    arcSegment pen radii (start + 360 * n) sweep = arcSegment pen radii start sweep := by
  have hstop : start + 360 * n + sweep = start + sweep + 360 * n := add_right_comm _ _ _
  simp only [arcSegment, hstop, visualToParametric_add_turns]

/-- The strokes draw alike from wherever the pen is. -/
def Stroke.DrawsLike (s t : Stroke ℝ) : Prop := ∀ p : Path ℝ, p.stroke s = p.stroke t

theorem Stroke.DrawsLike.refl (s : Stroke ℝ) : s.DrawsLike s := fun _ => rfl

theorem Stroke.drawsLike_add_turns (radii : Point ℝ) (start sweep : ℝ) (n : ℤ) :
    (Stroke.arc radii (start + 360 * n) sweep).DrawsLike (.arc radii start sweep) := by
  intro p
  have hhalf (half : ℝ) : start + 360 * n + half = start + half + 360 * n := add_right_comm _ _ _
  change p.arcTo radii (start + 360 * n) sweep = p.arcTo radii start sweep
  simp only [Path.arcTo, Path.pushArc, hhalf, arcSegment_add_turns]

theorem Stroke.drawsLike_of_isDegenerate {radii radii' : Point ℝ} {start start' sweep sweep' : ℝ}
    (h : isDegenerate radii sweep = true) (h' : isDegenerate radii' sweep' = true) :
    (Stroke.arc radii start sweep).DrawsLike (.arc radii' start' sweep') := fun p =>
  (Path.arcTo_degenerate p start h).trans (Path.arcTo_degenerate p start' h').symm

theorem Path.groups_congr {s t : Sketch ℝ} (h : List.Forall₂ Stroke.DrawsLike s t) (p : Path ℝ) :
    p.groups s = p.groups t := by
  induction h generalizing p with
  | nil => rfl
  | cons hstroke _ ih =>
    simp only [groups, added]
    rw [hstroke p, ih]

namespace Shape

/-- An angle may be compared with one whole turns on. -/
theorem foldTurn_sub_add_turns (x deg : ℝ) (n : ℤ) :
    foldTurn (x - (deg + 360 * n)) = foldTurn (x - deg) := by
  have hfold (y : ℝ) : foldTurn y = Scalar.emod (y + 180) 360 - 180 := rfl
  have hturn : x - (deg + 360 * n) + 180 = x - deg + 180 + 360 * (-n : ℤ) := by
    push_cast
    ring
  rw [hfold, hfold, hturn, emod_add_turns]

theorem unitAt_add_turns (deg : ℝ) (n : ℤ) : unitAt (deg + 360 * n) = unitAt deg :=
  bearing_add_turns deg n

theorem ArcHead.solve_add_turns (r : BandRadii ℝ) (base tip : ℝ) (n : ℤ) :
    solve r (base + 360 * n) (tip + 360 * n) = solve r base tip := by
  simp only [solve, headCorner, unitAt_add_turns]

/-- The arrow that runs the other way: its angles are those from a full turn down. -/
def CircularKind.opposed (c : CircularKind ℝ) : CircularKind ℝ :=
  { c with
    counterclockwise := !c.counterclockwise, headSweep := -c.headSweep
    stop := 21600000 - c.stop, start := 21600000 - c.start }

/-- An angle between no turn and a full one, in 60000ths of a degree. -/
def IsTurn (v : ℝ) : Prop := 1 ≤ v ∧ v ≤ 21599999

/-- The set `b` gives the band and the heads the measures that `a` gives them and has the opposed
angles, as far as the sets have any. -/
structure Opposed (a b : Adjustments ℝ) : Prop where
  band : b.get? "adj1" = a.get? "adj1"
  headSweep : b.get? "adj2" = (a.get? "adj2").map fun v => -v
  stop : b.get? "adj3" = (a.get? "adj3").map fun v => 21600000 - v
  start : b.get? "adj4" = (a.get? "adj4").map fun v => 21600000 - v
  head : b.get? "adj5" = a.get? "adj5"
  stop_isTurn : ∀ v ∈ a.get? "adj3", IsTurn v
  start_isTurn : ∀ v ∈ a.get? "adj4", IsTurn v

theorem turn_eq {f : Frame ℝ} {name : String} {default : ℝ}
    (h : IsTurn (f.adjustment name default)) :
    f.turn name default = f.adjustment name default / 60000 := by
  have hpin : f.turn name default = pin 0 (f.adjustment name default) 21599999 / 60000 := by
    simp [Frame.turn, Frame.pinned]
  rw [hpin, pin_eq_self (by linarith [h.1]) h.2]

theorem isTurn_adjustment {f : Frame ℝ} {name : String} {default : ℝ}
    (h : ∀ v ∈ f.adjustments.get? name, IsTurn v) (hdefault : IsTurn default) :
    IsTurn (f.adjustment name default) := by
  change IsTurn ((f.adjustments.get? name).getD default)
  cases hv : f.adjustments.get? name with
  | none => exact hdefault
  | some v => exact h v hv

theorem turn_opposed {f g : Frame ℝ} {name : String} {default : ℝ}
    (hopposed : g.adjustments.get? name = (f.adjustments.get? name).map fun v => 21600000 - v)
    (h : ∀ v ∈ f.adjustments.get? name, IsTurn v) (hdefault : IsTurn default) :
    -g.turn name (21600000 - default) = f.turn name default + 360 * (-1 : ℤ) := by
  have hf := isTurn_adjustment h hdefault
  have hg : g.adjustment name (21600000 - default) = 21600000 - f.adjustment name default := by
    change (g.adjustments.get? name).getD _ = _
    rw [hopposed]
    exact Option.getD_map (fun v => 21600000 - v) _ _
  have hturn : IsTurn (21600000 - f.adjustment name default) := by
    constructor <;> linarith [hf.1, hf.2]
  rw [turn_eq hf, turn_eq (hg ▸ hturn), hg]
  push_cast
  ring

section Solution

variable {c : CircularKind ℝ} (hclock : c.counterclockwise = false) (hstop : IsTurn c.stop)
  (hstart : IsTurn c.start) {w h : ℝ} {a b : Adjustments ℝ} (hab : Opposed a b)
include hclock hstop hstart hab

/-- Read clockwise, the opposed arrow begins a full turn earlier and turns as far. -/
theorem Turn.ofFrame_opposed :
    ofFrame c.opposed ⟨w, h, b⟩ =
      { ofFrame c ⟨w, h, a⟩ with start := (ofFrame c ⟨w, h, a⟩).start + 360 * (-1 : ℤ) } := by
  set f : Frame ℝ := ⟨w, h, a⟩
  set g : Frame ℝ := ⟨w, h, b⟩
  have hstart' : -g.turn "adj4" (21600000 - c.start) = f.turn "adj4" c.start + 360 * (-1 : ℤ) :=
    turn_opposed hab.start hab.start_isTurn hstart
  have hstop' : -g.turn "adj3" (21600000 - c.stop) = f.turn "adj3" c.stop + 360 * (-1 : ℤ) :=
    turn_opposed hab.stop hab.stop_isTurn hstop
  have hhead : -g.angleOf "adj2" (-c.headSweep) = f.angleOf "adj2" c.headSweep := by
    change -((b.get? "adj2").getD (-c.headSweep) / 60000) = (a.get? "adj2").getD c.headSweep / 60000
    rw [hab.headSweep, Option.getD_map (fun v => -v), neg_div, neg_neg]
  simp only [ofFrame, CircularKind.opposed, hclock, Bool.not_false, if_true, hstart', hstop', hhead,
    Bool.false_eq_true, if_false, sweepBetween, add_sub_add_right_eq_sub]

omit hclock hstop hstart in
theorem BandRadii.ofFrame_opposed :
    ofFrame ⟨w, h, b⟩ c.band c.head = ofFrame ⟨w, h, a⟩ c.band c.head := by
  have hband (d lo hi : ℝ) :
      Frame.pinned ⟨w, h, b⟩ "adj1" d lo hi = Frame.pinned ⟨w, h, a⟩ "adj1" d lo hi := by
    change pin lo ((b.get? "adj1").getD d) hi = _
    rw [hab.band]
    rfl
  have hhead (d lo hi : ℝ) :
      Frame.pinned ⟨w, h, b⟩ "adj5" d lo hi = Frame.pinned ⟨w, h, a⟩ "adj5" d lo hi := by
    change pin lo ((b.get? "adj5").getD d) hi = _
    rw [hab.head]
    rfl
  simp only [ofFrame, hband, hhead]
  rfl

/-- The opposed arrow has the same corners and arcs on the circle. -/
theorem CircularSolution.ofFrame_opposed :
    ofFrame c.opposed ⟨w, h, b⟩ = ofFrame c ⟨w, h, a⟩ := by
  have hturn := Turn.ofFrame_opposed hclock hstop hstart hab (w := w) (h := h)
  have hradii : BandRadii.ofFrame ⟨w, h, b⟩ c.opposed.band c.opposed.head =
      BandRadii.ofFrame ⟨w, h, a⟩ c.band c.head := BandRadii.ofFrame_opposed hab
  have hdouble : c.opposed.doubleHeaded = c.doubleHeaded := rfl
  set t := Turn.ofFrame c ⟨w, h, a⟩ with ht
  set n : ℤ := -1
  have htip : t.start + 360 * n + t.sweep = t.start + t.sweep + 360 * n := add_right_comm _ _ _
  have hbase : t.start + t.sweep + 360 * n - t.head = t.start + t.sweep - t.head + 360 * n :=
    add_sub_right_comm _ _ _
  have htail : t.start + 360 * n - t.head = t.start - t.head + 360 * n := add_sub_right_comm _ _ _
  simp only [ofFrame, hturn, hradii, hdouble, ← ht, Turn.base, htip, hbase, htail, unitAt_add_turns,
    ArcHead.solve_add_turns, foldTurn_sub_add_turns, add_sub_add_right_eq_sub]

end Solution

section Outline

variable (f : Frame ℝ)

/-- The flipped oval shows each point upside down. -/
theorem Oval.point_flipped (q : Point ℝ) :
    (ofFrame f true).point q = (Reflection.upsideDown f.h).point ((ofFrame f false).point q) := by
  set k := (ofFrame f false).scale
  have hx : (ofFrame f true).point q =
      ⟨f.center.x + q.x * k.x, f.center.y + -q.y * k.y⟩ := rfl
  have himage : (Reflection.upsideDown f.h).point ((ofFrame f false).point q) =
      ⟨f.center.x + q.x * k.x, f.h - (f.center.y + q.y * k.y)⟩ := rfl
  have hcenter : f.center.y = f.h / 2 := rfl
  rw [hx, himage, hcenter]
  congr 1
  ring

theorem Oval.sight_flipped (radii : Point ℝ) (deg : ℝ) :
    sight radii ((ofFrame f true).signed deg) = -sight radii deg :=
  sight_neg radii deg

theorem Oval.turnSeen_flipped (r start sweep : ℝ) :
    (ofFrame f true).turnSeen r start sweep = -(ofFrame f false).turnSeen r start sweep := by
  set radii := (ofFrame f false).scale * r
  change sight radii ((ofFrame f true).signed _) - sight radii ((ofFrame f true).signed _) =
    -(sight radii (start + sweep) - sight radii start)
  rw [sight_flipped, sight_flipped]
  ring

/-- It shows each arc upside down, if perhaps counted from a later turn. -/
theorem Oval.arc_flipped (r start sweep : ℝ) :
    ((ofFrame f true).arc r start sweep).DrawsLike
      ((Reflection.upsideDown f.h).stroke ((ofFrame f false).arc r start sweep)) := by
  set radii := (ofFrame f false).scale * r
  by_cases hr : radii.Positive
  · obtain ⟨n, hn⟩ := (ofFrame f false).arc_eq hr start sweep
    obtain ⟨m, hm⟩ := (ofFrame f true).arc_eq hr start sweep
    have himage : (Reflection.upsideDown f.h).stroke ((ofFrame f false).arc r start sweep) =
        .arc radii (-(sight radii start + 360 * n))
          (-(ofFrame f false).turnSeen r start sweep) := by
      rw [hn]
      rfl
    have harc : (ofFrame f true).arc r start sweep =
        .arc radii (-(sight radii start + 360 * n) + 360 * ((n + m : ℤ) : ℝ))
          (-(ofFrame f false).turnSeen r start sweep) := by
      rw [hm, turnSeen_flipped]
      congr 1
      change sight radii ((ofFrame f true).signed start) + 360 * m = _
      rw [sight_flipped]
      push_cast
      ring
    rw [harc, himage]
    exact Stroke.drawsLike_add_turns radii _ _ _
  · have hd (sweep : ℝ) : isDegenerate radii sweep = true := by
      rw [← Bool.not_eq_false, isDegenerate_eq_false]
      exact fun h => hr h.1
    exact Stroke.drawsLike_of_isDegenerate (hd _) (hd _)

theorem circularArrowOf_opposed {c : CircularKind ℝ} (hclock : c.counterclockwise = false)
    (hstop : IsTurn c.stop) (hstart : IsTurn c.start) {w h : ℝ} {a b : Adjustments ℝ}
    (hab : Opposed a b) :
    List.Forall₂ Stroke.DrawsLike (circularArrowOf c.opposed ⟨w, h, b⟩)
      ((circularArrowOf c ⟨w, h, a⟩).reflect (.upsideDown h)) := by
  have hsolution := CircularSolution.ofFrame_opposed hclock hstop hstart hab (w := w) (h := h)
  have hflip : c.opposed.counterclockwise = true := by simp [CircularKind.opposed, hclock]
  have hoval : Oval.ofFrame ⟨w, h, b⟩ true = Oval.ofFrame ⟨w, h, a⟩ true := rfl
  set s := Oval.ofFrame ⟨w, h, a⟩ false
  have hpoint : (Oval.ofFrame ⟨w, h, a⟩ true).point =
      fun q => (Reflection.upsideDown h).point (s.point q) :=
    funext fun q => Oval.point_flipped ⟨w, h, a⟩ q
  have harc (r start sweep : ℝ) := Oval.arc_flipped ⟨w, h, a⟩ r start sweep
  have hlines (ps : List (Point ℝ)) :
      Sketch.lines (ps.map fun q => (Reflection.upsideDown h).point (s.point q)) =
        (Sketch.lines (ps.map s.point)).map (Reflection.upsideDown h).stroke := by
    simp only [Sketch.lines, List.map_map]
    rfl
  have hrefl (s : Sketch ℝ) : List.Forall₂ Stroke.DrawsLike s s :=
    List.forall₂_same.2 fun t _ => Stroke.DrawsLike.refl t
  rw [circularArrowOf_eq, circularArrowOf_eq, hsolution, hclock, hflip, hoval, hpoint]
  simp only [Sketch.reflect, List.map_append, hlines]
  refine List.rel_append (List.rel_append (List.rel_append (List.rel_append ?_ ?_) ?_) ?_) ?_
  · exact .cons (Stroke.DrawsLike.refl _) (.cons (harc _ _ _) .nil)
  · exact hrefl _
  · exact .cons (harc _ _ _) .nil
  · exact hrefl _
  · exact hrefl _

end Outline

end Shape

/-- The counterclockwise arrow with the opposed angles is the clockwise one upside down: command by
command every point is reflected, the radii and the large flag of an arc stay and its sweep flag is
the other one. If only one of the two writes an arc in halves, these put together are the image of
the other's arc. -/
theorem Preset.leftCircularArrow_opposes (w h : ℝ) {a b : Adjustments ℝ}
    (hab : Shape.Opposed a b) :
    let clockwise := circularArrow.sketch ⟨w, h, a⟩
    let counter := leftCircularArrow.sketch ⟨w, h, b⟩
    clockwise.path.commands = (Path.empty.groups clockwise).flatten ∧
    counter.path.commands = (Path.empty.groups counter).flatten ∧
    List.Forall₂ (DrawsImage (Reflection.upsideDown h).command) (Path.empty.groups clockwise)
      (Path.empty.groups counter) ∧
    (∀ p, (Reflection.upsideDown h).point p = ⟨p.x, h - p.y⟩) ∧
    ∀ radii rotation large sweep p,
      (Reflection.upsideDown h).command (.arc radii rotation large sweep p) =
        .arc radii rotation large (!sweep) ⟨p.x, h - p.y⟩ := by
  intro clockwise counter
  obtain ⟨c, hc, hc', hclock, hstop, hstart⟩ : ∃ c, circularArrow.circularKind? = some c ∧
      leftCircularArrow.circularKind? = some c.opposed ∧ c.counterclockwise = false ∧
      Shape.IsTurn c.stop ∧ Shape.IsTurn c.start := by
    refine ⟨_, rfl, ?_, rfl, ?_, ?_⟩
    · simp only [circularKind?, Shape.CircularKind.opposed]
      norm_num
    · constructor <;> norm_num
    · constructor <;> norm_num
  have hclockwise : clockwise = Shape.circularArrowOf c ⟨w, h, a⟩ := sketch_of_circularKind? hc _
  have hcounter : counter = Shape.circularArrowOf c.opposed ⟨w, h, b⟩ :=
    sketch_of_circularKind? hc' _
  obtain ⟨pen, strokes, hmove⟩ : ∃ pen strokes, clockwise = .move pen :: strokes :=
    ⟨_, _, by rw [hclockwise, Shape.circularArrowOf_eq]; rfl⟩
  refine ⟨Path.draw_commands clockwise .empty, Path.draw_commands counter .empty, ?_,
    fun p => rfl, fun radii rotation large sweep p => ?_⟩
  · have halike := Shape.circularArrowOf_opposed hclock hstop hstart hab (w := w) (h := h)
    rw [hcounter, Path.groups_congr halike, ← hclockwise, hmove]
    exact Path.groups_reflect _ pen strokes
  · exact congrArg (fun turn => Command.arc radii rotation large turn ⟨p.x, h - p.y⟩)
      (Bool.xor_true sweep)

/-- Angles on either side of a full turn, in a frame that is not square. -/
theorem Preset.leftCircularArrow_opposes_acrossTurn :
    let a : Adjustments ℝ := ⟨[("adj2", 1142319), ("adj3", 1), ("adj4", 21599999)]⟩
    let b : Adjustments ℝ := ⟨[("adj2", -1142319), ("adj3", 21599999), ("adj4", 1)]⟩
    Shape.Opposed a b ∧
      List.Forall₂ (DrawsImage (Reflection.upsideDown 100).command)
        (Path.empty.groups (circularArrow.sketch ⟨200, 100, a⟩))
        (Path.empty.groups (leftCircularArrow.sketch ⟨200, 100, b⟩)) := by
  intro a b
  have hab : Shape.Opposed a b := by
    constructor <;> simp [a, b, Adjustments.get?, List.lookup, Shape.IsTurn] <;> norm_num
  exact ⟨hab, (leftCircularArrow_opposes 200 100 hab).2.2.1⟩

end
end ShapeOutline
