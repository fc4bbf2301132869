import Mathlib
import ShapeOutline.Preset.Sketch
import ShapeOutline.Proofs.CircularArrow
import ShapeOutline.Proofs.Crescent
import ShapeOutline.Proofs.Legs

/-! Arcs of the frame's ellipse. The centre of an arc is recovered from the pen with the
angle it starts at, so the arc turns about the middle of the frame exactly if the pen is
where that angle is seen on the ellipse, and it ends where its last angle is seen. Angles
that differ by whole turns, as a sweep is found, are seen at the same point. -/

namespace ShapeOutline
noncomputable section

open Shape

/-- The commands that the stroke of a leg is written with. -/
def Leg.commands (l : Leg) : List (Command ℝ) := (Path.bare l.trail).added l.stroke

/-- What a stroke adds to a path does not depend on what is written already. -/
theorem Path.added_bare (p : Path ℝ) (s : Stroke ℝ) : (bare p.trail).added s = p.added s := by
  cases s with
  | move q | line q | cubic a b q | quad a q | close =>
    exact (added_push _ _).trans (added_push p _).symm
  | arc radii start sweep =>
    cases h : isDegenerate radii sweep with
    | true => simp [added, stroke, arcTo_degenerate _ start h]
    | false =>
      rw [p.added_arc start h, added_arc _ start h]
      rfl

/-- A path is written leg by leg. -/
theorem Path.draw_legs (s : Sketch ℝ) (p : Path ℝ) :
    (p.draw s).commands = p.commands ++ (p.legs s).flatMap Leg.commands := by
  induction s generalizing p with
  | nil => simp [draw, legs]
  | cons c rest ih =>
    change ((p.stroke c).draw rest).commands = _
    rw [ih, stroke_commands, legs, List.flatMap_cons, List.append_assoc, Leg.commands, added_bare]

/-- Whatever the leg draws of an arc is of the ellipse about `center`, which is also the centre that
is recovered for it. -/
def Leg.About (center : Point ℝ) (l : Leg) : Prop :=
  ∀ radii start sweep, l.stroke = .arc radii start sweep → isDegenerate radii sweep = false →
    (arcSegment l.trail.pen radii start (drawnSweep sweep)).center = center ∧
    ∃ sweeps, InPieces l.trail.pen radii .one center start sweep sweeps l.commands

/-- An arc begins at the point of the ellipse that is seen at its first angle. -/
theorem Leg.about_arc {center radii pen start q : Point ℝ} {deg sweep : ℝ}
    (h : radii.Positive → pen = center + spoke radii deg) :
    About center ⟨⟨pen, start⟩, .arc radii deg sweep, q⟩ := by
  rintro _ _ _ ⟨⟩ hd
  have hcenter : arcCenter pen radii deg = center := by
    rw [h (isDegenerate_eq_false.1 hd).1, ← ellipsePoint_eq, arcCenter_ellipsePoint]
  set sweeps := cuts (drawnSweep sweep) pen (arcEnd pen radii deg (drawnSweep sweep))
  have hcommands : commands ⟨⟨pen, start⟩, .arc radii deg sweep, q⟩ =
      arcChain (arcCenter pen radii deg) radii deg sweeps := Path.added_arc _ deg hd
  have hpieces := inPieces_cuts hd pen .one pen (arcEnd pen radii deg (drawnSweep sweep)) deg
  rw [Command.map_stretch_one, ← hcommands, hcenter] at hpieces
  exact ⟨by rw [arcSegment_eq, ← hcenter], sweeps, hpieces⟩

theorem Leg.about_of_straight {center : Point ℝ} {l : Leg} (h : l.stroke.IsStraight) :
    l.About center := by
  rintro radii start sweep hs -
  rw [hs] at h
  exact h.elim

theorem Path.stroke_mem_of_legs {p : Path ℝ} {s : Sketch ℝ} {l : Leg} (h : l ∈ p.legs s) :
    l.stroke ∈ s := by
  induction s generalizing p with
  | nil => exact absurd h List.not_mem_nil
  | cons c rest ih =>
    rcases List.mem_cons.1 h with rfl | h
    · exact List.mem_cons_self
    · exact List.mem_cons_of_mem c (ih h)

theorem Path.about_of_straight {center : Point ℝ} (p : Path ℝ) {s : Sketch ℝ}
    (h : ∀ c ∈ s, c.IsStraight) : ∀ l ∈ p.legs s, l.About center :=
  fun _ hl => Leg.about_of_straight (h _ (stroke_mem_of_legs hl))

theorem Leg.about_move {center p q : Point ℝ} {t : Trail} : About center ⟨t, .move p, q⟩ := by
  rintro radii start sweep ⟨⟩

theorem sweepBetween_real (start stop : ℝ) : sweepBetween start stop =
    if Scalar.emod (stop - start) 360 = 0 then 360 else Scalar.emod (stop - start) 360 := by
  simp [sweepBetween]

theorem sweepBetween_pos (start stop : ℝ) : 0 < sweepBetween start stop := by
  rw [sweepBetween_real]
  split_ifs with h
  · norm_num
  · exact (emod_mem _).1.lt_of_ne' h

theorem exists_turns_sweepBetween (start stop : ℝ) :
    ∃ n : ℤ, sweepBetween start stop = stop - start + 360 * n := by
  obtain ⟨n, hn⟩ := exists_turns_emod (stop - start)
  rw [sweepBetween_real]
  split_ifs with h
  · refine ⟨n + 1, ?_⟩
    rw [hn] at h
    push_cast
    linarith
  · exact ⟨n, hn⟩

/-- Two angles of less than a turn are a full turn apart exactly if they are equal. -/
theorem sweepBetween_eq_full_iff {start stop : ℝ} (h : |stop - start| < 360) :
    sweepBetween start stop = 360 ↔ start = stop := by
  obtain ⟨n, hn⟩ := exists_turns_emod (stop - start)
  have hmem := emod_mem (stop - start)
  have hzero : sweepBetween start stop = 360 ↔ Scalar.emod (stop - start) 360 = 0 := by
    rw [sweepBetween_real]
    split_ifs with h0
    · exact iff_of_true rfl h0
    · exact iff_of_false hmem.2.ne h0
  rw [hzero]
  constructor
  · intro h0
    rw [hn] at h0
    obtain ⟨hlo, hhi⟩ := abs_lt.1 h
    have hn0 : n = 0 := by
      have h1 : (n : ℝ) < 1 := by linarith
      have h2 : (-1 : ℝ) < n := by linarith
      have h1' : n < 1 := by exact_mod_cast h1
      have h2' : -1 < n := by exact_mod_cast h2
      omega
    rw [hn0, Int.cast_zero] at h0
    linarith
  · rintro rfl
    rw [sub_self, emod_real]
    norm_num

theorem bearing_sweepBetween (start stop : ℝ) :
    bearing (start + sweepBetween start stop) = bearing stop := by
  obtain ⟨n, hn⟩ := exists_turns_sweepBetween start stop
  rw [hn, show start + (stop - start + 360 * n) = stop + 360 * n by ring, bearing_add_turns]

/-- Back by the same sweep. -/
theorem bearing_sweepBetween_back (start stop : ℝ) :
    bearing (stop + -sweepBetween start stop) = bearing start := by
  obtain ⟨n, hn⟩ := exists_turns_sweepBetween start stop
  have hback : stop + -(stop - start + 360 * n) = start + 360 * ((-n : ℤ) : ℝ) := by
    push_cast
    ring
  rw [hn, hback, bearing_add_turns]

theorem polar_eq {radii : Point ℝ} (hr : radii.Positive) (center : Point ℝ) (deg : ℝ) :
    polar center radii deg = ellipsePoint center radii (parametricToVisual radii deg) := by
  rw [ellipsePoint_eq, spoke_parametricToVisual hr]
  rfl

theorem Path.legs_along {center radii origin : Point ℝ} {start stop sweep : ℝ} (rest : Sketch ℝ)
    (hr : radii.Positive) (hs : sweep ≠ 0) (hle : |sweep| ≤ 360)
    (hstop : bearing (start + sweep) = bearing stop) :
    (bare ⟨ellipsePoint center radii start, origin⟩).legs (.arc radii start sweep :: rest) =
      ⟨⟨ellipsePoint center radii start, origin⟩, .arc radii start sweep,
          ellipsePoint center radii stop⟩ ::
        (bare ⟨ellipsePoint center radii stop, origin⟩).legs rest := by
  refine legs_arc rest hr hs hle ?_
  rw [spoke_congr hr hstop, ellipsePoint_eq, ellipsePoint_eq]
  ext <;> simp

theorem abs_sweepBetween (start stop : ℝ) :
    |sweepBetween start stop| ≤ 360 ∧ sweepBetween start stop ≠ 0 := by
  have hpos := sweepBetween_pos start stop
  rw [abs_of_pos hpos]
  exact ⟨sweepBetween_le start stop, hpos.ne'⟩

theorem heading_pos {v : Point ℝ} (hv : 0 < v.y) : 0 < v.heading ∧ v.heading < 180 := by
  set z : ℂ := ⟨v.x, v.y⟩ with hz
  have hheading : v.heading = degrees z.arg := rfl
  have hne : z.arg ≠ 0 := fun h => hv.ne' (Complex.arg_eq_zero_iff.1 h).2
  rw [hheading, ← degrees_radians 0, ← degrees_radians 180, degrees_lt_degrees, degrees_lt_degrees,
    radians_half, radians_real, zero_mul]
  exact ⟨(Complex.arg_nonneg_iff.2 hv.le).lt_of_ne' hne, Complex.arg_lt_pi_iff.2 (.inr hv.ne')⟩

/-- The legs lead clockwise along the frame's ellipse from where `start` is seen to where `stop` is,
all around it if that is the same angle. -/
structure RunsRim (f : Frame ℝ) (start stop : ℝ) (legs : List Leg) : Prop where
  leg : legs[1]? = some ⟨⟨ellipsePoint f.center f.half start, ellipsePoint f.center f.half start⟩,
    .arc f.half start (sweepBetween start stop), ellipsePoint f.center f.half stop⟩
  clockwise : 0 < sweepBetween start stop
  le_full : sweepBetween start stop ≤ 360
  full_iff : sweepBetween start stop = 360 ↔ start = stop

section Rims

variable {f : Frame ℝ} (hr : f.half.Positive)

theorem turn_mem (f : Frame ℝ) (name : String) (default : ℝ) :
    0 ≤ f.turn name default ∧ f.turn name default < 360 := by
  obtain ⟨h, h'⟩ := f.pinned_mem name default (show (0 : ℝ) ≤ 21599999 by norm_num)
  simp only [Frame.turn, Scalar.zero_real]
  constructor
  · positivity
  · linarith

include hr

theorem rim_legs (start stop : ℝ) (rest : Sketch ℝ) :
    let a := ellipsePoint f.center f.half start
    let b := ellipsePoint f.center f.half stop
    Path.empty.legs (rim f start stop ++ rest) =
      ⟨⟨⟨0, 0⟩, ⟨0, 0⟩⟩, .move a, a⟩ ::
        ⟨⟨a, a⟩, .arc f.half start (sweepBetween start stop), b⟩ ::
          (Path.bare ⟨b, a⟩).legs rest := by
  intro a b
  obtain ⟨hle, hne⟩ := abs_sweepBetween start stop
  simp only [rim, List.cons_append, List.nil_append, Path.empty_eq, Path.legs_move,
    Path.legs_along rest hr hne hle (bearing_sweepBetween start stop)]
  rfl

theorem rim_runsRim (name name' : String) (default default' : ℝ) (rest : Sketch ℝ) :
    let start := f.turn name default
    let stop := f.turn name' default'
    RunsRim f start stop (Path.empty.legs (rim f start stop ++ rest)) := by
  intro start stop
  obtain ⟨h1, h2⟩ := turn_mem f name default
  obtain ⟨h3, h4⟩ := turn_mem f name' default'
  have hless : |stop - start| < 360 := abs_lt.2 ⟨by linarith, by linarith⟩
  refine ⟨?_, sweepBetween_pos _ _, sweepBetween_le _ _, sweepBetween_eq_full_iff hless⟩
  rw [rim_legs hr]
  rfl

theorem rim_about (start stop : ℝ) {rest : Sketch ℝ}
    (h : ∀ l ∈ (Path.bare ⟨ellipsePoint f.center f.half stop,
      ellipsePoint f.center f.half start⟩).legs rest, l.About f.center) :
    ∀ l ∈ Path.empty.legs (rim f start stop ++ rest), l.About f.center := by
  rw [rim_legs hr]
  simp only [List.forall_mem_cons]
  exact ⟨Leg.about_move, Leg.about_arc fun _ => rfl, h⟩

end Rims

section Shapes

variable {f : Frame ℝ} (hr : f.half.Positive)

/-- The inner arc of a block arc turns back about the centre. -/
theorem blockArc_inner_about (start stop : ℝ) (hole : Point ℝ) (t : Trail) :
    ∀ l ∈ (Path.bare t).legs [.line (ellipsePoint f.center hole stop),
      .arc hole stop (-sweepBetween start stop), .close], l.About f.center := by
  simp only [Path.legs_cons, Path.legs_nil, List.forall_mem_cons]
  exact ⟨Leg.about_of_straight trivial, Leg.about_arc fun _ => rfl, Leg.about_of_straight trivial,
    by simp⟩

theorem blockArc_inner_leg {hole : Point ℝ} (hhole : hole.Positive) (start stop : ℝ) (t : Trail) :
    ⟨⟨ellipsePoint f.center hole stop, t.start⟩, .arc hole stop (-sweepBetween start stop),
        ellipsePoint f.center hole start⟩ ∈
      (Path.bare t).legs [.line (ellipsePoint f.center hole stop),
        .arc hole stop (-sweepBetween start stop), .close] := by
  obtain ⟨hle, hne⟩ := abs_sweepBetween start stop
  rw [Path.legs_line, Path.legs_along _ hhole (neg_ne_zero.2 hne) ((abs_neg _).trans_le hle)
    (bearing_sweepBetween_back start stop)]
  exact .tail _ (.head _)

include hr

theorem wedgeEllipseCallout_legs :
    let tip := (Tail.ofFrame f).tip
    let deg := tipAngle f tip
    let start := parametricToVisual f.half (deg + 11)
    let stop := parametricToVisual f.half (deg - 11)
    let p := polar f.center f.half (deg + 11)
    let q := polar f.center f.half (deg - 11)
    Path.empty.legs (wedgeEllipseCallout f) =
      [⟨⟨⟨0, 0⟩, ⟨0, 0⟩⟩, .move tip, tip⟩, ⟨⟨tip, tip⟩, .line p, p⟩,
        ⟨⟨p, tip⟩, .arc f.half start (sweepBetween start stop), q⟩, ⟨⟨q, tip⟩, .line q, q⟩,
        ⟨⟨q, tip⟩, .close, tip⟩] := by
  intro tip deg start stop p q
  obtain ⟨hle, hne⟩ := abs_sweepBetween start stop
  have hp : p = ellipsePoint f.center f.half start := polar_eq hr f.center _
  have hq : q = ellipsePoint f.center f.half stop := polar_eq hr f.center _
  have hsketch : wedgeEllipseCallout f =
      [.move tip, .line p, .arc f.half start (sweepBetween start stop), .line q, .close] := rfl
  rw [hsketch, hp, hq]
  simp only [Path.empty_eq, Path.legs_move, Path.legs_line, Path.legs_close, Path.legs_nil,
    Path.legs_along _ hr hne hle (bearing_sweepBetween start stop)]

theorem wedgeEllipseCallout_about :
    ∀ l ∈ Path.empty.legs (wedgeEllipseCallout f), l.About f.center := by
  rw [wedgeEllipseCallout_legs hr]
  simp only [List.forall_mem_cons]
  exact ⟨Leg.about_move, Leg.about_of_straight trivial, Leg.about_arc fun _ => polar_eq hr _ _,
    Leg.about_of_straight trivial, Leg.about_of_straight trivial, by simp⟩

/-- The legs of a tape, by the angles of the ends of its arcs. -/
theorem magneticTape_legs (hh : 0 < f.h) :
    let corner : Point ℝ := ⟨f.w, f.h⟩
    let tab := f.vc + f.h / 2 * Scalar.sin (radians 45)
    let seen := ellipsePoint f.center f.half
    Path.empty.legs (Flowchart.magneticTape f) =
      [⟨⟨⟨0, 0⟩, ⟨0, 0⟩⟩, .move (seen 90), seen 90⟩,
        ⟨⟨seen 90, seen 90⟩, .arc f.half 90 90, seen 180⟩,
        ⟨⟨seen 180, seen 90⟩, .arc f.half 180 90, seen 270⟩,
        ⟨⟨seen 270, seen 90⟩, .arc f.half 270 90, seen 0⟩,
        ⟨⟨seen 0, seen 90⟩, .arc f.half 0 corner.heading, seen corner.heading⟩,
        ⟨⟨seen corner.heading, seen 90⟩, .line ⟨f.w, tab⟩, ⟨f.w, tab⟩⟩,
        ⟨⟨⟨f.w, tab⟩, seen 90⟩, .line corner, corner⟩,
        ⟨⟨corner, seen 90⟩, .close, seen 90⟩] := by
  intro corner tab seen
  have hbottom : (⟨f.hc, f.h⟩ : Point ℝ) = seen 90 := by
    simp only [seen, ellipsePoint_eq, spoke_ninety hr]
    ext
    · simp [Frame.center]
    · simp [Frame.center, Frame.vc, Frame.half]
  obtain ⟨hpos, hle⟩ := heading_pos (v := corner) hh
  have hsketch : Flowchart.magneticTape f =
      [.move ⟨f.hc, f.h⟩, .arc f.half 90 90, .arc f.half 180 90, .arc f.half 270 90,
        .arc f.half 0 corner.heading, .line ⟨f.w, tab⟩, .line corner, .close] := by
    simp only [Flowchart.magneticTape, Scalar.zero_real]
    rfl
  have hquarter : |(90 : ℝ)| ≤ 360 := by norm_num
  have hne : (90 : ℝ) ≠ 0 := by norm_num
  have h180 : bearing (90 + 90) = bearing 180 := by norm_num
  have h270 : bearing (180 + 90) = bearing 270 := by norm_num
  have h360 : bearing (270 + 90) = bearing 0 := by
    rw [bearing_right_down, bearing_zero]
  have hlast : bearing (0 + corner.heading) = bearing corner.heading := by rw [zero_add]
  have hturn : |corner.heading| ≤ 360 := by
    rw [abs_of_pos hpos]
    linarith
  rw [hsketch, hbottom]
  simp only [seen, Path.empty_eq, Path.legs_move, Path.legs_line, Path.legs_close, Path.legs_nil,
    Path.legs_along _ hr hne hquarter h180, Path.legs_along _ hr hne hquarter h270,
    Path.legs_along _ hr hne hquarter h360, Path.legs_along _ hr hpos.ne' hturn hlast]

theorem magneticTape_about (hh : 0 < f.h) :
    ∀ l ∈ Path.empty.legs (Flowchart.magneticTape f), l.About f.center := by
  rw [magneticTape_legs hr hh]
  simp only [List.forall_mem_cons]
  exact ⟨Leg.about_move, Leg.about_arc fun _ => rfl, Leg.about_arc fun _ => rfl,
    Leg.about_arc fun _ => rfl, Leg.about_arc fun _ => rfl, Leg.about_of_straight trivial,
    Leg.about_of_straight trivial, Leg.about_of_straight trivial, by simp⟩

/-- The corner of the frame is seen at the parametric angle of half a right angle. -/
theorem ellipsePoint_corner (hw : 0 < f.w) (hh : 0 < f.h) :
    (ellipsePoint f.center f.half (⟨f.w, f.h⟩ : Point ℝ).heading).y =
      f.vc + f.h / 2 * Scalar.sin (radians 45) := by
  set corner : Point ℝ := ⟨f.w, f.h⟩ with hcorner
  set s := (bearing 45).y with hs
  have hsq : s ^ 2 = 1 / 2 := by
    have hunit := bearing_norm 45
    have hsame := congrArg Point.x (bearing_complement 45)
    norm_num [Point.transpose] at hsame
    rw [hsame, ← hs] at hunit
    linarith
  have hpos : 0 < s := bearing_y_pos (by norm_num) (by norm_num)
  set q := f.center + corner * (s / 2) with hq
  have hray : OnRay f.center (bearing corner.heading) q := by
    obtain ⟨m, hm, h⟩ := onRay_heading f.center (v := corner) hh.ne'
    refine ⟨m * (s / 2), by positivity, ?_⟩
    have hx := congrArg Point.x h
    have hy := congrArg Point.y h
    rw [Point.add_x, Point.add_x, Point.mul_x, add_right_inj] at hx
    rw [Point.add_y, Point.add_y, Point.mul_y, add_right_inj] at hy
    ext
    · simp only [hq, Point.add_x, Point.mul_x, hx, mul_assoc]
    · simp only [hq, Point.add_y, Point.mul_y, hy, mul_assoc]
  have hon : OnEllipse f.center f.half q := by
    simp only [OnEllipse, hq, hcorner, Frame.half, Point.add_x, Point.add_y, Point.mul_x,
      Point.mul_y, add_sub_cancel_left]
    field_simp
    linarith
  rw [ellipsePoint_of_onRay hr hon hray]
  change f.vc + f.h * (s / 2) = f.vc + f.h / 2 * s
  ring

end Shapes

/-- A ring no thicker than half of the short side has a hole of its own on both axes. -/
theorem holeRadii_shortPart {f : Frame ℝ} (hw : 0 < f.w) (hh : 0 < f.h) {a : ℝ} (ha : a ≤ 50000) :
    let thickness := min f.w f.h * a / 100000
    let hole := holeRadii f (f.shortPart a)
    hole = ⟨f.w / 2 - thickness, f.h / 2 - thickness⟩ ∧ (hole.Positive ↔ a < 50000) := by
  intro thickness hole
  have hshort : 0 < min f.w f.h := lt_min hw hh
  have hthick : f.shortPart a = thickness := by
    rw [Frame.shortPart_real, Frame.ss, Scalar.min_real]
  have hwidth := min_le_left f.w f.h
  have hheight := min_le_right f.w f.h
  have hle : thickness ≤ min f.w f.h / 2 := by
    have := mul_le_mul_of_nonneg_left ha hshort.le
    simp only [thickness]
    linarith
  have hhole : hole = ⟨f.w / 2 - thickness, f.h / 2 - thickness⟩ := by
    simp only [hole, holeRadii, hthick, Scalar.max_real, Scalar.zero_real]
    rw [max_eq_left (by linarith), max_eq_left (by linarith)]
  refine ⟨hhole, ?_⟩
  have hlt : thickness < min f.w f.h / 2 ↔ a < 50000 := by
    have hhalf : min f.w f.h / 2 = min f.w f.h * 50000 / 100000 := by ring
    rw [hhalf, div_lt_div_iff_of_pos_right (by norm_num), mul_lt_mul_iff_right₀ hshort]
  rw [hhole, ← hlt]
  constructor
  · rintro ⟨hx, hy⟩
    rcases min_choice f.w f.h with h | h <;> rw [h] <;> simp only at hx hy <;> linarith
  · exact fun h => ⟨by simp only; linarith, by simp only; linarith⟩

/-- The presets that begin with an arc of the frame's ellipse, with the angles between which it
runs. -/
def rims (f : Frame ℝ) : List (Preset × ℝ × ℝ) :=
  [(.pie, f.turn "adj1" 0, f.turn "adj2" 16200000),
    (.chord, f.turn "adj1" 2700000, f.turn "adj2" 16200000),
    (.arc, f.turn "adj1" 16200000, f.turn "adj2" 0),
    (.blockArc, f.turn "adj1" 10800000, f.turn "adj2" 0)]

/-- What follows the arc of the rim. -/
theorem sketch_rims (f : Frame ℝ) :
    Preset.pie.sketch f =
      rim f (f.turn "adj1" 0) (f.turn "adj2" 16200000) ++ [.line f.center, .close] ∧
    Preset.chord.sketch f = rim f (f.turn "adj1" 2700000) (f.turn "adj2" 16200000) ++ [.close] ∧
    Preset.arc.sketch f = rim f (f.turn "adj1" 16200000) (f.turn "adj2" 0) ++ [] ∧
    (let start := f.turn "adj1" 10800000
    let stop := f.turn "adj2" 0
    let hole := holeRadii f (f.shortPart (f.pinned "adj3" 25000 0 50000))
    Preset.blockArc.sketch f = rim f start stop ++ [.line (ellipsePoint f.center hole stop),
      .arc hole stop (-sweepBetween start stop), .close]) := by
  simp only [Preset.sketch, pie, chord, Shape.arc, blockArc, Scalar.zero_real, List.append_nil,
    and_self]

/-- The arcs of the shapes that are cut from the frame's ellipse. -/
structure EllipseArcs (f : Frame ℝ) : Prop where
  /-- Every arc that is written turns about the middle of the frame. -/
  about : ∀ p ∈ [Preset.pie, .chord, .arc, .blockArc, .wedgeEllipseCallout, .flowChartMagneticTape],
    (p.sketch f).path.commands = (Path.empty.legs (p.sketch f)).flatMap Leg.commands ∧
      ∀ l ∈ Path.empty.legs (p.sketch f), l.About f.center
  rim : ∀ r ∈ rims f, RunsRim f r.2.1 r.2.2 (Path.empty.legs (r.1.sketch f))
  /-- The hole of a block arc is smaller than the ellipse by one thickness, on either axis. -/
  hole :
    let a := f.pinned "adj3" 25000 0 50000
    let thickness := min f.w f.h * a / 100000
    let hole := holeRadii f (f.shortPart a)
    hole = ⟨f.w / 2 - thickness, f.h / 2 - thickness⟩ ∧ (hole.Positive ↔ a < 50000)
  /-- The inner arc of a block arc runs back to where it is seen from the centre to begin. -/
  inner :
    let start := f.turn "adj1" 10800000
    let stop := f.turn "adj2" 0
    let hole := holeRadii f (f.shortPart (f.pinned "adj3" 25000 0 50000))
    hole.Positive → ⟨⟨ellipsePoint f.center hole stop, ellipsePoint f.center f.half start⟩,
      .arc hole stop (-sweepBetween start stop), ellipsePoint f.center hole start⟩ ∈
        Path.empty.legs (Preset.blockArc.sketch f)
  /-- The line after the arc of the callout has no length. -/
  callout :
    let tip := (Tail.ofFrame f).tip
    let p := polar f.center f.half (tipAngle f tip + 11)
    let q := polar f.center f.half (tipAngle f tip - 11)
    ∃ before after start sweep, Path.empty.legs (Preset.wedgeEllipseCallout.sketch f) =
      before ++ ⟨⟨p, tip⟩, .arc f.half start sweep, q⟩ :: ⟨⟨q, tip⟩, .line q, q⟩ :: after
  /-- The last arc of the tape ends at the height of its tab. -/
  tape :
    let tab := f.vc + f.h / 2 * Scalar.sin (radians 45)
    ∃ before after pen origin start sweep q,
      Path.empty.legs (Preset.flowChartMagneticTape.sketch f) =
        before ++ ⟨⟨pen, origin⟩, .arc f.half start sweep, q⟩ ::
          ⟨⟨q, origin⟩, .line ⟨f.w, tab⟩, ⟨f.w, tab⟩⟩ :: after ∧
      q.y = tab ∧ ∀ l ∈ after, l.stroke.IsStraight

theorem ellipse_arcs_about_center {f : Frame ℝ} (hw : 0 < f.w) (hh : 0 < f.h) :
    EllipseArcs f := by
  have hr : f.half.Positive := ⟨half_pos hw, half_pos hh⟩
  obtain ⟨hpie, hchord, harc, hblock⟩ := sketch_rims f
  refine ⟨fun p hp => ⟨Path.draw_legs _ _, ?_⟩, ?_,
    holeRadii_shortPart hw hh (f.pinned_mem _ _ (by norm_num)).2, fun hhole => ?_, ?_, ?_⟩
  · simp only [List.mem_cons, List.not_mem_nil, or_false] at hp
    rcases hp with rfl | rfl | rfl | rfl | rfl | rfl
    · rw [hpie]
      exact rim_about hr _ _ (Path.about_of_straight _ (by simp [Stroke.IsStraight]))
    · rw [hchord]
      exact rim_about hr _ _ (Path.about_of_straight _ (by simp [Stroke.IsStraight]))
    · rw [harc]
      exact rim_about hr _ _ (Path.about_of_straight _ (by simp))
    · rw [hblock]
      exact rim_about hr _ _ (blockArc_inner_about _ _ _ _)
    · exact wedgeEllipseCallout_about hr
    · exact magneticTape_about hr hh
  · simp only [rims, List.forall_mem_cons, List.not_mem_nil, IsEmpty.forall_iff, implies_true,
      and_true, hpie, hchord, harc, hblock]
    exact ⟨rim_runsRim hr _ _ _ _ _, rim_runsRim hr _ _ _ _ _, rim_runsRim hr _ _ _ _ _,
      rim_runsRim hr _ _ _ _ _⟩
  · rw [hblock, rim_legs hr]
    exact List.mem_cons_of_mem _ (List.mem_cons_of_mem _ (blockArc_inner_leg hhole _ _ _))
  · exact ⟨[_, _], _, _, _, wedgeEllipseCallout_legs hr⟩
  · exact ⟨[_, _, _, _], [_, _], _, _, _, _, _, magneticTape_legs hr hh,
      ellipsePoint_corner hr hw hh, by simp [Stroke.IsStraight]⟩

/-- A wide frame with a block arc of equal angles, all around a hole. -/
theorem ellipse_arcs_about_center_wide :
    let f : Frame ℝ := ⟨200, 100, ⟨[("adj1", 5400000), ("adj2", 5400000)]⟩⟩
    let hole := holeRadii f (f.shortPart (f.pinned "adj3" 25000 0 50000))
    (0 < f.w ∧ 0 < f.h) ∧ EllipseArcs f ∧ hole = ⟨75, 25⟩ ∧ hole.Positive := by
  intro f hole
  have hw : 0 < f.w := by norm_num [f]
  have hh : 0 < f.h := by norm_num [f]
  have harcs := ellipse_arcs_about_center hw hh
  have hadj : f.pinned "adj3" 25000 0 50000 = 25000 := by
    have hdefault : f.adjustment "adj3" 25000 = 25000 := rfl
    rw [Frame.pinned, hdefault, pin, Scalar.max_real]
    norm_num
  obtain ⟨hhole, hpositive⟩ := harcs.hole
  rw [hadj] at hhole hpositive
  simp only [hole, hadj]
  refine ⟨⟨hw, hh⟩, harcs, hhole.trans ?_, hpositive.2 (by norm_num)⟩
  norm_num [f]

end
end ShapeOutline
