import ShapeOutline.Proofs.Ellipse

/-! An arc is written as one command or as two halves. Either way the commands
are consecutive arcs of one ellipse that cover the arc, whether it is written in
its own units or scaled, and none of them is a long arc that closes on itself in
the text. -/

namespace ShapeOutline
noncomputable section

/-- The part of a sweep that is drawn. -/
def drawnSweep (sweep : ℝ) : ℝ := Scalar.clamp (-360) 360 sweep

theorem drawnSweep_eq (sweep : ℝ) :
    drawnSweep sweep = if sweep < -360 then -360 else if 360 < sweep then 360 else sweep := rfl

theorem abs_drawnSweep_le (sweep : ℝ) : |drawnSweep sweep| ≤ 360 := by
  rw [drawnSweep_eq, abs_le]
  constructor <;> split_ifs <;> linarith

theorem drawnSweep_neg (sweep : ℝ) : drawnSweep (-sweep) = -drawnSweep sweep := by
  simp only [drawnSweep_eq]
  split_ifs <;> linarith

theorem drawnSweep_ne_zero {sweep : ℝ} (h : sweep ≠ 0) : drawnSweep sweep ≠ 0 := by
  rw [drawnSweep_eq]
  split_ifs
  · norm_num
  · norm_num
  · exact h

def arcCommand (center radii : Point ℝ) (start sweep : ℝ) : Command ℝ :=
  .arc radii 0 (decide (180 < |sweep|)) (decide (0 < sweep))
    (ellipsePoint center radii (start + sweep))

/-- Arcs of the ellipse about `center`, each from the angle where the one before it stops. -/
def arcChain (center radii : Point ℝ) (start : ℝ) : List ℝ → List (Command ℝ)
  | [] => []
  | sweep :: rest =>
    arcCommand center radii start sweep :: arcChain center radii (start + sweep) rest

def arcCurve (center radii : Point ℝ) (start sweep : ℝ) : Set (Point ℝ) :=
  ellipsePoint center radii '' Set.uIcc start (start + sweep)

def chainCurve (center radii : Point ℝ) (start : ℝ) : List ℝ → Set (Point ℝ)
  | [] => ∅
  | sweep :: rest =>
    arcCurve center radii start sweep ∪ chainCurve center radii (start + sweep) rest

theorem uIcc_union_next (a h : ℝ) :
    Set.uIcc a (a + h) ∪ Set.uIcc (a + h) (a + h + h) = Set.uIcc a (a + h + h) := by
  rcases le_total 0 h with h0 | h0
  · rw [Set.uIcc_of_le (by linarith), Set.uIcc_of_le (by linarith), Set.uIcc_of_le (by linarith)]
    exact Set.Icc_union_Icc_eq_Icc (by linarith) (by linarith)
  · rw [Set.uIcc_of_ge (by linarith), Set.uIcc_of_ge (by linarith), Set.uIcc_of_ge (by linarith),
      Set.union_comm]
    exact Set.Icc_union_Icc_eq_Icc (by linarith) (by linarith)

/-- The sweeps that an arc is written with. -/
def cuts (sweep : ℝ) (pen target : Point ℝ) : List ℝ :=
  if needsHalves sweep pen target then [sweep / 2, sweep / 2] else [sweep]

theorem needsHalves_iff {sweep : ℝ} {pen target : Point ℝ} :
    needsHalves sweep pen target = true ↔
      360 ≤ |sweep| ∨ 180 < |sweep| ∧ pen.sameText target = true := by
  simp [needsHalves, Scalar.abs_real]

theorem cuts_length (sweep : ℝ) (pen target : Point ℝ) :
    (cuts sweep pen target).length = 1 ∨ (cuts sweep pen target).length = 2 := by
  unfold cuts
  split_ifs <;> simp

theorem cuts_sum (sweep : ℝ) (pen target : Point ℝ) : (cuts sweep pen target).sum = sweep := by
  unfold cuts
  split_ifs <;> simp

/-- Each piece is an arc of less than a full turn. -/
theorem cuts_short {sweep : ℝ} (h0 : sweep ≠ 0) (h : |sweep| ≤ 360) (pen target : Point ℝ) :
    ∀ w ∈ cuts sweep pen target, w ≠ 0 ∧ |w| < 360 := by
  intro w hw
  unfold cuts at hw
  split_ifs at hw with hs
  · obtain rfl : w = sweep / 2 := by simpa using hw
    refine ⟨by simpa using h0, ?_⟩
    rw [abs_div, abs_two]
    linarith
  · obtain rfl : w = sweep := by simpa using hw
    rw [needsHalves_iff, not_or] at hs
    exact ⟨h0, not_le.1 hs.1⟩

theorem chainCurve_cuts (center radii : Point ℝ) (start sweep : ℝ) (pen target : Point ℝ) :
    chainCurve center radii start (cuts sweep pen target) = arcCurve center radii start sweep := by
  unfold cuts
  split_ifs
  · simp only [chainCurve, Set.union_empty, arcCurve]
    rw [← Set.image_union, uIcc_union_next, add_assoc, add_halves]
  · simp only [chainCurve, Set.union_empty]

def arcCenter (pen radii : Point ℝ) (start : ℝ) : Point ℝ := pen - spoke radii start

def arcEnd (pen radii : Point ℝ) (start sweep : ℝ) : Point ℝ :=
  ellipsePoint (arcCenter pen radii start) radii (start + sweep)

theorem ellipsePoint_arcCenter (pen radii : Point ℝ) (start : ℝ) :
    ellipsePoint (arcCenter pen radii start) radii start = pen := by
  ext <;> simp [ellipsePoint_eq, arcCenter]

/-- Recovering the centre from a later point of the ellipse gives the same centre. -/
theorem arcCenter_ellipsePoint (center radii : Point ℝ) (deg : ℝ) :
    arcCenter (ellipsePoint center radii deg) radii deg = center := by
  ext <;> simp [ellipsePoint_eq, arcCenter]

theorem arcSegment_eq (pen radii : Point ℝ) (start sweep : ℝ) :
    arcSegment pen radii start sweep =
      ⟨arcEnd pen radii start sweep, arcCenter pen radii start, decide (180 < |sweep|),
        decide (0 < sweep)⟩ := by
  simp only [arcSegment, Scalar.abs_real, Scalar.zero_real]
  rfl

theorem Path.pushArc_eq (p : Path ℝ) (radii : Point ℝ) (start sweep : ℝ) :
    p.pushArc radii start sweep =
      ⟨p.commands ++ [arcCommand (arcCenter p.pen radii start) radii start sweep],
        arcEnd p.pen radii start sweep, p.start⟩ := by
  simp only [Path.pushArc, arcSegment_eq, Scalar.zero_real]
  rfl

theorem Path.arcTo_eq (p : Path ℝ) {radii : Point ℝ} {sweep : ℝ} (start : ℝ)
    (h : isDegenerate radii sweep = false) :
    p.arcTo radii start sweep =
      ⟨p.commands ++ arcChain (arcCenter p.pen radii start) radii start
          (cuts (drawnSweep sweep) p.pen (arcEnd p.pen radii start (drawnSweep sweep))),
        arcEnd p.pen radii start (drawnSweep sweep), p.start⟩ := by
  have hs : (arcSegment p.pen radii start (drawnSweep sweep)).target =
      arcEnd p.pen radii start (drawnSweep sweep) := by rw [arcSegment_eq]
  unfold Path.arcTo cuts
  rw [h, if_neg Bool.false_ne_true]
  change (if needsHalves (drawnSweep sweep) p.pen
      (arcSegment p.pen radii start (drawnSweep sweep)).target
    then (p.pushArc radii start (drawnSweep sweep / 2)).pushArc radii
      (start + drawnSweep sweep / 2) (drawnSweep sweep / 2)
    else p.pushArc radii start (drawnSweep sweep)) = _
  rw [hs]
  split_ifs
  · simp only [Path.pushArc_eq, arcEnd, arcCenter_ellipsePoint, add_assoc, add_halves,
      List.append_assoc]
    rfl
  · rw [Path.pushArc_eq]
    rfl

def Command.stretch (k : Point ℝ) : Command ℝ → Command ℝ
  | move p => move (p.stretch k)
  | line p => line (p.stretch k)
  | cubic a b p => cubic (a.stretch k) (b.stretch k) (p.stretch k)
  | quad a p => quad (a.stretch k) (p.stretch k)
  | arc radii rotation large sweep p => arc (radii.stretch k) rotation large sweep (p.stretch k)
  | close => close

theorem Tracing.pushArc_eq (r : Tracing ℝ) (radii : Point ℝ) (start sweep : ℝ) :
    r.pushArc radii start sweep =
      { r with
        out := ⟨r.out.commands ++
            [(arcCommand (arcCenter r.pen radii start) radii start sweep).stretch r.scale],
          (arcEnd r.pen radii start sweep).stretch r.scale, r.out.start⟩
        pen := arcEnd r.pen radii start sweep } := by
  simp only [Tracing.pushArc, arcSegment_eq, Scalar.zero_real]
  rfl

theorem Tracing.arcTo_eq (r : Tracing ℝ) {radii : Point ℝ} {sweep : ℝ} (start : ℝ)
    (h : isDegenerate radii sweep = false) :
    r.arcTo radii start sweep =
      { r with
        out := ⟨r.out.commands ++ (arcChain (arcCenter r.pen radii start) radii start
            (cuts (drawnSweep sweep) (r.pen.stretch r.scale)
              ((arcEnd r.pen radii start (drawnSweep sweep)).stretch r.scale))).map
                (Command.stretch r.scale),
          (arcEnd r.pen radii start (drawnSweep sweep)).stretch r.scale, r.out.start⟩
        pen := arcEnd r.pen radii start (drawnSweep sweep) } := by
  have hs : (arcSegment r.pen radii start (drawnSweep sweep)).target =
      arcEnd r.pen radii start (drawnSweep sweep) := by rw [arcSegment_eq]
  unfold Tracing.arcTo cuts
  rw [h, if_neg Bool.false_ne_true]
  change (if needsHalves (drawnSweep sweep) (r.pen.stretch r.scale)
      ((arcSegment r.pen radii start (drawnSweep sweep)).target.stretch r.scale)
    then (r.pushArc radii start (drawnSweep sweep / 2)).pushArc radii
      (start + drawnSweep sweep / 2) (drawnSweep sweep / 2)
    else r.pushArc radii start (drawnSweep sweep)) = _
  rw [hs]
  split_ifs
  · simp only [Tracing.pushArc_eq, arcEnd, arcCenter_ellipsePoint, add_assoc, add_halves,
      List.append_assoc]
    rfl
  · rw [Tracing.pushArc_eq]
    rfl

/-- Not a long arc that ends at a point written like `pen`. -/
def Command.NotLoop (pen : Point ℝ) : Command ℝ → Prop
  | arc _ _ large _ p =>
    large = true → ¬(numeral pen.x = numeral p.x ∧ numeral pen.y = numeral p.y)
  | _ => True

/-- None of the commands, drawn one after the other from `pen`, is a loop. -/
def NoLoops (pen start : Point ℝ) : List (Command ℝ) → Prop
  | [] => True
  | c :: cs => c.NotLoop pen ∧ NoLoops (c.pen start) (c.subpath start) cs

theorem sameText_iff {a b : Point ℝ} :
    a.sameText b = true ↔ numeral a.x = numeral b.x ∧ numeral a.y = numeral b.y := by
  simp [Point.sameText]

/-- Halves are short, and an arc that stays whole does not end where it starts. -/
theorem noLoops_cuts (k center radii pathStart : Point ℝ) (start : ℝ) {sweep : ℝ}
    (h : |sweep| ≤ 360) :
    let pen := (ellipsePoint center radii start).stretch k
    let target := (ellipsePoint center radii (start + sweep)).stretch k
    NoLoops pen pathStart
      ((arcChain center radii start (cuts sweep pen target)).map (Command.stretch k)) := by
  intro pen target
  unfold cuts
  split_ifs with hs
  · have hhalf : ¬ 180 < |sweep / 2| := by
      rw [abs_div, abs_two]
      linarith
    simp [arcChain, arcCommand, Command.stretch, NoLoops, Command.NotLoop, hhalf]
  · rw [needsHalves_iff, not_or, not_and, sameText_iff] at hs
    have hopen : (Command.stretch k (arcCommand center radii start sweep)).NotLoop pen :=
      fun hl => hs.2 (of_decide_eq_true hl)
    exact ⟨hopen, trivial⟩

/-- The commands draw, at scale `k`, the arc from `pen` in one or two pieces of the ellipse about
`center`. -/
structure InPieces (pen radii k center : Point ℝ) (start sweep : ℝ) (sweeps : List ℝ)
    (cs : List (Command ℝ)) : Prop where
  count : sweeps.length = 1 ∨ sweeps.length = 2
  sum : sweeps.sum = drawnSweep sweep
  short : ∀ w ∈ sweeps, w ≠ 0 ∧ |w| < 360
  origin : ellipsePoint center radii start = pen
  chain : cs = (arcChain center radii start sweeps).map (Command.stretch k)
  curve : chainCurve center radii start sweeps = arcCurve center radii start (drawnSweep sweep)

theorem inPieces_cuts {radii : Point ℝ} {sweep : ℝ} (h : isDegenerate radii sweep = false)
    (pen k p q : Point ℝ) (start : ℝ) :
    InPieces pen radii k (arcCenter pen radii start) start sweep (cuts (drawnSweep sweep) p q)
      ((arcChain (arcCenter pen radii start) radii start (cuts (drawnSweep sweep) p q)).map
        (Command.stretch k)) where
  count := cuts_length _ p q
  sum := cuts_sum _ p q
  short := cuts_short (drawnSweep_ne_zero (isDegenerate_eq_false.1 h).2) (abs_drawnSweep_le _) p q
  origin := ellipsePoint_arcCenter pen radii start
  chain := rfl
  curve := chainCurve_cuts _ radii start _ p q

def Point.one : Point ℝ := ⟨1, 1⟩

theorem Point.stretch_one (p : Point ℝ) : p.stretch one = p := by
  ext <;> simp [one]

theorem Command.map_stretch_one (cs : List (Command ℝ)) : cs.map (stretch .one) = cs := by
  have h : stretch Point.one = id := by
    funext c
    cases c <;> simp [stretch, Point.stretch_one]
  rw [h, List.map_id]

/-- An arc, whether it is pushed on a path or traced at a scale, is written in one or two pieces of
the ellipse that the whole arc runs on; the pen stops where the whole arc does, and no piece is a
loop. -/
theorem arcTo_inPieces (p : Path ℝ) (r : Tracing ℝ) (radii : Point ℝ) (start sweep : ℝ)
    (h : isDegenerate radii sweep = false) :
    (∃ sweeps cs,
      let whole := arcSegment p.pen radii start (drawnSweep sweep)
      p.arcTo radii start sweep = ⟨p.commands ++ cs, whole.target, p.start⟩ ∧
        InPieces p.pen radii .one whole.center start sweep sweeps cs ∧
        NoLoops p.pen p.start cs) ∧
    (∃ sweeps cs,
      let whole := arcSegment r.pen radii start (drawnSweep sweep)
      r.arcTo radii start sweep =
          { r with
            out := ⟨r.out.commands ++ cs, whole.target.stretch r.scale, r.out.start⟩
            pen := whole.target } ∧
        InPieces r.pen radii r.scale whole.center start sweep sweeps cs ∧
        NoLoops (r.pen.stretch r.scale) r.out.start cs) := by
  have hle := abs_drawnSweep_le sweep
  constructor
  · have hloop := noLoops_cuts .one (arcCenter p.pen radii start) radii p.start start hle
    have hpieces := inPieces_cuts h p.pen .one p.pen
      (arcEnd p.pen radii start (drawnSweep sweep)) start
    simp only [Command.map_stretch_one, Point.stretch_one, ellipsePoint_arcCenter] at hloop hpieces
    rw [Path.arcTo_eq p start h, arcSegment_eq]
    exact ⟨_, _, rfl, hpieces, hloop⟩
  · have hloop := noLoops_cuts r.scale (arcCenter r.pen radii start) radii r.out.start start hle
    rw [ellipsePoint_arcCenter] at hloop
    rw [Tracing.arcTo_eq r start h, arcSegment_eq]
    exact ⟨_, _, rfl, inPieces_cuts h r.pen r.scale _ _ start, hloop⟩

/-- More than a full turn, backwards, at a scale that flattens it. -/
theorem arcTo_inPieces_flat :
    isDegenerate (⟨50, 20⟩ : Point ℝ) (-400) = false ∧
    (let p : Path ℝ := Path.empty.push (.move ⟨100, 50⟩)
    let r : Tracing ℝ := Tracing.ofScale ⟨2, 0⟩
    let radii : Point ℝ := ⟨50, 20⟩
    (∃ sweeps cs,
      let whole := arcSegment p.pen radii 30 (drawnSweep (-400))
      p.arcTo radii 30 (-400) = ⟨p.commands ++ cs, whole.target, p.start⟩ ∧
        InPieces p.pen radii .one whole.center 30 (-400) sweeps cs ∧ NoLoops p.pen p.start cs) ∧
    (∃ sweeps cs,
      let whole := arcSegment r.pen radii 30 (drawnSweep (-400))
      r.arcTo radii 30 (-400) =
          { r with
            out := ⟨r.out.commands ++ cs, whole.target.stretch r.scale, r.out.start⟩
            pen := whole.target } ∧
        InPieces r.pen radii r.scale whole.center 30 (-400) sweeps cs ∧
        NoLoops (r.pen.stretch r.scale) r.out.start cs)) := by
  have h : isDegenerate (⟨50, 20⟩ : Point ℝ) (-400) = false :=
    isDegenerate_eq_false.2 ⟨⟨by norm_num, by norm_num⟩, by norm_num⟩
  exact ⟨h, arcTo_inPieces _ _ _ 30 (-400) h⟩

end
end ShapeOutline
