import Mathlib
import ShapeOutline.Custom
import ShapeOutline.Proofs.Factor

/-! The unit that custom geometry is authored in. Geometry whose lengths are all
multiplied by one factor measures as many times as much, so the scale it is drawn
at takes the factor out again, and every command writes what it wrote before. -/

namespace ShapeOutline
noncomputable section

namespace Factor

instance : SMul Factor (Authored ℝ) where
  smul k
    | .stroke s => .stroke (k • s)
    | .unknown word => .unknown word

/-- The declared size is authored in the unit of the commands. -/
@[simps] instance customPath : SMul Factor (CustomPath ℝ) where
  smul k p := ⟨k • p.width, k • p.height, k • p.commands⟩

instance : SMul Factor (Extent ℝ) := ⟨fun k e => ⟨k • e.pen, k • e.start, k • e.reach⟩⟩

variable (k : Factor)

section Measured

variable (p q radii : Point ℝ) (start sweep : ℝ)

@[simp] theorem greatest_smul : (k • p).greatest (k • q) = k • p.greatest q :=
  Point.ext (k.max_smul p.x q.x) (k.max_smul p.y q.y)

@[simp] theorem smul_zero_point : k • (.zero : Point ℝ) = .zero := by
  ext <;> simp [Point.zero]

@[simp] theorem isDegenerate_smul : isDegenerate (k • radii) sweep = isDegenerate radii sweep := by
  simp [isDegenerate]

@[simp] theorem arcSegment_smul :
    arcSegment (k • p) (k • radii) start sweep =
      { arcSegment p radii start sweep with
        target := k • (arcSegment p radii start sweep).target
        center := k • (arcSegment p radii start sweep).center } := by
  simp [arcSegment]

theorem furthestOnArc_smul :
    furthestOnArc (k • p) (k • radii) start sweep =
      (k • (furthestOnArc p radii start sweep).1, k • (furthestOnArc p radii start sweep).2) := by
  simp only [furthestOnArc, arcSegment_smul, greatest_smul, ellipsePoint_smul,
    Scalar.isFinite_real, Bool.not_true, Bool.false_eq_true, if_false]
  rw [List.foldl_hom (k • ·) (fun reach deg => k.greatest_smul reach _)]

theorem goTo_smul (e : Extent ℝ) : (k • e).goTo (k • p) (k • q) = k • e.goTo p q := by
  change (⟨k • p, k • e.start, (k • e.reach).greatest (k • q)⟩ : Extent ℝ) = _
  rw [greatest_smul]
  rfl

end Measured

theorem extent_apply_smul (e : Extent ℝ) (c : Authored ℝ) :
    (k • e).apply (k • c) = k • e.apply c := by
  cases c with
  | unknown word => rfl
  | stroke s =>
    cases s with
    | move a => exact k.goTo_smul a a { e with start := a }
    | line a => exact k.goTo_smul a a e
    | cubic a b c =>
      change (k • e).goTo (k • c) (((k • a).greatest (k • b)).greatest (k • c)) = _
      rw [greatest_smul, greatest_smul, goTo_smul]
      rfl
    | quad a b =>
      change (k • e).goTo (k • b) ((k • a).greatest (k • b)) = _
      rw [greatest_smul, goTo_smul]
      rfl
    | close => rfl
    | arc radii start sweep =>
      change (if isDegenerate (k • radii) sweep then k • e else
        (k • e).goTo (furthestOnArc (k • e.pen) (k • radii) start sweep).1
          (furthestOnArc (k • e.pen) (k • radii) start sweep).2) = k • if isDegenerate radii sweep
            then e else e.goTo (furthestOnArc e.pen radii start sweep).1
              (furthestOnArc e.pen radii start sweep).2
      rw [isDegenerate_smul, furthestOnArc_smul, goTo_smul]
      split_ifs <;> rfl

theorem reached_smul (p : CustomPath ℝ) : (k • p).reached = k • p.reached := by
  have hinitial : k • (Extent.initial : Extent ℝ) = .initial := by
    change (⟨k • .zero, k • .zero, k • .zero⟩ : Extent ℝ) = _
    rw [smul_zero_point]
    rfl
  change ((p.commands.map (k • ·)).foldl Extent.apply .initial).reach = _
  rw [List.foldl_map, ← hinitial, List.foldl_hom (k • ·) k.extent_apply_smul]
  rfl

theorem validSize?_smul (size : Option ℝ) :
    CustomPath.validSize? (k • size) = k • CustomPath.validSize? size := by
  cases size with
  | none => rfl
  | some v => by_cases hv : 0 < v <;> simp [CustomPath.validSize?, Option.filter, hv]

theorem axisExtent_smul (declared hinted : Option ℝ) (inferred : ℝ) :
    CustomPath.axisExtent (k • declared) (k • hinted) (k • inferred) =
      k • CustomPath.axisExtent declared hinted inferred := by
  rw [CustomPath.axisExtent, validSize?_smul, validSize?_smul, CustomPath.axisExtent]
  cases CustomPath.validSize? declared <;> cases CustomPath.validSize? hinted <;> rfl

theorem extent_smul (p : CustomPath ℝ) (hint : Option (Point ℝ)) :
    (k • p).extent (k • hint) = k • p.extent hint := by
  have hhint (f : Point ℝ → ℝ) (hf : ∀ q, f (k • q) = k • f q) :
      (k • hint).map f = k • hint.map f := by
    cases hint with
    | none => rfl
    | some q => exact congrArg some (hf q)
  unfold CustomPath.extent
  rw [reached_smul, hhint _ k.smul_x, hhint _ k.smul_y]
  exact Point.ext (k.axisExtent_smul _ _ _) (k.axisExtent_smul _ _ _)

/-- The scale takes out of a coordinate the factor that it put into the extent. -/
theorem smul_mul_fit (v target : ℝ) {source : ℝ} (h : 0 < source) :
    k • v * fit target (k • source) = v * fit target source := by
  have hk : k.val ≠ 0 := k.pos.ne'
  simp only [fit, Scalar.zero_real, smul_pos, h, if_true]
  rw [smul_def, smul_def]
  field_simp

theorem stretch_scale_smul (p : CustomPath ℝ) (w h : ℝ) (hint : Option (Point ℝ))
    (hpos : (p.extent hint).Positive) (q : Point ℝ) :
    (k • q).stretch ((k • p).scale w h (k • hint)) = q.stretch (p.scale w h hint) := by
  unfold CustomPath.scale
  rw [extent_smul]
  exact Point.ext (k.smul_mul_fit q.x _ hpos.1) (k.smul_mul_fit q.y _ hpos.2)

end Factor

/-- `r` and `s` have drawn the same, `s` from coordinates that are `k` times as large. -/
structure Rescaled (k : Factor) (r s : Tracing ℝ) : Prop where
  out : s.out = r.out
  pen : s.pen = k • r.pen
  start : s.start = k • r.start
  target : ∀ q, s.target (k • q) = r.target q

namespace Rescaled

variable {k : Factor} {r s : Tracing ℝ}

theorem pushArc (h : Rescaled k r s) (radii : Point ℝ) (start sweep : ℝ) :
    Rescaled k (r.pushArc radii start sweep) (s.pushArc (k • radii) start sweep) := by
  refine ⟨?_, ?_, h.start, h.target⟩
  · change s.out.push (.arc (s.target (k • radii)) _ _ _ _) = _
    rw [h.out, h.pen, k.arcSegment_smul, h.target, h.target]
    rfl
  · change (arcSegment s.pen (k • radii) start sweep).target = _
    rw [h.pen, k.arcSegment_smul]
    rfl

/-- The same arcs are left out, and the same ones are written in halves. -/
theorem arcTo (h : Rescaled k r s) (radii : Point ℝ) (start sweep : ℝ) :
    Rescaled k (r.arcTo radii start sweep) (s.arcTo (k • radii) start sweep) := by
  have hhalves (sweep : ℝ) :
      needsHalves sweep (s.target s.pen)
          (s.target (arcSegment s.pen (k • radii) start sweep).target) =
        needsHalves sweep (r.target r.pen)
          (r.target (arcSegment r.pen radii start sweep).target) := by
    rw [h.pen, k.arcSegment_smul, h.target, h.target]
  simp only [Tracing.arcTo, k.isDegenerate_smul, hhalves]
  split_ifs
  · exact h
  · exact (h.pushArc radii start _).pushArc radii _ _
  · exact h.pushArc radii start _

/-- Every command writes the same. -/
theorem apply (h : Rescaled k r s) (c : Authored ℝ) : Rescaled k (r.apply c) (s.apply (k • c)) := by
  have hpush {c d : Command ℝ} (hcd : c = d) : s.out.push c = r.out.push d := by rw [h.out, hcd]
  cases c with
  | unknown word => exact h
  | stroke a =>
    cases a with
    | move p => exact ⟨hpush (congrArg Command.move (h.target p)), rfl, rfl, h.target⟩
    | line p => exact ⟨hpush (congrArg Command.line (h.target p)), rfl, h.start, h.target⟩
    | cubic a b p =>
      have hcubic : Command.cubic (s.target (k • a)) (s.target (k • b)) (s.target (k • p)) =
          .cubic (r.target a) (r.target b) (r.target p) := by rw [h.target, h.target, h.target]
      exact ⟨hpush hcubic, rfl, h.start, h.target⟩
    | quad a p =>
      have hquad : Command.quad (s.target (k • a)) (s.target (k • p)) =
          .quad (r.target a) (r.target p) := by rw [h.target, h.target]
      exact ⟨hpush hquad, rfl, h.start, h.target⟩
    | arc radii start sweep => exact h.arcTo radii start sweep
    | close => exact ⟨hpush rfl, h.start, h.start, h.target⟩

theorem foldl (h : Rescaled k r s) (cs : List (Authored ℝ)) :
    Rescaled k (cs.foldl Tracing.apply r) ((k • cs).foldl Tracing.apply s) := by
  induction cs generalizing r s with
  | nil => exact h
  | cons c rest ih => exact ih (h.apply c)

end Rescaled

/-- Custom geometry with an extent on both axes is drawn alike in every unit: with all coordinates
and radii, the declared size and the hint multiplied by `k`, each of its commands writes the same,
be it one arc, two halves or nothing, and so the text is the same. -/
theorem resolve_rescaled (p : CustomPath ℝ) (w h : ℝ) (hint : Option (Point ℝ)) (k : Factor)
    (hpos : 0 < (p.extent hint).x ∧ 0 < (p.extent hint).y) :
    let q := k • p
    q.extent (k • hint) = k • p.extent hint ∧
      (∀ n, ((q.commands.take n).foldl Tracing.apply (.ofScale (q.scale w h (k • hint)))).out =
        ((p.commands.take n).foldl Tracing.apply (.ofScale (p.scale w h hint))).out) ∧
      q.resolve w h (k • hint) = p.resolve w h hint ∧
      (q.resolve w h (k • hint)).text = (p.resolve w h hint).text := by
  intro q
  have hinitial : Rescaled k (.ofScale (p.scale w h hint)) (.ofScale (q.scale w h (k • hint))) :=
    ⟨rfl, k.smul_zero_point.symm, k.smul_zero_point.symm, k.stretch_scale_smul p w h hint hpos⟩
  have hresolve : q.resolve w h (k • hint) = p.resolve w h hint := (hinitial.foldl p.commands).out
  refine ⟨k.extent_smul p hint, fun n => ?_, hresolve, congrArg Path.text hresolve⟩
  have htake : q.commands.take n = k • p.commands.take n := List.map_take.symm
  rw [htake]
  exact (hinitial.foldl (p.commands.take n)).out

/-- A full turn and an arc without height, the width declared and the height hinted. -/
theorem resolve_rescaled_circle :
    let p : CustomPath ℝ :=
      { width := some 20
        commands := [.stroke (.move ⟨0, 5⟩), .stroke (.arc ⟨5, 5⟩ 180 360),
          .stroke (.arc ⟨5, 0⟩ 0 90), .unknown "relLnTo", .stroke .close] }
    let hint : Option (Point ℝ) := some ⟨-1, 10⟩
    let k : Factor := ⟨3, by norm_num⟩
    (0 < (p.extent hint).x ∧ 0 < (p.extent hint).y) ∧
      ((k • p).resolve 100 50 (k • hint)).text = (p.resolve 100 50 hint).text := by
  intro p hint k
  have hvalid (v : ℝ) (hv : 0 < v) : CustomPath.validSize? (some v) = some v :=
    CustomPath.validSize?_eq_some_iff.2 ⟨rfl, rfl, by simpa using hv⟩
  have hpos : 0 < (p.extent hint).x ∧ 0 < (p.extent hint).y := by
    have hx : CustomPath.validSize? p.width = some 20 := hvalid 20 (by norm_num)
    have hy : CustomPath.validSize? (hint.map Point.y) = some 10 := hvalid 10 (by norm_num)
    simp only [CustomPath.extent, CustomPath.axisExtent, hx, hy]
    constructor <;> simp [p, CustomPath.validSize?]
  exact ⟨hpos, (resolve_rescaled p 100 50 hint k hpos).2.2.2⟩

end
end ShapeOutline
