import ShapeOutline.Proofs.Trail

/-! The pass that measures custom geometry, the one that draws it and the path
that is drawn keep three pens. After every command they stand at one point, the
path's pen at its scaled image, and their sub-paths begin at one point. -/

namespace ShapeOutline
noncomputable section

/-- The drawing `r` at scale `k` has its pens where the measurement `e` has its own. -/
structure InStep (k : Point ℝ) (e : Extent ℝ) (r : Tracing ℝ) : Prop where
  scale : r.scale = k
  pen : r.pen = e.pen
  start : r.start = e.start
  outPen : r.out.pen = e.pen.stretch k
  outStart : r.out.start = e.start.stretch k

variable {k : Point ℝ} {e : Extent ℝ} {r : Tracing ℝ}

theorem InStep.initial (k : Point ℝ) : InStep k .initial (.ofScale k) := by
  have hzero : (Point.zero : Point ℝ).stretch k = .zero := by
    ext <;> simp [Point.zero]
  exact ⟨rfl, rfl, rfl, hzero.symm, hzero.symm⟩

theorem InStep.arcTo (h : InStep k e r) (radii : Point ℝ) (start sweep : ℝ) :
    InStep k (e.apply (.stroke (.arc radii start sweep))) (r.arcTo radii start sweep) := by
  cases hd : isDegenerate radii sweep with
  | true =>
    rw [Extent.apply_arc_degenerate e start hd, Tracing.arcTo_degenerate r start hd]
    exact h
  | false =>
    -- however many pieces are written, the pen stops where the whole arc does
    rw [Extent.apply_arc e start hd, Tracing.arcTo_eq r start hd]
    have hend : (arcEnd r.pen radii start (drawnSweep sweep)).stretch r.scale =
        (arcEnd e.pen radii start (drawnSweep sweep)).stretch k := by rw [h.pen, h.scale]
    exact ⟨h.scale, by rw [h.pen], h.start, hend, h.outStart⟩

/-- Every command keeps the pens in step. -/
theorem InStep.apply (h : InStep k e r) (c : Authored ℝ) : InStep k (e.apply c) (r.apply c) := by
  have htarget (p : Point ℝ) : r.target p = p.stretch k := by rw [← h.scale]; rfl
  cases c with
  | unknown word => exact h
  | stroke s =>
    cases s with
    | move p => exact ⟨h.scale, rfl, rfl, htarget p, htarget p⟩
    | line p => exact ⟨h.scale, rfl, h.start, htarget p, h.outStart⟩
    | cubic a b p => exact ⟨h.scale, rfl, h.start, htarget p, h.outStart⟩
    | quad a p => exact ⟨h.scale, rfl, h.start, htarget p, h.outStart⟩
    | arc radii start sweep => exact h.arcTo radii start sweep
    | close => exact ⟨h.scale, h.start, h.start, h.outStart, h.outStart⟩

theorem InStep.foldl (h : InStep k e r) (cs : List (Authored ℝ)) :
    InStep k (cs.foldl Extent.apply e) (cs.foldl Tracing.apply r) := by
  induction cs generalizing e r with
  | nil => exact h
  | cons c rest ih => exact ih (h.apply c)

theorem Extent.foldl_trail (cs : List (Authored ℝ)) (e : Extent ℝ) :
    (cs.foldl Extent.apply e).trail = cs.foldl Trail.after e.trail := by
  induction cs generalizing e with
  | nil => rfl
  | cons c rest ih => rw [List.foldl_cons, ih, Extent.apply_trail, List.foldl_cons]

/-- After any number of commands the pass that measures them, the one that draws them at any scale
and the path it has drawn agree on the pen and on the start of the sub-path, which are where the
trail of the commands leads; and an arc that draws nothing moves none of them. -/
theorem interpreters_inStep (cs : List (Authored ℝ)) (k : Point ℝ) (n : ℕ) :
    let measured := (cs.take n).foldl Extent.apply .initial
    let traced := (cs.take n).foldl Tracing.apply (.ofScale k)
    let trail := (cs.take n).foldl Trail.after .origin
    measured.trail = trail ∧ traced.trail = trail ∧
      traced.out.pen = trail.pen.stretch k ∧ traced.out.start = trail.start.stretch k ∧
      ∀ (radii : Point ℝ) (start sweep : ℝ), isDegenerate radii sweep = true →
        measured.apply (.stroke (.arc radii start sweep)) = measured ∧
        traced.apply (.stroke (.arc radii start sweep)) = traced := by
  intro measured traced trail
  have hstep : InStep k measured traced := (InStep.initial k).foldl (cs.take n)
  have hmeasured : measured.trail = trail := Extent.foldl_trail (cs.take n) .initial
  have htraced : traced.trail = measured.trail := by
    unfold Tracing.trail Extent.trail
    rw [hstep.pen, hstep.start]
  refine ⟨hmeasured, htraced.trans hmeasured, ?_, ?_, fun radii start sweep hd => ⟨?_, ?_⟩⟩
  · rw [hstep.outPen, ← hmeasured]
    rfl
  · rw [hstep.outStart, ← hmeasured]
    rfl
  · exact Extent.apply_arc_degenerate measured start hd
  · exact Tracing.arcTo_degenerate traced start hd

end
end ShapeOutline
