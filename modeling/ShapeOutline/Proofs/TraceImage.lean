import ShapeOutline.Proofs.Mirror
import ShapeOutline.Proofs.TraceBounds

/-! The trace of a mapped sketch. A likeness that keeps to straight lines takes the
trace of a sketch to the trace of its image, and a reflection also what the trace
encloses. -/

namespace ShapeOutline
noncomputable section

section Affine

variable (φ : Plane →ᵃ[ℝ] Plane) (p a b q : Plane) (t : ℝ)

theorem quadPoint_eq :
    quadPoint p a q t =
      AffineMap.lineMap (AffineMap.lineMap p a t) (AffineMap.lineMap a q t) t := by
  simp only [quadPoint, AffineMap.lineMap_apply_module]
  module

theorem cubicPoint_eq :
    cubicPoint p a b q t = AffineMap.lineMap (quadPoint p a b t) (quadPoint a b q t) t := by
  simp only [cubicPoint, quadPoint, AffineMap.lineMap_apply_module]
  module

theorem map_quadPoint : φ (quadPoint p a q t) = quadPoint (φ p) (φ a) (φ q) t := by
  simp only [quadPoint_eq, AffineMap.apply_lineMap]

theorem map_cubicPoint : φ (cubicPoint p a b q t) = cubicPoint (φ p) (φ a) (φ b) (φ q) t := by
  simp only [cubicPoint_eq, quadPoint_eq, AffineMap.apply_lineMap]

end Affine

theorem arcCurve_eq_image (center radii : Point ℝ) (deg sweep : ℝ) :
    arcCurve center radii deg sweep =
      (fun u => ellipsePoint center radii (deg + u * sweep)) '' Set.Icc 0 1 := by
  rw [arcCurve, ← segment_eq_uIcc, segment_eq_image', Set.image_image]
  simp only [add_sub_cancel_left, smul_eq_mul]

section Images

variable (m : Likeness)

theorem Likeness.turn_mul (u sweep : ℝ) : m.turn (u * sweep) = u * m.turn sweep := by
  unfold turn turned
  split_ifs <;> ring

theorem Likeness.arcCurve_image {r : Point ℝ} (hr : r.Positive) (center : Point ℝ)
    (deg sweep : ℝ) :
    arcCurve (m.point center) (m.radii r) (m.angle deg) (m.turn sweep) =
      m.point '' arcCurve center r deg sweep := by
  rw [arcCurve_eq_image, arcCurve_eq_image, Set.image_image]
  refine Set.image_congr fun u _ => ?_
  rw [← m.turn_mul, turn, ← m.angle_add, m.point_ellipsePoint hr]

def Trail.image (t : Trail) : Trail := ⟨m.point t.pen, m.point t.start⟩

theorem Trail.after_image (t : Trail) (s : Stroke ℝ) :
    (t.image m).after (.stroke (m.stroke s)) = (t.after (.stroke s)).image m := by
  cases s with
  | arc r deg sweep =>
    have himage := m.isDegenerate_image r sweep
    cases hd : isDegenerate r sweep with
    | true =>
      simp only [Likeness.stroke, after, himage.trans hd, hd, if_true]
    | false =>
      have hr := (isDegenerate_eq_false.1 hd).1
      simp only [Likeness.stroke, after, image, himage.trans hd, hd, Bool.false_eq_true, if_false,
        m.turn_drawnSweep, m.point_arcEnd hr]
  | _ => rfl

variable {m} {φ : Plane →ᵃ[ℝ] Plane} (hφ : ∀ p, (m.point p).place = φ p.place)

include hφ

theorem Trail.drawn_image (t : Trail) (s : Stroke ℝ) :
    (t.image m).drawn (m.stroke s) = φ '' t.drawn s := by
  cases s with
  | move p | line p | close => simp only [Likeness.stroke, drawn, image, hφ, image_segment]
  | cubic a b p =>
    simp only [Likeness.stroke, drawn, image, hφ, Set.image_image, map_cubicPoint]
  | quad a p =>
    simp only [Likeness.stroke, drawn, image, hφ, Set.image_image, map_quadPoint]
  | arc r deg sweep =>
    have himage := m.isDegenerate_image r sweep
    cases hd : isDegenerate r sweep with
    | true =>
      simp only [Likeness.stroke, drawn, curve, himage.trans hd, hd, if_true, Set.image_empty]
    | false =>
      have hr := (isDegenerate_eq_false.1 hd).1
      simp only [Likeness.stroke, drawn, curve, image, himage.trans hd, hd, Bool.false_eq_true,
        if_false, m.turn_drawnSweep, m.point_arcCenter hr, m.arcCurve_image hr, Set.image_image, hφ]

theorem Trail.trace_image (s : Sketch ℝ) (t : Trail) :
    (t.image m).trace (s.map m.stroke) = φ '' t.trace s := by
  induction s generalizing t with
  | nil =>
    change segment ℝ (m.point t.pen).place (m.point t.start).place = φ '' segment ℝ _ _
    rw [image_segment, hφ, hφ]
  | cons a rest ih =>
    change (t.image m).drawn (m.stroke a) ∪
      ((t.image m).after (.stroke (m.stroke a))).trace (rest.map m.stroke) = φ '' (_ ∪ _)
    rw [Set.image_union, drawn_image hφ, after_image, ih]

/-- The image of a sketch runs through the image of its trace. -/
theorem Sketch.trace_image (s : Sketch ℝ) : Sketch.trace (s.map m.stroke) = φ '' s.trace := by
  cases s with
  | nil => exact (Set.image_empty φ).symm
  | cons a rest =>
    cases a with
    | move p => exact Trail.trace_image hφ rest ⟨p, p⟩
    | _ => exact (Set.image_empty φ).symm

end Images

namespace Reflection

variable (t : Reflection ℝ)

theorem flip_flip (extent : Option ℝ) (v : ℝ) : flip extent (flip extent v) = v := by
  cases extent with
  | none => rfl
  | some e => exact sub_sub_cancel e v

theorem dist_flip (extent : Option ℝ) (v v' : ℝ) :
    dist (flip extent v) (flip extent v') = dist v v' := by
  cases extent with
  | none => rfl
  | some e => exact dist_sub_left e v v'

/-- The reflection of the plane. -/
def plane : Plane ≃ᵢ Plane :=
  IsometryEquiv.mk' (fun p => (t.point ⟨p.1, p.2⟩).place)
    (fun q =>
      if t.swap then (flip t.flipY q.2, flip t.flipX q.1) else (flip t.flipX q.1, flip t.flipY q.2))
    (fun q => by
      unfold point Point.place
      split_ifs <;> ext <;> simp [flip_flip])
    (Isometry.of_dist_eq fun p q => by
      unfold point Point.place
      split_ifs <;> simp [Prod.dist_eq, dist_flip, max_comm])

end Reflection

variable (s : Sketch ℝ) (t : Reflection ℝ)

theorem Sketch.reflect_trace : (s.reflect t).trace = t.plane '' s.trace := by
  have h := Sketch.trace_image (m := t.likeness)
    (φ := t.plane.toRealAffineIsometryEquiv.toAffineEquiv.toAffineMap) (fun p => rfl) s
  rw [t.likeness_stroke] at h
  exact h

/-- What a reflected sketch encloses is reflected. -/
theorem Sketch.reflect_enclosed :
    enclosed (s.reflect t).trace = t.plane '' enclosed s.trace := by
  rw [Sketch.reflect_trace]
  refine Set.Subset.antisymm (fun p hp => ?_) ?_
  · have h := mem_enclosed_image t.plane.symm hp
    rw [Set.image_image] at h
    simp only [IsometryEquiv.symm_apply_apply, Set.image_id'] at h
    exact ⟨_, h, t.plane.apply_symm_apply p⟩
  · rintro _ ⟨p, hp, rfl⟩
    exact mem_enclosed_image t.plane hp

end
end ShapeOutline
