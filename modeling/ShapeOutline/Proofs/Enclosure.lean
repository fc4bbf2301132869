import Mathlib

/-! The region that a curve of the plane encloses. A set of points bounded by the
curve is enclosed; a point from which a ray leads away from the curve is not. -/

namespace ShapeOutline

/-- The plane that drawings lie in. -/
abbrev Plane := ℝ × ℝ

/-- The closed region within a curve: the points from which no connected set leads away to infinity
unless it meets the curve. -/
def enclosed (K : Set Plane) : Set Plane :=
  {p | ∀ C : Set Plane, IsPreconnected C → p ∈ C → ¬Bornology.IsBounded C → (C ∩ K).Nonempty}

variable {K L S : Set Plane}

theorem subset_enclosed (K : Set Plane) : K ⊆ enclosed K := fun p hp _ _ hC _ => ⟨p, hC, hp⟩

/-- A curve that runs within a region encloses nothing beyond it. -/
theorem enclosed_subset_enclosed (h : K ⊆ enclosed L) : enclosed K ⊆ enclosed L := by
  intro p hp C hC hpC hfar
  obtain ⟨q, hqC, hqK⟩ := hp C hC hpC hfar
  exact h hqK C hC hqC hfar

theorem enclosed_mono (h : K ⊆ L) : enclosed K ⊆ enclosed L :=
  enclosed_subset_enclosed (h.trans (subset_enclosed L))

/-- To leave a set is to cross its frontier. -/
theorem subset_enclosed_of_frontier (hS : Bornology.IsBounded S) (h : frontier S ⊆ K) :
    S ⊆ enclosed K := by
  intro p hp C hC hpC hfar
  by_contra hK
  have hmiss : ∀ q ∈ C, q ∉ frontier S := fun q hq hf => hK ⟨q, hq, h hf⟩
  have hp' : p ∈ interior S := by
    by_contra hi
    exact hmiss p hpC ⟨subset_closure hp, hi⟩
  have hcover : C ⊆ interior S ∪ (closure S)ᶜ := by
    intro q hq
    by_cases hc : q ∈ closure S
    · left
      by_contra hi
      exact hmiss q hq ⟨hc, hi⟩
    · exact Or.inr hc
  have hdisjoint : Disjoint (interior S) (closure S)ᶜ :=
    Set.disjoint_compl_right_iff_subset.2 interior_subset_closure
  have hin : C ⊆ interior S :=
    hC.subset_left_of_subset_union isOpen_interior isClosed_closure.isOpen_compl hdisjoint hcover
      ⟨p, hpC, hp'⟩
  exact hfar (hS.subset (hin.trans interior_subset))

/-- A closed set all of whose points are on the curve or have a neighbourhood in the set. -/
theorem subset_enclosed_of_mem_nhds (hS : Bornology.IsBounded S) (hclosed : IsClosed S)
    (h : ∀ p ∈ S, p ∉ K → S ∈ nhds p) : S ⊆ enclosed K := by
  refine subset_enclosed_of_frontier hS fun p hp => ?_
  by_contra hK
  have hmem : p ∈ S := hclosed.closure_eq ▸ hp.1
  exact hp.2 (mem_interior_iff_mem_nhds.2 (h p hmem hK))

/-- Near a point that is enclosed and not on the curve, all points are enclosed. -/
theorem mem_interior_enclosed (hK : IsClosed K) {p : Plane} (hp : p ∈ enclosed K) (hoff : p ∉ K) :
    p ∈ interior (enclosed K) := by
  obtain ⟨ε, hε, hball⟩ := Metric.isOpen_iff.1 hK.isOpen_compl p hoff
  have hcenter : p ∈ Metric.ball p ε := Metric.mem_ball_self hε
  refine mem_interior.2 ⟨Metric.ball p ε, fun q hq C hC hqC hfar => ?_, Metric.isOpen_ball, hcenter⟩
  -- what leads away from `q` leads away from `p` through the ball, which misses the curve
  have hthrough : IsPreconnected (Metric.ball p ε ∪ C) :=
    (convex_ball p ε).isPreconnected.union q hq hqC hC
  have hfar' : ¬Bornology.IsBounded (Metric.ball p ε ∪ C) :=
    fun h => hfar (h.subset Set.subset_union_right)
  obtain ⟨x, hx | hx, hxK⟩ := hp _ hthrough (.inl hcenter) hfar'
  · exact absurd hxK (hball hx)
  · exact ⟨x, hx, hxK⟩

def ray (p v : Plane) : Set Plane := (fun t : ℝ => p + t • v) '' Set.Ici 0

theorem ray_isPreconnected (p v : Plane) : IsPreconnected (ray p v) :=
  isPreconnected_Ici.image _ (by fun_prop)

theorem ray_not_isBounded (p : Plane) {v : Plane} (hv : v ≠ 0) :
    ¬Bornology.IsBounded (ray p v) := by
  rw [isBounded_iff_forall_norm_le]
  rintro ⟨B, hB⟩
  have hnorm : 0 < ‖v‖ := norm_pos_iff.2 hv
  have hB0 : 0 ≤ B := (norm_nonneg _).trans (hB p ⟨0, Set.self_mem_Ici, by simp⟩)
  set t := (B + ‖p‖ + 1) / ‖v‖
  have ht : 0 ≤ t := by positivity
  have hle := hB (p + t • v) ⟨t, ht, rfl⟩
  have hfar : ‖t • v‖ = B + ‖p‖ + 1 := by
    rw [norm_smul, Real.norm_of_nonneg ht, div_mul_cancel₀ _ hnorm.ne']
  have htriangle : ‖t • v‖ ≤ ‖p + t • v‖ + ‖p‖ := by
    simpa using norm_sub_le (p + t • v) p
  linarith

/-- A point from which a ray runs clear of a curve. -/
theorem not_mem_enclosed {p v : Plane} (hv : v ≠ 0) (h : ∀ t : ℝ, 0 ≤ t → p + t • v ∉ K) :
    p ∉ enclosed K := by
  intro hp
  obtain ⟨q, ⟨t, ht, rfl⟩, hqK⟩ :=
    hp (ray p v) (ray_isPreconnected p v) ⟨0, Set.self_mem_Ici, by simp⟩ (ray_not_isBounded p hv)
  exact h t ht hqK

/-- Whoever is outside of `S` stays outside in the direction `v`. -/
def Receding (S : Set Plane) (v : Plane) : Prop := ∀ p ∉ S, ∀ t : ℝ, 0 ≤ t → p + t • v ∉ S

theorem enclosed_subset_of_receding {v : Plane} (hv : v ≠ 0) (hK : K ⊆ S) (hS : Receding S v) :
    enclosed K ⊆ S := by
  intro p hp
  by_contra hpS
  exact not_mem_enclosed hv (fun t ht hq => hS p hpS t ht (hK hq)) hp

/-- From each point beyond a convex region a ray leads straight away from it. -/
theorem enclosed_subset_of_convex (hS : Convex ℝ S) (hK : K ⊆ S) (hne : S.Nonempty) :
    enclosed K ⊆ S := by
  intro p hp
  by_contra hpS
  obtain ⟨q, hq⟩ := hne
  have hv : p - q ≠ 0 := sub_ne_zero.2 fun h => hpS (h ▸ hq)
  refine not_mem_enclosed hv (fun t ht hmem => hpS ?_) hp
  -- the point lies between `q` and the one further along the ray
  have hpos : 0 < 1 + t := by positivity
  have hbetween := hS (hK hmem) hq (inv_nonneg.2 hpos.le) (mul_nonneg ht (inv_nonneg.2 hpos.le))
    (by field_simp)
  have hpoint : (1 + t)⁻¹ • (p + t • (p - q)) + (t * (1 + t)⁻¹) • q = p := by
    have hcancel : (1 + t)⁻¹ * (1 + t) = 1 := inv_mul_cancel₀ hpos.ne'
    calc (1 + t)⁻¹ • (p + t • (p - q)) + (t * (1 + t)⁻¹) • q
        = ((1 + t)⁻¹ * (1 + t)) • p := by module
      _ = p := by rw [hcancel, one_smul]
  rwa [hpoint] at hbetween

/-- Two curves on either side of a seam that no segment in the direction `v` runs along. -/
theorem disjoint_interior_of_receding {A B : Set Plane} {v : Plane} (hv : v ≠ 0) (hK : K ⊆ A)
    (hL : L ⊆ B) (hA : Receding A v) (hB : Receding B (-v))
    (hseam : ∀ p ∈ A ∩ B, ∀ t : ℝ, 0 < t → p + t • v ∉ A) :
    Disjoint (interior (enclosed K)) (interior (enclosed L)) := by
  rw [Set.disjoint_left]
  intro p hpK hpL
  have hA' := enclosed_subset_of_receding hv hK hA
  have hB' := enclosed_subset_of_receding (neg_ne_zero.2 hv) hL hB
  have hpB : p ∈ A ∩ B := ⟨hA' (interior_subset hpK), hB' (interior_subset hpL)⟩
  have hstep : Filter.Tendsto (fun t : ℝ => p + t • v) (nhdsWithin 0 (Set.Ioi 0)) (nhds p) := by
    have hcont : Continuous fun t : ℝ => p + t • v := by fun_prop
    simpa using (hcont.tendsto 0).mono_left nhdsWithin_le_nhds
  obtain ⟨t, htA, ht⟩ :=
    ((hstep.eventually (mem_interior_iff_mem_nhds.1 hpK)).and self_mem_nhdsWithin).exists
  exact hseam p hpB t ht (hA' htA)

section HalfPlane

variable {a b c : ℝ}

def halfPlane (a b c : ℝ) : Set Plane := {p | a * p.1 + b * p.2 ≤ c}

theorem mem_halfPlane {p : Plane} : p ∈ halfPlane a b c ↔ a * p.1 + b * p.2 ≤ c := Iff.rfl

theorem halfPlane_convex (a b c : ℝ) : Convex ℝ (halfPlane a b c) := by
  intro p hp q hq s t hs ht hst
  rw [mem_halfPlane] at hp hq ⊢
  simp only [Prod.fst_add, Prod.snd_add, Prod.smul_fst, Prod.smul_snd, smul_eq_mul]
  calc a * (s * p.1 + t * q.1) + b * (s * p.2 + t * q.2)
      = s * (a * p.1 + b * p.2) + t * (a * q.1 + b * q.2) := by ring
    _ ≤ s * c + t * c :=
      add_le_add (mul_le_mul_of_nonneg_left hp hs) (mul_le_mul_of_nonneg_left hq ht)
    _ = c := by rw [← add_mul, hst, one_mul]

/-- Its own normal leads further out. -/
theorem mem_halfPlane_add (p : Plane) (t : ℝ) :
    p + t • ((a, b) : Plane) ∈ halfPlane a b c ↔
      a * p.1 + b * p.2 + t * (a ^ 2 + b ^ 2) ≤ c := by
  rw [mem_halfPlane]
  simp only [Prod.fst_add, Prod.snd_add, Prod.smul_mk, smul_eq_mul]
  ring_nf

theorem halfPlane_receding (a b c : ℝ) : Receding (halfPlane a b c) (a, b) := by
  intro p hp t ht hle
  rw [mem_halfPlane_add] at hle
  exact hp (mem_halfPlane.2 (by nlinarith [mul_nonneg ht (add_nonneg (sq_nonneg a) (sq_nonneg b))]))

theorem direction_ne_zero (h : 0 < a ^ 2 + b ^ 2) : ((a, b) : Plane) ≠ 0 := by
  intro h0
  obtain ⟨rfl, rfl⟩ := Prod.mk_eq_zero.1 h0
  simp at h

theorem enclosed_subset_halfPlane (hab : 0 < a ^ 2 + b ^ 2) (hK : K ⊆ halfPlane a b c) :
    enclosed K ⊆ halfPlane a b c :=
  enclosed_subset_of_receding (direction_ne_zero hab) hK (halfPlane_receding a b c)

/-- Curves on either side of a line. -/
theorem disjoint_interior_of_line (hab : 0 < a ^ 2 + b ^ 2) (hK : K ⊆ halfPlane a b c)
    (hL : L ⊆ halfPlane (-a) (-b) (-c)) :
    Disjoint (interior (enclosed K)) (interior (enclosed L)) := by
  refine disjoint_interior_of_receding (direction_ne_zero hab) hK hL (halfPlane_receding a b c)
    (halfPlane_receding (-a) (-b) (-c)) ?_
  rintro p ⟨-, hp⟩ t ht hle
  rw [mem_halfPlane_add] at hle
  rw [mem_halfPlane] at hp
  linarith [mul_pos ht hab]

end HalfPlane

/-- What a curve encloses moves with it. -/
theorem mem_enclosed_image (φ : Plane ≃ᵢ Plane) {p : Plane} (h : p ∈ enclosed K) :
    φ p ∈ enclosed (φ '' K) := by
  intro C hC hpC hfar
  have hback : ¬Bornology.IsBounded (φ.symm '' C) := by
    intro hb
    have hC : φ '' (φ.symm '' C) = C := φ.toEquiv.image_symm_image C
    exact hfar (hC ▸ φ.isometry.lipschitz.isBounded_image hb)
  obtain ⟨q, ⟨r, hrC, rfl⟩, hqK⟩ :=
    h (φ.symm '' C) (hC.image _ φ.symm.continuous.continuousOn) ⟨φ p, hpC, φ.symm_apply_apply p⟩
      hback
  exact ⟨r, hrC, φ.symm r, hqK, φ.apply_symm_apply r⟩

end ShapeOutline
