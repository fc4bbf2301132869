import ShapeOutline.Proofs.ArcPieces
import ShapeOutline.Proofs.Phase

/-! How far an arc reaches. On either axis the furthest point of an arc is one of
its ends or, if the arc runs through it, the point at the right angle where the
axis leaves the ellipse; the right angles that are tried are exactly those that
the arc runs through. -/

namespace ShapeOutline
noncomputable section

inductive Axis where
  | x
  | y

namespace Axis

/-- The coordinate of a point on an axis. -/
def of : Axis → Point ℝ → ℝ
  | x, p => p.x
  | y, p => p.y

/-- The visual angle of an axis, in quarter turns. -/
def quarters : Axis → ℤ
  | x => 0
  | y => 1

theorem of_greatest (a : Axis) (p q : Point ℝ) : a.of (p.greatest q) = max (a.of p) (a.of q) := by
  cases a with
  | x => exact Point.greatest_x p q
  | y => exact Point.greatest_y p q

theorem of_stretch (a : Axis) (p k : Point ℝ) : a.of (p.stretch k) = a.of p * a.of k := by
  cases a <;> rfl

theorem of_add (a : Axis) (p q : Point ℝ) : a.of (p + q) = a.of p + a.of q := by
  cases a <;> rfl

theorem of_pos (a : Axis) {p : Point ℝ} (h : p.Positive) : 0 < a.of p := by
  cases a with
  | x => exact h.1
  | y => exact h.2

end Axis

/-- A cosine between two angles is at most that of one of them, unless there is a whole number of
turns between. -/
theorem cos_le_or_turn {lo hi t : ℝ} (hlo : lo ≤ t) (hhi : t ≤ hi) :
    Real.cos t ≤ max (Real.cos lo) (Real.cos hi) ∨
      ∃ n : ℤ, lo ≤ n * (2 * Real.pi) ∧ n * (2 * Real.pi) ≤ hi := by
  have hpi : 0 < 2 * Real.pi := Real.two_pi_pos
  set n := ⌈lo / (2 * Real.pi)⌉
  have hle : lo ≤ n * (2 * Real.pi) := (div_le_iff₀ hpi).1 (Int.le_ceil _)
  have hlt : (n - 1) * (2 * Real.pi) < lo := by
    rw [← lt_div_iff₀ hpi]
    linarith [Int.ceil_lt_add_one (lo / (2 * Real.pi))]
  rcases le_or_gt (n * (2 * Real.pi)) hi with h | h
  · exact Or.inr ⟨n, hle, h⟩
  -- all angles lie within one turn from `m` turns on, where the cosine falls and then rises
  left
  set m : ℝ := (n - 1) * (2 * Real.pi)
  have hnext : m + 2 * Real.pi = n * (2 * Real.pi) := by simp only [m]; ring
  have hshift (u : ℝ) : Real.cos u = Real.cos (u - m) := by
    have hint : m = ((n - 1 : ℤ) : ℝ) * (2 * Real.pi) := by push_cast; rfl
    rw [hint, Real.cos_sub_int_mul_two_pi]
  rw [hshift t, hshift lo, hshift hi, le_max_iff]
  rcases le_total (t - m) Real.pi with hhalf | hhalf
  · left
    exact Real.cos_le_cos_of_nonneg_of_le_pi (by linarith) hhalf (by linarith)
  · right
    rw [← Real.cos_two_pi_sub, ← Real.cos_two_pi_sub (hi - m)]
    exact Real.cos_le_cos_of_nonneg_of_le_pi (by linarith) (by linarith) (by linarith)

variable {radii : Point ℝ}

/-- At a right angle the parametric angle is the visual one. -/
theorem phase_quarters (radii : Point ℝ) (m : ℤ) :
    phase radii (90 * m) = radians (90 * (m : ℝ)) := by
  have hprod : (bearing (90 * m)).x * (bearing (90 * m)).y = 0 := by
    have hangle : 2 * radians (90 * (m : ℝ)) = m * Real.pi := by rw [radians_real]; ring
    have hsin := Real.sin_two_mul (radians (90 * (m : ℝ)))
    rw [hangle, Real.sin_int_mul_pi] at hsin
    change Real.cos _ * Real.sin _ = 0
    linarith
  have hlead : phaseLead radii (90 * m) = 0 := by
    rw [phaseLead, mul_assoc, hprod, mul_zero, zero_div, Real.arctan_zero]
  rw [phase, hlead, add_zero]

theorem of_spoke (hr : radii.Positive) (a : Axis) (deg : ℝ) :
    a.of (spoke radii deg) =
      a.of radii * Real.cos (phase radii deg - a.quarters * (Real.pi / 2)) := by
  rw [spoke_phase hr]
  cases a with
  | x =>
    change radii.x * Real.cos _ = radii.x * Real.cos (_ - ((0 : ℤ) : ℝ) * _)
    rw [Int.cast_zero, zero_mul, sub_zero]
  | y =>
    change radii.y * Real.sin _ = radii.y * Real.cos (_ - ((1 : ℤ) : ℝ) * _)
    rw [Int.cast_one, one_mul, Real.cos_sub_pi_div_two]

/-- No point of an arc lies beyond both ends and beyond the right angles that the arc runs
through. -/
theorem spoke_le_end_or_quarter (hr : radii.Positive) (a : Axis) {lo hi deg : ℝ} (hlo : lo ≤ deg)
    (hhi : deg ≤ hi) :
    a.of (spoke radii deg) ≤ max (a.of (spoke radii lo)) (a.of (spoke radii hi)) ∨
      ∃ m : ℤ, lo ≤ 90 * m ∧ 90 * m ≤ hi ∧
        a.of (spoke radii deg) ≤ a.of (spoke radii (90 * m)) := by
  have hmono := phase_strictMono hr
  set β : ℝ := a.quarters * (Real.pi / 2)
  have hcos := cos_le_or_turn (sub_le_sub_right (hmono.monotone hlo) β)
    (sub_le_sub_right (hmono.monotone hhi) β)
  have hrad := a.of_pos hr
  rw [of_spoke hr, of_spoke hr, of_spoke hr, ← mul_max_of_nonneg _ _ hrad.le]
  rcases hcos with h | ⟨n, h1, h2⟩
  · exact Or.inl (mul_le_mul_of_nonneg_left h hrad.le)
  · right
    have hphase : phase radii (90 * ((4 * n + a.quarters : ℤ) : ℝ)) = n * (2 * Real.pi) + β := by
      rw [phase_quarters, radians_real]
      push_cast
      ring
    refine ⟨4 * n + a.quarters, ?_, ?_, ?_⟩
    · rw [← hmono.le_iff_le, hphase]
      linarith
    · rw [← hmono.le_iff_le, hphase]
      linarith
    · rw [of_spoke hr, hphase, add_sub_cancel_right, Real.cos_int_mul_two_pi]
      exact mul_le_mul_of_nonneg_left (Real.cos_le_one _) hrad.le

theorem mem_takeWhile_of_pairwise {l : List ℝ} {p : ℝ → Bool} {d : ℝ}
    (hl : l.Pairwise fun a b => p b = true → p a = true) (hd : d ∈ l) (hp : p d = true) :
    d ∈ l.takeWhile p := by
  induction l with
  | nil => cases hd
  | cons a rest ih =>
    rw [List.pairwise_cons] at hl
    rcases List.mem_cons.1 hd with rfl | hrest
    · rw [List.takeWhile_cons_of_pos hp]
      exact List.mem_cons_self
    · rw [List.takeWhile_cons_of_pos (hl.1 d hrest hp)]
      exact List.mem_cons_of_mem _ (ih hl.2 hrest)

theorem rightAngles_eq (lo hi : ℝ) :
    rightAngles lo hi =
      ((List.range 5).map fun k : ℕ => 90 * ((⌈lo / 90⌉ + k : ℤ) : ℝ)).takeWhile
        fun deg => !decide (hi < deg) := by
  have hmap : (fun k : ℕ => ((⌈lo / 90⌉ : ℝ) + k) * 90) =
      fun k : ℕ => 90 * ((⌈lo / 90⌉ + k : ℤ) : ℝ) := by
    funext k
    push_cast
    ring
  rw [← hmap]
  rfl

/-- An arc of at most a full turn runs through the right angles tried, and no others. -/
theorem mem_rightAngles {lo hi : ℝ} (h : hi ≤ lo + 360) (deg : ℝ) :
    deg ∈ rightAngles lo hi ↔ ∃ m : ℤ, deg = 90 * m ∧ lo ≤ deg ∧ deg ≤ hi := by
  have hceil : lo ≤ 90 * (⌈lo / 90⌉ : ℝ) := by
    linarith [Int.le_ceil (lo / 90)]
  rw [rightAngles_eq]
  constructor
  · intro hd
    have hle : deg ≤ hi := by simpa using List.mem_takeWhile_imp hd
    obtain ⟨k, -, rfl⟩ := List.mem_map.1 ((List.takeWhile_prefix _).subset hd)
    refine ⟨⌈lo / 90⌉ + k, rfl, ?_, hle⟩
    have hk : (0 : ℝ) ≤ k := k.cast_nonneg
    push_cast
    linarith
  · rintro ⟨m, rfl, hlo, hhi⟩
    apply mem_takeWhile_of_pairwise
    · rw [List.pairwise_map]
      refine List.pairwise_lt_range.imp fun {i j} hij hj => ?_
      have hij' : (i : ℝ) < j := Nat.cast_lt.2 hij
      simp only [Bool.not_eq_true', decide_eq_false_iff_not, not_lt] at hj ⊢
      push_cast at hj ⊢
      linarith
    · have hfirst : ⌈lo / 90⌉ ≤ m := Int.ceil_le.2 (by linarith)
      have hlast : m < ⌈lo / 90⌉ + 5 := by
        have hreal : (m : ℝ) < ⌈lo / 90⌉ + 5 := by linarith
        exact_mod_cast hreal
      refine List.mem_map.2 ⟨(m - ⌈lo / 90⌉).toNat, List.mem_range.2 (by omega), ?_⟩
      rw [Int.toNat_of_nonneg (by omega), add_sub_cancel]
    · simpa using hhi

theorem isLeast_insert_insert {β : Type} [LinearOrder β] {s : Set β} {x y z : β}
    (h : IsLeast (insert (min x y) s) z) : IsLeast (insert x (insert y s)) z := by
  obtain ⟨hmem, hle⟩ := h
  simp only [lowerBounds_insert, Set.mem_inter_iff, Set.mem_Iic, le_min_iff] at hle
  refine ⟨?_, by simpa [and_assoc] using hle⟩
  rcases hmem with rfl | hmem
  · rcases min_choice x y with hx | hy
    · exact .inl hx
    · exact .inr (.inl hy)
  · exact .inr (.inr hmem)

theorem isGreatest_insert_insert {β : Type} [LinearOrder β] {s : Set β} {x y z : β}
    (h : IsGreatest (insert (max x y) s) z) : IsGreatest (insert x (insert y s)) z :=
  isLeast_insert_insert (β := βᵒᵈ) h

theorem image_mem_cons {β γ : Type} (f : β → γ) (b : β) (bs : List β) :
    f '' {c | c ∈ b :: bs} = insert (f b) (f '' {c | c ∈ bs}) := by
  rw [← Set.image_insert_eq]
  simp [Set.insert_def]

theorem foldl_greatest {β : Type} (a : Axis) (f : β → Point ℝ) (bs : List β) (p : Point ℝ) :
    IsGreatest (insert (a.of p) ((fun b => a.of (f b)) '' {b | b ∈ bs}))
      (a.of (bs.foldl (fun reach b => reach.greatest (f b)) p)) := by
  induction bs generalizing p with
  | nil => simp
  | cons b rest ih =>
    have hrest := ih (p.greatest (f b))
    rw [a.of_greatest] at hrest
    rw [image_mem_cons]
    exact isGreatest_insert_insert hrest

theorem furthestOnArc_eq (pen radii : Point ℝ) (start sweep : ℝ) :
    furthestOnArc pen radii start sweep =
      (arcEnd pen radii start (drawnSweep sweep),
        (rightAngles (min start (start + drawnSweep sweep))
            (max start (start + drawnSweep sweep))).foldl
          (fun reach deg => reach.greatest (ellipsePoint (arcCenter pen radii start) radii deg))
          (pen.greatest (arcEnd pen radii start (drawnSweep sweep)))) := by
  rw [← Scalar.min_real, ← Scalar.max_real]
  change (let s := arcSegment pen radii start (drawnSweep sweep); (s.target, _)) = _
  rw [arcSegment_eq]
  rfl

theorem max_of_ends (f : ℝ → ℝ) (x y : ℝ) : max (f (min x y)) (f (max x y)) = max (f x) (f y) := by
  rcases le_total x y with h | h
  · rw [min_eq_left h, max_eq_right h]
  · rw [min_eq_right h, max_eq_left h, max_comm]

/-- The furthest coordinate of an arc is attained on it and never passed. -/
theorem furthestOnArc_isGreatest (hr : radii.Positive) (a : Axis) (pen : Point ℝ)
    (start sweep : ℝ) :
    IsGreatest (a.of '' arcCurve (arcCenter pen radii start) radii start (drawnSweep sweep))
      (a.of (furthestOnArc pen radii start sweep).2) := by
  rw [furthestOnArc_eq]
  set center := arcCenter pen radii start
  set stop := start + drawnSweep sweep
  set lo := min start stop
  set hi := max start stop
  have hspan : hi ≤ lo + 360 := by
    have habs : hi - lo = |stop - start| := by
      rw [abs_sub_comm, max_sub_min_eq_abs']
    have hle := abs_drawnSweep_le sweep
    rw [add_sub_cancel_left] at habs
    linarith
  have hpen : ellipsePoint center radii start = pen := ellipsePoint_arcCenter pen radii start
  have hof (deg : ℝ) :
      a.of (ellipsePoint center radii deg) = a.of center + a.of (spoke radii deg) :=
    a.of_add _ _
  change IsGreatest _ (a.of ((rightAngles lo hi).foldl
    (fun reach deg => reach.greatest (ellipsePoint center radii deg))
    (pen.greatest (ellipsePoint center radii stop))))
  obtain ⟨hmem, hub⟩ := foldl_greatest a (ellipsePoint center radii) (rightAngles lo hi)
    (pen.greatest (ellipsePoint center radii stop))
  rw [a.of_greatest] at hmem hub
  set reach := a.of ((rightAngles lo hi).foldl
    (fun reach deg => reach.greatest (ellipsePoint center radii deg))
    (pen.greatest (ellipsePoint center radii stop)))
  constructor
  · rcases hmem with h | ⟨d, hd, h⟩
    · rcases max_choice (a.of pen) (a.of (ellipsePoint center radii stop)) with hc | hc
      · exact ⟨pen, ⟨start, Set.left_mem_uIcc, hpen⟩, (h.trans hc).symm⟩
      · exact ⟨_, ⟨stop, Set.right_mem_uIcc, rfl⟩, (h.trans hc).symm⟩
    · obtain ⟨m, -, h1, h2⟩ := (mem_rightAngles hspan d).1 hd
      exact ⟨_, ⟨d, ⟨h1, h2⟩, rfl⟩, h⟩
  · have hends : max (a.of pen) (a.of (ellipsePoint center radii stop)) ≤ reach :=
      hub (Set.mem_insert _ _)
    have hquarter (d : ℝ) (hd : d ∈ rightAngles lo hi) :
        a.of (ellipsePoint center radii d) ≤ reach :=
      hub (Set.mem_insert_of_mem _ ⟨d, hd, rfl⟩)
    rintro v ⟨q, ⟨deg, ⟨hlo, hhi⟩, rfl⟩, rfl⟩
    rcases spoke_le_end_or_quarter hr a hlo hhi with h | ⟨m, h1, h2, h⟩
    · rw [max_of_ends fun d => a.of (spoke radii d)] at h
      rw [← hpen, hof, hof, max_add_add_left] at hends
      rw [hof]
      exact (add_le_add_right h _).trans hends
    · have hreach := hquarter _ ((mem_rightAngles hspan _).2 ⟨m, rfl, h1, h2⟩)
      rw [hof] at hreach ⊢
      exact (add_le_add_right h _).trans hreach

end
end ShapeOutline
