import ShapeOutline.Proofs.Trail

/-! Custom geometry without a declared size fits its target. The extent that is
measured is, on each axis, the greatest coordinate of everything drawn, or zero;
so the scale brings the furthest point exactly to the far side of the target. -/

namespace ShapeOutline
noncomputable section

/-- The end point and the control points that a command writes. -/
def Command.marks : Command ℝ → Set (Point ℝ)
  | move p => {p}
  | line p => {p}
  | cubic a b p => {a, b, p}
  | quad a p => {a, p}
  | arc _ _ _ _ p => {p}
  | close => ∅

/-- The points that several commands write. -/
def marksOf (cs : List (Command ℝ)) : Set (Point ℝ) := {q | ∃ c ∈ cs, q ∈ c.marks}

theorem marksOf_singleton (c : Command ℝ) : marksOf [c] = c.marks := by
  simp [marksOf]

theorem marksOf_append (cs ds : List (Command ℝ)) :
    marksOf (cs ++ ds) = marksOf cs ∪ marksOf ds := by
  ext q
  simp only [marksOf, List.mem_append, Set.mem_union, Set.mem_ofPred_eq, or_and_right, exists_or]

theorem isGreatest_insert_union {x y z : ℝ} {s u : Set ℝ} (h : IsGreatest (insert x s) y)
    (h' : IsGreatest (insert y u) z) : IsGreatest (insert x (s ∪ u)) z := by
  constructor
  · rcases h'.1 with rfl | hz
    · exact Set.insert_subset_insert Set.subset_union_left h.1
    · exact Or.inr (Or.inr hz)
  · rintro v (rfl | hv | hv)
    · exact (h.2 (Set.mem_insert _ _)).trans (h'.2 (Set.mem_insert _ _))
    · exact (h.2 (Set.mem_insert_of_mem _ hv)).trans (h'.2 (Set.mem_insert _ _))
    · exact h'.2 (Set.mem_insert_of_mem _ hv)

theorem Extent.apply_isGreatest (e : Extent ℝ) (c : Authored ℝ) (a : Axis) :
    IsGreatest (insert (a.of e.reach) (a.of '' e.trail.points c)) (a.of (e.apply c).reach) := by
  have hone {s : Set ℝ} {q : Point ℝ} (h : IsGreatest s (a.of q)) :
      IsGreatest (insert (a.of e.reach) s) (a.of (e.reach.greatest q)) := by
    rw [a.of_greatest]
    exact h.insert _
  have hstay : IsGreatest (insert (a.of e.reach) (a.of '' ∅)) (a.of e.reach) := by simp
  cases c with
  | unknown word => exact hstay
  | stroke s =>
    cases s with
    | move p => exact hone (by simp [Trail.points])
    | line p => exact hone (by simp [Trail.points])
    | quad b p =>
      apply hone
      rw [Trail.points, Set.image_pair, a.of_greatest]
      exact isGreatest_pair
    | cubic b d p =>
      apply hone
      rw [Trail.points, Set.image_insert_eq, Set.image_pair, a.of_greatest, a.of_greatest,
        max_assoc]
      exact isGreatest_pair.insert _
    | close => exact hstay
    | arc radii start sweep =>
      cases h : isDegenerate radii sweep with
      | true =>
        rw [Extent.apply_arc_degenerate e start h]
        simp [Trail.points, Trail.curve, h]
      | false =>
        rw [Extent.apply_arc e start h]
        simp only [Trail.points, Trail.curve, h, Bool.false_eq_true, if_false]
        exact hone (furthestOnArc_isGreatest (isDegenerate_eq_false.1 h).1 a e.pen start sweep)

theorem Extent.foldl_isGreatest (cs : List (Authored ℝ)) (e : Extent ℝ) (a : Axis) :
    IsGreatest (insert (a.of e.reach) (a.of '' e.trail.gather Trail.points cs))
      (a.of (cs.foldl Extent.apply e).reach) := by
  induction cs generalizing e with
  | nil => simp [Trail.gather, Trail.steps]
  | cons c rest ih =>
    have hrest := ih (e.apply c)
    rw [Extent.apply_trail] at hrest
    rw [Trail.gather_cons, Set.image_union]
    exact isGreatest_insert_union (e.apply_isGreatest c a) hrest

theorem marksOf_chain_subset (center radii k : Point ℝ) (start : ℝ) (sweeps : List ℝ) :
    marksOf ((arcChain center radii start sweeps).map (Command.stretch k)) ⊆
      (·.stretch k) '' chainCurve center radii start sweeps := by
  induction sweeps generalizing start with
  | nil => simp [arcChain, marksOf]
  | cons w rest ih =>
    rintro q ⟨c, hc, hq⟩
    rw [arcChain, List.map_cons, List.mem_cons] at hc
    rcases hc with rfl | hc
    · refine ⟨_, Or.inl ⟨start + w, Set.right_mem_uIcc, rfl⟩, ?_⟩
      exact (Set.mem_singleton_iff.1 hq).symm
    · obtain ⟨b, hb, rfl⟩ := ih (start + w) ⟨c, hc, hq⟩
      exact ⟨b, Or.inr hb, rfl⟩

/-- What is written for a command, along with its arc, is the scaled image of its points. -/
theorem Trail.marksOf_written (t : Trail) (k : Point ℝ) (c : Authored ℝ) :
    marksOf (t.written k c) ∪ (·.stretch k) '' t.curve c = (·.stretch k) '' t.points c := by
  have hone (d : Command ℝ) (s : Set (Point ℝ)) (h : d.marks = (·.stretch k) '' s) :
      marksOf [d] ∪ (fun q : Point ℝ => q.stretch k) '' ∅ = (·.stretch k) '' s := by
    rw [marksOf_singleton, h, Set.image_empty, Set.union_empty]
  have hnone : marksOf [] ∪ (fun q : Point ℝ => q.stretch k) '' ∅ =
      (fun q : Point ℝ => q.stretch k) '' ∅ := by
    simp [marksOf]
  cases c with
  | unknown word => exact hnone
  | stroke s =>
    cases s with
    | move p => exact hone _ {p} (by rw [Set.image_singleton]; rfl)
    | line p => exact hone _ {p} (by rw [Set.image_singleton]; rfl)
    | quad b p => exact hone _ {b, p} (by rw [Set.image_pair]; rfl)
    | cubic b d p => exact hone _ {b, d, p} (by rw [Set.image_insert_eq, Set.image_pair]; rfl)
    | close => exact hone _ ∅ (Set.image_empty _).symm
    | arc radii start sweep =>
      cases h : isDegenerate radii sweep with
      | true => simpa [Trail.written, Trail.points, Trail.curve, h] using hnone
      | false =>
        simp only [Trail.written, Trail.points, Trail.curve, h, Bool.false_eq_true, if_false]
        apply Set.union_eq_self_of_subset_left
        refine (marksOf_chain_subset _ _ _ _ _).trans ?_
        rw [chainCurve_cuts]

theorem Trail.marksOf_steps (t : Trail) (k : Point ℝ) (cs : List (Authored ℝ)) :
    marksOf ((t.steps cs).flatMap fun s => s.1.written k s.2) ∪ (·.stretch k) '' t.gather curve cs =
      (·.stretch k) '' t.gather points cs := by
  induction cs generalizing t with
  | nil => simp [gather, steps, marksOf]
  | cons c rest ih =>
    rw [steps, List.flatMap_cons, marksOf_append, gather_cons, gather_cons, Set.image_union,
      Set.image_union, Set.union_union_union_comm, marksOf_written, ih]

theorem dimensionOrZero_nonneg (v : ℝ) : 0 ≤ dimensionOrZero v := by
  rw [dimensionOrZero_real]
  split_ifs with h
  · exact le_rfl
  · exact not_lt.1 h

theorem fit_real (target source : ℝ) :
    fit target source = if 0 < source then target / source else 1 := by
  unfold fit
  rw [Scalar.zero_real, Scalar.one_real]

namespace CustomPath

/-- The sides of the target. -/
def target (w h : ℝ) : Point ℝ := ⟨dimensionOrZero w, dimensionOrZero h⟩

theorem target_nonneg (w h : ℝ) (a : Axis) : 0 ≤ a.of (target w h) := by
  cases a with
  | x => exact dimensionOrZero_nonneg w
  | y => exact dimensionOrZero_nonneg h

theorem scale_inferred (cs : List (Authored ℝ)) (w h : ℝ) (a : Axis) :
    let p : CustomPath ℝ := { commands := cs }
    a.of (p.scale w h none) =
      if 0 < a.of p.reached then a.of (target w h) / a.of p.reached else 1 := by
  intro p
  cases a with
  | x => exact fit_real _ p.reached.x
  | y => exact fit_real _ p.reached.y

/-- What the extent is inferred from is all that is authored, and the origin. -/
theorem reached_isGreatest (p : CustomPath ℝ) (a : Axis) :
    IsGreatest (insert 0 (a.of '' Trail.origin.gather Trail.points p.commands))
      (a.of p.reached) := by
  have h0 : a.of (Extent.initial : Extent ℝ).reach = 0 := by cases a <;> exact Scalar.zero_real
  have htrail : (Extent.initial : Extent ℝ).trail = Trail.origin := rfl
  have hfold := Extent.foldl_isGreatest p.commands Extent.initial a
  rwa [h0, htrail] at hfold

/-- What is drawn is the scaled image of what is authored. -/
theorem resolve_drawn (p : CustomPath ℝ) (w h : ℝ) (hint : Option (Point ℝ)) :
    marksOf (p.resolve w h hint).commands ∪
        (·.stretch (p.scale w h hint)) '' Trail.origin.gather Trail.curve p.commands =
      (·.stretch (p.scale w h hint)) '' Trail.origin.gather Trail.points p.commands := by
  rw [resolve_commands, Trail.marksOf_steps]

/-- Of custom geometry without a declared size, on each axis the extent is the greatest coordinate
of all that is authored or zero. What is drawn is the scaled image of it, whose greatest coordinate
is the side of the target; without an extent it is left as it is. -/
theorem resolve_fits (cs : List (Authored ℝ)) (w h : ℝ) (a : Axis) :
    let p : CustomPath ℝ := { commands := cs }
    let k := p.scale w h none
    let authored := Trail.origin.gather Trail.points cs
    let commands := (p.resolve w h none).commands
    let drawn := marksOf commands ∪ (·.stretch k) '' Trail.origin.gather Trail.curve cs
    commands = ((Trail.origin.steps cs).flatMap fun s => s.1.written k s.2) ∧
      IsGreatest (insert 0 (a.of '' authored)) (a.of p.reached) ∧
      drawn = (·.stretch k) '' authored ∧
      (0 < a.of p.reached → IsGreatest (a.of '' drawn) (a.of (target w h))) ∧
      (a.of p.reached = 0 → a.of k = 1 ∧ ∀ q ∈ drawn, a.of q ≤ 0) := by
  intro p k authored commands drawn
  have hreach : IsGreatest (insert 0 (a.of '' authored)) (a.of p.reached) :=
    p.reached_isGreatest a
  have hdrawn : drawn = (·.stretch k) '' authored := p.resolve_drawn w h none
  have hk : a.of k = if 0 < a.of p.reached then a.of (target w h) / a.of p.reached else 1 :=
    scale_inferred cs w h a
  have himage : a.of '' drawn = (· * a.of k) '' (a.of '' authored) := by
    simp only [hdrawn, Set.image_image, a.of_stretch]
  refine ⟨p.resolve_commands w h none, hreach, hdrawn, fun hpos => ?_, fun hzero => ?_⟩
  · rw [if_pos hpos] at hk
    have hside : a.of p.reached * a.of k = a.of (target w h) := by
      rw [hk, mul_div_cancel₀ _ hpos.ne']
    have hk0 : 0 ≤ a.of k := by
      rw [hk]
      exact div_nonneg (target_nonneg w h a) hpos.le
    rw [himage, ← hside]
    constructor
    · exact Set.mem_image_of_mem _ (hreach.1.resolve_left hpos.ne')
    · rintro v ⟨u, hu, rfl⟩
      exact mul_le_mul_of_nonneg_right (hreach.2 (Set.mem_insert_of_mem _ hu)) hk0
  · rw [hzero, if_neg (lt_irrefl 0)] at hk
    refine ⟨hk, fun q hq => ?_⟩
    obtain ⟨u, hu, hqu⟩ : a.of q ∈ (· * a.of k) '' (a.of '' authored) :=
      himage ▸ Set.mem_image_of_mem a.of hq
    have hsame : u = a.of q := by
      rw [← hqu, hk]
      exact (mul_one u).symm
    rw [← hsame, ← hzero]
    exact hreach.2 (Set.mem_insert_of_mem _ hu)

end CustomPath

end
end ShapeOutline
