import ShapeOutline.Proofs.DiagramFit

/-! Boxes of nested groups. Mapping a box from one space to another carries all of its
points by one map, which scales and shifts each axis by itself. Such maps compose and
have inverses, so a box that is handed from space to space comes to lie where the map
from the first space to the last one takes it, however many there are in between. -/

namespace ShapeOutline
noncomputable section

namespace Box

/-- A box with an extent on both axes, of either sign. -/
def HasArea (b : Box ℝ) : Prop := b.extent.x ≠ 0 ∧ b.extent.y ≠ 0

theorem HasArea.of {b : Box ℝ} (h : b.HasArea) (a : Axis) : a.of b.extent ≠ 0 := by
  cases a with
  | x => exact h.1
  | y => exact h.2

theorem eq_of_corners {b c : Box ℝ} (hoffset : b.offset = c.offset) (hfar : b.far = c.far) :
    b = c := by
  obtain ⟨p, e⟩ := b
  obtain ⟨q, d⟩ := c
  obtain rfl : p = q := hoffset
  congr 1
  refine Axis.ext fun a => ?_
  have ha := congrArg a.of hfar
  rw [of_far, of_far] at ha
  exact add_left_cancel ha

/-- The factor of each axis from `space` to `parent`. -/
def ratio (space parent : Box ℝ) : Point ℝ :=
  ⟨parent.extent.x / space.extent.x, parent.extent.y / space.extent.y⟩

/-- Where a point of `space` comes to lie in `parent`. -/
def carry (space parent : Box ℝ) (p : Point ℝ) : Point ℝ :=
  (p - space.offset).stretch (space.ratio parent) + parent.offset

theorem of_ratio (a : Axis) (space parent : Box ℝ) :
    a.of (space.ratio parent) = a.of parent.extent / a.of space.extent := by
  cases a <;> rfl

theorem of_carry (a : Axis) (space parent : Box ℝ) (p : Point ℝ) :
    a.of (space.carry parent p) =
      (a.of p - a.of space.offset) * (a.of parent.extent / a.of space.extent) +
        a.of parent.offset := by
  rw [carry, a.of_add, a.of_stretch, a.of_sub, of_ratio]

variable {A B C : Box ℝ}

theorem carry_carry (hB : B.HasArea) (p : Point ℝ) : B.carry C (A.carry B p) = A.carry C p := by
  refine Axis.ext fun a => ?_
  have hne := hB.of a
  have hratio : a.of B.extent / a.of A.extent * (a.of C.extent / a.of B.extent) =
      a.of C.extent / a.of A.extent := by
    rw [mul_comm, div_mul_div_cancel₀ hne]
  rw [of_carry, of_carry, of_carry, add_sub_cancel_right, mul_assoc, hratio]

theorem carry_self (hA : A.HasArea) (p : Point ℝ) : A.carry A p = p := by
  refine Axis.ext fun a => ?_
  rw [of_carry, div_self (hA.of a), mul_one, sub_add_cancel]

theorem carry_offset (A B : Box ℝ) : A.carry B A.offset = B.offset := by
  refine Axis.ext fun a => ?_
  rw [of_carry, sub_self, zero_mul, zero_add]

theorem carry_far (hA : A.HasArea) : A.carry B A.far = B.far := by
  refine Axis.ext fun a => ?_
  rw [of_carry, of_far, of_far, add_sub_cancel_left, mul_div_cancel₀ _ (hA.of a), add_comm]

theorem remap_of_flat {space : Box ℝ} (h : space.extent.x = 0 ∨ space.extent.y = 0)
    (c parent : Box ℝ) : c.remap space parent = c := by
  unfold remap
  exact if_pos (by simpa [Scalar.beq_real] using h)

theorem remap_of_hasArea (hA : A.HasArea) (c B : Box ℝ) :
    c.remap A B = ⟨A.carry B c.offset, c.extent.stretch (A.ratio B)⟩ := by
  unfold remap
  rw [if_neg (by simpa [Scalar.beq_real, HasArea] using hA)]
  rfl

theorem offset_remap (hA : A.HasArea) (c B : Box ℝ) :
    (c.remap A B).offset = A.carry B c.offset := by
  rw [remap_of_hasArea hA]

theorem far_remap (hA : A.HasArea) (c B : Box ℝ) : (c.remap A B).far = A.carry B c.far := by
  refine Axis.ext fun a => ?_
  rw [remap_of_hasArea hA, of_far, of_carry, of_carry, of_far, a.of_stretch, of_ratio]
  ring

theorem remap_remap (hA : A.HasArea) (hB : B.HasArea) (c C : Box ℝ) :
    (c.remap A B).remap B C = c.remap A C := by
  apply eq_of_corners
  · rw [offset_remap hB, offset_remap hA, offset_remap hA, carry_carry hB]
  · rw [far_remap hB, far_remap hA, far_remap hA, carry_carry hB]

theorem remap_self (hA : A.HasArea) (c : Box ℝ) : c.remap A A = c := by
  apply eq_of_corners
  · rw [offset_remap hA, carry_self hA]
  · rw [far_remap hA, carry_self hA]

/-- A space itself becomes the box that it is mapped into. -/
theorem remap_space (hA : A.HasArea) (B : Box ℝ) : A.remap A B = B := by
  apply eq_of_corners
  · rw [offset_remap hA, carry_offset]
  · rw [far_remap hA, carry_far hA]

/-- A point lies in a box as its image lies in the image of the box. -/
theorem carry_mem_region_iff (hA : A.HasArea) (hB : B.HasArea) (c : Box ℝ) (p : Point ℝ) :
    A.carry B p ∈ (c.remap A B).region ↔ p ∈ c.region := by
  rw [mem_region_iff, mem_region_iff]
  refine forall_congr' fun a => ?_
  have hk : 0 < |a.of B.extent / a.of A.extent| := abs_pos.2 (div_ne_zero (hB.of a) (hA.of a))
  have hextent : a.of (c.remap A B).extent = a.of c.extent * (a.of B.extent / a.of A.extent) := by
    rw [remap_of_hasArea hA, a.of_stretch, of_ratio]
  have hcenter : a.of (A.carry B p) - a.of (c.remap A B).center =
      (a.of p - a.of c.center) * (a.of B.extent / a.of A.extent) := by
    rw [of_center, hextent, offset_remap hA, of_carry, of_carry, of_center]
    ring
  rw [hcenter, hextent, abs_mul, abs_mul, mul_div_right_comm, mul_le_mul_iff_left₀ hk]

theorem region_subset_iff (hA : A.HasArea) (hB : B.HasArea) (c : Box ℝ) :
    c.region ⊆ A.region ↔ (c.remap A B).region ⊆ B.region := by
  have hspace (p : Point ℝ) : A.carry B p ∈ B.region ↔ p ∈ A.region := by
    rw [← carry_mem_region_iff hA hB A p, remap_space hA]
  constructor
  · intro h q hq
    -- every point is the image of one, which the inverse map finds
    rw [← carry_self hB q, ← carry_carry hA q] at hq ⊢
    exact (hspace _).2 (h ((carry_mem_region_iff hA hB c _).1 hq))
  · intro h p hp
    exact (hspace p).1 (h ((carry_mem_region_iff hA hB c p).2 hp))

/-- The box after it was handed on from `space` to each of the others in turn. -/
def descend (c space : Box ℝ) : List (Box ℝ) → Box ℝ
  | [] => c
  | next :: rest => (c.remap space next).descend next rest

theorem descend_append (hA : A.HasArea) {spaces : List (Box ℝ)} (h : ∀ s ∈ spaces, s.HasArea)
    (c last : Box ℝ) : c.descend A (spaces ++ [last]) = c.remap A last := by
  induction spaces generalizing c A with
  | nil => rfl
  | cons s rest ih =>
    obtain ⟨hs, hrest⟩ := List.forall_mem_cons.1 h
    rw [List.cons_append, descend, ih hs hrest, remap_remap hA hs]

/-- Boxes that are mapped from space to space are mapped from the first to the last, and back they
are what they were. Both corners of a box, like all of its points, are carried by one map, which
takes a space to its image and keeps what lies within where it lies. A space that is flat carries
nothing. -/
theorem nested_remaps_compose (hA : A.HasArea) (hB : B.HasArea) (c C : Box ℝ) :
    (c.remap A B).remap B C = c.remap A C ∧
      (∀ spaces : List (Box ℝ), (∀ s ∈ spaces, s.HasArea) →
        c.descend A (spaces ++ [C]) = c.remap A C) ∧
      c.remap A A = c ∧
      (c.remap A B).remap B A = c ∧
      A.remap A B = B ∧
      ((c.remap A B).offset = A.carry B c.offset ∧ (c.remap A B).far = A.carry B c.far) ∧
      (c.region ⊆ A.region ↔ (c.remap A B).region ⊆ B.region) ∧
      ∀ flat : Box ℝ, flat.extent.x = 0 ∨ flat.extent.y = 0 → c.remap flat B = c := by
  refine ⟨remap_remap hA hB c C, fun spaces h => descend_append hA h c C, remap_self hA c, ?_,
    remap_space hA B, ⟨offset_remap hA c B, far_remap hA c B⟩, region_subset_iff hA hB c,
    fun flat h => remap_of_flat h c B⟩
  rw [remap_remap hA hB, remap_self hA]

/-- A space that runs upwards, a parent that runs to the left, and one without a height. -/
theorem nested_remaps_compose_mirrored :
    let c : Box ℝ := ⟨⟨0, 100⟩, ⟨50, -100⟩⟩
    let A : Box ℝ := ⟨⟨-50, 0⟩, ⟨100, -200⟩⟩
    let B : Box ℝ := ⟨⟨8, -4⟩, ⟨-400, 400⟩⟩
    let C : Box ℝ := ⟨⟨1, 2⟩, ⟨-3, 0⟩⟩
    A.HasArea ∧ B.HasArea ∧ (c.remap A B).remap B C = c.remap A C ∧
      (c.remap A B).remap B A = c ∧ c.remap C B = c := by
  intro c A B C
  have hA : A.HasArea := by constructor <;> norm_num [A]
  have hB : B.HasArea := by constructor <;> norm_num [B]
  obtain ⟨hcompose, -, -, hback, -, -, -, hflat⟩ := nested_remaps_compose hA hB c C
  exact ⟨hA, hB, hcompose, hback, hflat C (.inr (by norm_num [C]))⟩

end Box

end
end ShapeOutline
