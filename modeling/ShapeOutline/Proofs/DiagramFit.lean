import Mathlib
import ShapeOutline.Diagram
import ShapeOutline.Proofs.ArcReach

/-! Where the shapes of a circular diagram come to lie. The space derived for them is
the smallest box of the frame's proportions about their bounding box, so the map that
takes it to the frame scales both axes alike, keeps every shape inside of the frame
and centres them there, between two opposite sides. -/

namespace ShapeOutline
noncomputable section

namespace Axis

theorem ext {p q : Point ℝ} (h : ∀ a : Axis, a.of p = a.of q) : p = q := Point.ext (h x) (h y)

theorem of_least (a : Axis) (p q : Point ℝ) : a.of (p.least q) = min (a.of p) (a.of q) := by
  cases a with
  | x => exact Scalar.min_real p.x q.x
  | y => exact Scalar.min_real p.y q.y

theorem of_sub (a : Axis) (p q : Point ℝ) : a.of (p - q) = a.of p - a.of q := by
  cases a <;> rfl

theorem of_mul (a : Axis) (p : Point ℝ) (k : ℝ) : a.of (p * k) = a.of p * k := by
  cases a <;> rfl

theorem of_div (a : Axis) (p : Point ℝ) (k : ℝ) : a.of (p / k) = a.of p / k := by
  cases a <;> rfl

end Axis

namespace Box

/-- The points of a box, whichever way its extents run. -/
def region (b : Box ℝ) : Set (Point ℝ) :=
  {p | ∀ a : Axis, a.of p ∈ Set.uIcc (a.of b.offset) (a.of b.far)}

def center (b : Box ℝ) : Point ℝ := b.offset + b.extent / (2 : ℝ)

/-- The corner that a box begins at is no further out than the sentinels of empty bounds. -/
def Finite (b : Box ℝ) : Prop := ∀ a : Axis, |a.of b.offset| ≤ Scalar.largest

/-- Width and height are those of `frame`, up to a common factor. -/
def Proportioned (b : Box ℝ) (frame : Box ℝ) : Prop :=
  b.extent.x * frame.extent.y = b.extent.y * frame.extent.x

theorem of_far (a : Axis) (b : Box ℝ) : a.of b.far = a.of b.offset + a.of b.extent := a.of_add _ _

theorem of_center (a : Axis) (b : Box ℝ) : a.of b.center = a.of b.offset + a.of b.extent / 2 := by
  rw [center, a.of_add, a.of_div]

/-- A box reaches half of its extents from its centre. -/
theorem mem_region_iff {b : Box ℝ} {p : Point ℝ} :
    p ∈ b.region ↔ ∀ a : Axis, |a.of p - a.of b.center| ≤ |a.of b.extent| / 2 := by
  refine forall_congr' fun a => ?_
  rw [of_center, of_far, abs_le]
  rcases le_total 0 (a.of b.extent) with h | h
  · rw [Set.uIcc_of_le (by linarith), Set.mem_Icc, abs_of_nonneg h]
    constructor <;> rintro ⟨h1, h2⟩ <;> constructor <;> linarith
  · rw [Set.uIcc_of_ge (by linarith), Set.mem_Icc, abs_of_nonpos h]
    constructor <;> rintro ⟨h1, h2⟩ <;> constructor <;> linarith

theorem offset_mem_region (b : Box ℝ) : b.offset ∈ b.region := fun _ => Set.left_mem_uIcc

theorem far_mem_region (b : Box ℝ) : b.far ∈ b.region := fun _ => Set.right_mem_uIcc

end Box

theorem Box.Proportioned.exists_ratio {b frame : Box ℝ} (h : b.Proportioned frame)
    (hframe : frame.extent.Positive) : ∃ c, ∀ a : Axis, a.of b.extent = a.of frame.extent * c := by
  refine ⟨b.extent.x / frame.extent.x, fun a => ?_⟩
  have hx := hframe.1.ne'
  cases a with
  | x => exact (mul_div_cancel₀ b.extent.x hx).symm
  | y =>
    change b.extent.y = frame.extent.y * (b.extent.x / frame.extent.x)
    rw [← mul_div_assoc, eq_div_iff hx, ← h, mul_comm]

/-- The corners of several boxes, two of each. -/
def corners (bs : List (Box ℝ)) : List (Point ℝ) := bs.flatMap fun b => [b.offset, b.far]

theorem mem_corners {bs : List (Box ℝ)} {p : Point ℝ} :
    p ∈ corners bs ↔ ∃ b ∈ bs, p = b.offset ∨ p = b.far := by
  simp [corners]

/-- The box `t` is the tight one about the points. -/
structure Bounding (ps : List (Point ℝ)) (t : Box ℝ) : Prop where
  least : ∀ a : Axis, IsLeast (a.of '' {p | p ∈ ps}) (a.of t.offset)
  greatest : ∀ a : Axis, IsGreatest (a.of '' {p | p ∈ ps}) (a.of t.far)

/-- A sentinel that some element is no less than changes nothing. -/
theorem isLeast_of_insert {β : Type} [LinearOrder β] {s : Set β} {sentinel x z : β}
    (h : IsLeast (insert sentinel s) z) (hx : x ∈ s) (hle : x ≤ sentinel) : IsLeast s z := by
  obtain ⟨hmem, hlower⟩ := h
  refine ⟨?_, fun v hv => hlower (.inr hv)⟩
  rcases hmem with rfl | hmem
  · rwa [le_antisymm (hlower (.inr hx)) hle]
  · exact hmem

theorem isGreatest_of_insert {β : Type} [LinearOrder β] {s : Set β} {sentinel x z : β}
    (h : IsGreatest (insert sentinel s) z) (hx : x ∈ s) (hle : sentinel ≤ x) : IsGreatest s z :=
  isLeast_of_insert (β := βᵒᵈ) h hx hle

namespace Bounds

theorem foldl_addBox (bs : List (Box ℝ)) (b : Bounds ℝ) :
    bs.foldl addBox b = (corners bs).foldl addPoint b := by
  rw [corners, List.foldl_flatMap]
  rfl

theorem foldl_addPoint_isLeast (ps : List (Point ℝ)) (b : Bounds ℝ) (a : Axis) :
    IsLeast (insert (a.of b.least) (a.of '' {p | p ∈ ps})) (a.of (ps.foldl addPoint b).least) := by
  induction ps generalizing b with
  | nil => simp
  | cons p rest ih =>
    have hrest := ih (b.addPoint p)
    rw [addPoint, a.of_least] at hrest
    rw [image_mem_cons]
    exact isLeast_insert_insert hrest

theorem foldl_addPoint_isGreatest (ps : List (Point ℝ)) (b : Bounds ℝ) (a : Axis) :
    IsGreatest (insert (a.of b.greatest) (a.of '' {p | p ∈ ps}))
      (a.of (ps.foldl addPoint b).greatest) := by
  have hfold : ps.foldl (fun reach p => reach.greatest (id p)) b.greatest =
      (ps.foldl addPoint b).greatest := List.foldl_hom greatest fun _ _ => rfl
  rw [← hfold]
  exact foldl_greatest a id ps b.greatest

theorem two_pow_le_ofNat {k m n : ℕ} (hkm : k ≤ m) (hmn : m < n) :
    (2 : ℝ) ^ k ≤ Scalar.ofNat (Nat.pow 2 n - Nat.pow 2 m) := by
  have hle : 2 ^ k + 2 ^ m ≤ 2 ^ n := calc
    2 ^ k + 2 ^ m ≤ 2 ^ m + 2 ^ m := Nat.add_le_add_right (Nat.pow_le_pow_right Nat.two_pos hkm) _
    _ = 2 ^ (m + 1) := by rw [Nat.pow_succ, Nat.mul_two]
    _ ≤ 2 ^ n := Nat.pow_le_pow_right Nat.two_pos hmn
  rw [← Nat.cast_ofNat, ← Nat.cast_pow]
  exact Nat.cast_le.2 (Nat.le_sub_of_add_le hle)

theorem two_pow_le_largest {k : ℕ} (h : k ≤ 971) : (2 : ℝ) ^ k ≤ Scalar.largest := by
  unfold Scalar.largest
  -- as numerals the exponents would be evaluated
  generalize hm : 971 = m at h ⊢
  generalize hn : 1024 = n
  exact two_pow_le_ofNat h (by omega)

theorem largest_pos : 0 < (Scalar.largest : ℝ) :=
  (pow_pos two_pos 0).trans_le (two_pow_le_largest (Nat.zero_le _))

theorem of_empty_least (a : Axis) : a.of (empty : Bounds ℝ).least = Scalar.largest := by
  cases a <;> rfl

theorem of_empty_greatest (a : Axis) : a.of (empty : Bounds ℝ).greatest = -Scalar.largest := by
  cases a <;> rfl

theorem box?_eq_some {b : Bounds ℝ} {t : Box ℝ} (h : b.box? = some t) :
    b.least.x ≤ b.greatest.x ∧ t.offset = b.least ∧ t.far = b.greatest := by
  unfold box? at h
  split at h
  · exact nomatch h
  · rename_i hempty
    obtain rfl := Option.some.inj h
    simp only [isEmpty, Bool.or_eq_true, decide_eq_true_eq, not_or, not_lt] at hempty
    exact ⟨hempty.1, rfl, Axis.ext fun a => by rw [Box.of_far, a.of_sub, add_sub_cancel]⟩

end Bounds

/-- Bounds of points are the tight box about them as soon as one point is within the sentinels. -/
theorem bounding_of_mem {ps : List (Point ℝ)} {p : Point ℝ} (hp : p ∈ ps)
    (hfinite : ∀ a : Axis, |a.of p| ≤ Scalar.largest) {t : Box ℝ}
    (h : (ps.foldl Bounds.addPoint .empty).box? = some t) : Bounding ps t := by
  obtain ⟨-, hoffset, hfar⟩ := Bounds.box?_eq_some h
  have hmem (a : Axis) : a.of p ∈ a.of '' {q | q ∈ ps} := ⟨p, hp, rfl⟩
  constructor
  · intro a
    rw [hoffset]
    refine isLeast_of_insert (Bounds.foldl_addPoint_isLeast _ _ a) (hmem a) ?_
    rw [Bounds.of_empty_least]
    exact (abs_le.1 (hfinite a)).2
  · intro a
    rw [hfar]
    refine isGreatest_of_insert (Bounds.foldl_addPoint_isGreatest _ _ a) (hmem a) ?_
    rw [Bounds.of_empty_greatest]
    exact (abs_le.1 (hfinite a)).1

/-- Bounds of boxes that begin within the sentinels are the tight box about their corners. -/
theorem bounding_of_box? {bs : List (Box ℝ)} (hbs : ∀ b ∈ bs, b.Finite) {t : Box ℝ}
    (h : (bs.foldl Bounds.addBox .empty).box? = some t) : Bounding (corners bs) t := by
  obtain ⟨b, hb⟩ : ∃ b, b ∈ bs := by
    rw [← List.length_pos_iff_exists_mem, List.length_pos_iff]
    rintro rfl
    have hle := (Bounds.box?_eq_some h).1
    have hlargest := Bounds.largest_pos
    change (Scalar.largest : ℝ) ≤ -Scalar.largest at hle
    linarith
  rw [Bounds.foldl_addBox] at h
  exact bounding_of_mem (mem_corners.2 ⟨b, hb, .inl rfl⟩) (hbs b hb) h

/-- Of two scales, those there are, the least is one and is no greater than either. -/
theorem leastScale?_eq_some {s t : Option ℝ} {k : ℝ} (h : leastScale? s t = some k) :
    (s = some k ∨ t = some k) ∧ (∀ c, s = some c → k ≤ c) ∧ ∀ c, t = some c → k ≤ c := by
  cases s with
  | none =>
    have ht : t = some k := h
    simp [ht]
  | some a =>
    cases t with
    | none =>
      have ha : a = k := Option.some.inj h
      simp [ha]
    | some b =>
      have hk : min a b = k := by rw [← Scalar.min_real]; exact Option.some.inj h
      subst hk
      simp only [Option.some.injEq, forall_eq', min_le_left, min_le_right, and_true]
      exact (min_choice a b).imp Eq.symm Eq.symm

/-- A scale that no side forbids keeps every side within the frame. -/
theorem side_le_of_scale {frame side k : ℝ} (hframe : 0 < frame) (hk : 0 < k)
    (h : ∀ c, sideScale? frame side = some c → k ≤ c) : side ≤ frame / k := by
  by_cases hside : 0 < side
  · have hle : k ≤ frame / side := h _ (if_pos (by simpa using hside))
    rwa [le_div_iff₀ hk, mul_comm, ← le_div_iff₀ hside]
  · exact (not_lt.1 hside).trans (div_pos hframe hk).le

theorem side_eq_of_scale {frame side k : ℝ} (hframe : 0 < frame)
    (h : sideScale? frame side = some k) : side = frame / k := by
  unfold sideScale? at h
  split at h
  · rw [← Option.some.inj h]
    exact (div_div_cancel₀ hframe.ne').symm
  · exact nomatch h

/-- The box `space` has the frame's proportions at the scale `k`; its centre is that of `tight`,
which it exceeds on one axis at most. -/
structure Grown (tight frame : Box ℝ) (k : ℝ) (space : Box ℝ) : Prop where
  pos : 0 < k
  extent : ∀ a : Axis, a.of space.extent = a.of frame.extent / k
  offset : ∀ a : Axis, a.of space.offset =
    a.of tight.offset - (a.of space.extent - a.of tight.extent) / 2
  le : ∀ a : Axis, a.of tight.extent ≤ a.of space.extent
  flush : ∃ a : Axis, a.of tight.extent = a.of space.extent

theorem grown_of_proportioned? {tight frame space : Box ℝ} (hframe : frame.extent.Positive)
    (h : proportioned? tight frame.extent = some space) : ∃ k, Grown tight frame k space := by
  unfold proportioned? at h
  split at h
  · exact nomatch h
  · rename_i k hleast
    split at h
    · rename_i hk
      obtain rfl := Option.some.inj h
      replace hk : 0 < k := by simpa using hk
      obtain ⟨hone, hx, hy⟩ := leastScale?_eq_some hleast
      have hextent (a : Axis) : a.of (frame.extent / k) = a.of frame.extent / k := a.of_div _ k
      refine ⟨k, hk, hextent, fun a => ?_, fun a => ?_, ?_⟩
      · rw [← a.of_sub, ← a.of_div, ← a.of_sub]
      · rw [hextent]
        cases a with
        | x => exact side_le_of_scale hframe.1 hk hx
        | y => exact side_le_of_scale hframe.2 hk hy
      · rcases hone with hone | hone
        · exact ⟨.x, side_eq_of_scale hframe.1 hone⟩
        · exact ⟨.y, side_eq_of_scale hframe.2 hone⟩
    · exact nomatch h

theorem childSpace_of_aspectCorrected {shapes : List (DiagramShape ℝ)} {frame : Box ℝ}
    {rules : DiagramRules ℝ} (h : (childSpace shapes frame rules).source = .aspectCorrected) :
    ∃ tight, (shapeBounds shapes).box? = some tight ∧
      proportioned? tight frame.extent = some (childSpace shapes frame rules).space := by
  unfold childSpace at h ⊢
  cases hbox : (shapeBounds shapes).box? with
  | none => simp only [hbox, reduceCtorEq] at h
  | some tight =>
    refine ⟨tight, rfl, ?_⟩
    cases hspace : proportioned? tight frame.extent with
    | none =>
      simp only [hbox, hspace] at h
      split_ifs at h
    | some space =>
      simp only [hbox, hspace] at h ⊢
      split_ifs at h ⊢
      rfl

/-- Nothing but the rules stands against a space for a circular diagram whose tight box has an
area. -/
theorem aspectCorrected_of_box? {shapes : List (DiagramShape ℝ)} {frame tight : Box ℝ}
    {rules : DiagramRules ℝ} (hbox : (shapeBounds shapes).box? = some tight)
    (hframe : frame.extent.Positive) (htight : tight.extent.Positive)
    (hsign : rules.rejectNegative → 0 ≤ tight.offset.x ∧ 0 ≤ tight.offset.y)
    (hsize : tight.extent.x ≤ rules.oversizeFactor * frame.extent.x ∧
      tight.extent.y ≤ rules.oversizeFactor * frame.extent.y)
    (hcircular : (shapes.filterMap DiagramShape.preset).any rules.isCircular) :
    (childSpace shapes frame rules).source = .aspectCorrected := by
  have hspace : ∃ space, proportioned? tight frame.extent = some space := by
    have hx := div_pos hframe.1 htight.1
    have hy := div_pos hframe.2 htight.2
    have hk := lt_min hx hy
    unfold proportioned? sideScale?
    rw [if_pos (by simpa using htight.1), if_pos (by simpa using htight.2)]
    simp only [leastScale?, Scalar.min_real]
    rw [if_pos (by simpa using hk)]
    exact ⟨_, rfl⟩
  obtain ⟨space, hspace⟩ := hspace
  unfold childSpace
  simp only [hbox, hspace, hcircular]
  rw [if_neg, if_neg (by simp)]
  simp only [Bool.or_eq_true, Bool.and_eq_true, decide_eq_true_eq, not_or, not_and, not_lt,
    Scalar.zero_real]
  exact ⟨hsign, hsize⟩

/-- The box `space` is the smallest one of the frame's proportions that covers the boxes, with the
centre of the tight one. -/
structure Fitted (bs : List (Box ℝ)) (tight frame space : Box ℝ) : Prop where
  covers : ∀ b ∈ bs, b.region ⊆ space.region
  proportioned : space.Proportioned frame
  centred : space.center = tight.center
  flush : ∃ a : Axis, a.of space.offset = a.of tight.offset ∧ a.of space.far = a.of tight.far
  smallest : ∀ other : Box ℝ, other.Proportioned frame → (∀ b ∈ bs, b.region ⊆ other.region) →
    (∀ a : Axis, |a.of space.extent| ≤ |a.of other.extent|) ∧
      (other.center = tight.center → space.region ⊆ other.region)

/-- The boxes are mapped from `space` into the frame at the scale `k`. -/
structure Placed (k : ℝ) (bs : List (Box ℝ)) (tight frame space : Box ℝ) : Prop where
  pos : 0 < k
  scaled : ∀ b : Box ℝ,
    b.remap space frame = ⟨(b.offset - space.offset) * k + frame.offset, b.extent * k⟩
  inside : ∀ b ∈ bs,
    (b.remap space frame).offset ∈ frame.region ∧ (b.remap space frame).far ∈ frame.region
  bounding : Bounding (corners (bs.map (·.remap space frame))) (tight.remap space frame)
  centred : (tight.remap space frame).center = frame.center
  touching : ∃ a : Axis, a.of (tight.remap space frame).offset = a.of frame.offset ∧
    a.of (tight.remap space frame).far = a.of frame.far

namespace Bounding

variable {bs : List (Box ℝ)} {tight : Box ℝ} (h : Bounding (corners bs) tight)
include h

theorem mem_Icc (a : Axis) {p : Point ℝ} (hp : p ∈ corners bs) :
    a.of p ∈ Set.Icc (a.of tight.offset) (a.of tight.far) :=
  ⟨(h.least a).2 ⟨p, hp, rfl⟩, (h.greatest a).2 ⟨p, hp, rfl⟩⟩

/-- What covers the boxes is as wide and as high as the tight box. -/
theorem extent_le {other : Box ℝ} (hcovers : ∀ b ∈ bs, b.region ⊆ other.region) (a : Axis) :
    a.of tight.extent ≤ |a.of other.extent| := by
  have hmem {p : Point ℝ} (hp : p ∈ corners bs) :
      a.of p ∈ Set.uIcc (a.of other.offset) (a.of other.far) := by
    obtain ⟨b, hb, rfl | rfl⟩ := mem_corners.1 hp
    · exact hcovers b hb b.offset_mem_region a
    · exact hcovers b hb b.far_mem_region a
  obtain ⟨p, hp, hlo⟩ := (h.least a).1
  obtain ⟨q, hq, hhi⟩ := (h.greatest a).1
  have hspan := Set.abs_sub_le_of_uIcc_subset_uIcc (Set.uIcc_subset_uIcc (hmem hp) (hmem hq))
  rw [hlo, hhi, tight.of_far, other.of_far, add_sub_cancel_left, add_sub_cancel_left] at hspan
  exact (le_abs_self _).trans hspan

end Bounding

namespace Grown

variable {bs : List (Box ℝ)} {tight frame space : Box ℝ} {k : ℝ} (h : Grown tight frame k space)
include h

theorem center_eq : space.center = tight.center :=
  Axis.ext fun a => by
    rw [space.of_center, tight.of_center, h.offset]
    ring

theorem of_far (a : Axis) :
    a.of space.far = a.of tight.far + (a.of space.extent - a.of tight.extent) / 2 := by
  rw [space.of_far, tight.of_far, h.offset]
  ring

theorem flush_sides :
    ∃ a : Axis, a.of space.offset = a.of tight.offset ∧ a.of space.far = a.of tight.far := by
  obtain ⟨a, ha⟩ := h.flush
  refine ⟨a, ?_, ?_⟩
  · rw [h.offset, ha]
    ring
  · rw [h.of_far, ha]
    ring

theorem fitted (hframe : frame.extent.Positive) (htight : Bounding (corners bs) tight) :
    Fitted bs tight frame space where
  covers b hb p hp a := by
    have hle := h.le a
    have hoffset := htight.mem_Icc a (mem_corners.2 ⟨b, hb, .inl rfl⟩)
    have hfar := htight.mem_Icc a (mem_corners.2 ⟨b, hb, .inr rfl⟩)
    obtain ⟨h1, h2⟩ := Set.uIcc_subset_Icc hoffset hfar (hp a)
    refine Set.Icc_subset_uIcc ⟨?_, ?_⟩
    · rw [h.offset]
      linarith
    · rw [h.of_far]
      linarith
  proportioned := by
    have hx : space.extent.x = frame.extent.x / k := h.extent .x
    have hy : space.extent.y = frame.extent.y / k := h.extent .y
    rw [Box.Proportioned, hx, hy]
    ring
  centred := h.center_eq
  flush := h.flush_sides
  smallest other hother hcovers := by
    obtain ⟨c, hc⟩ := hother.exists_ratio hframe
    have hextent (a : Axis) : |a.of other.extent| = a.of frame.extent * |c| := by
      rw [hc, abs_mul, abs_of_pos (a.of_pos hframe)]
    -- on the axis where the space is tight the other box cannot be smaller
    have hscale : 1 / k ≤ |c| := by
      obtain ⟨b, hb⟩ := h.flush
      have hside := htight.extent_le hcovers b
      rw [hb, h.extent, hextent, div_eq_mul_one_div] at hside
      exact le_of_mul_le_mul_left hside (b.of_pos hframe)
    have hle (a : Axis) : |a.of space.extent| ≤ |a.of other.extent| := by
      have hpos := a.of_pos hframe
      rw [h.extent, hextent, abs_of_pos (div_pos hpos h.pos), div_eq_mul_one_div]
      exact mul_le_mul_of_nonneg_left hscale hpos.le
    refine ⟨hle, fun hcenter p hp => ?_⟩
    rw [Box.mem_region_iff] at hp ⊢
    intro a
    have hreach := hp a
    rw [h.center_eq, ← hcenter] at hreach
    linarith [hle a]

theorem remap_eq (hframe : frame.extent.Positive) (b : Box ℝ) :
    b.remap space frame = ⟨(b.offset - space.offset) * k + frame.offset, b.extent * k⟩ := by
  have hne (a : Axis) : a.of space.extent ≠ 0 := by
    rw [h.extent]
    exact (div_pos (a.of_pos hframe) h.pos).ne'
  have hk (a : Axis) : a.of frame.extent / a.of space.extent = k := by
    rw [h.extent, div_div_cancel₀ (a.of_pos hframe).ne']
  have hx : space.extent.x ≠ 0 := hne .x
  have hy : space.extent.y ≠ 0 := hne .y
  have hfactors : (⟨frame.extent.x / space.extent.x, frame.extent.y / space.extent.y⟩ : Point ℝ) =
      ⟨k, k⟩ := Point.ext (hk .x) (hk .y)
  unfold Box.remap
  rw [if_neg (by simp [Scalar.beq_real, hx, hy])]
  dsimp only
  rw [hfactors]
  rfl

end Grown

/-- Where a point of `space` comes to lie in the frame at the scale `k`. -/
def place (space frame : Box ℝ) (k : ℝ) (p : Point ℝ) : Point ℝ :=
  (p - space.offset) * k + frame.offset

namespace Axis

theorem of_place (a : Axis) (space frame : Box ℝ) (k : ℝ) (p : Point ℝ) :
    a.of (place space frame k p) = (a.of p - a.of space.offset) * k + a.of frame.offset := by
  rw [place, a.of_add, a.of_mul, a.of_sub]

theorem of_place_offset (a : Axis) (space frame : Box ℝ) (k : ℝ) :
    a.of (place space frame k space.offset) = a.of frame.offset := by
  rw [a.of_place, sub_self, zero_mul, zero_add]

end Axis

namespace Grown

variable {bs : List (Box ℝ)} {tight frame space : Box ℝ} {k : ℝ} (h : Grown tight frame k space)
  (hframe : frame.extent.Positive)
include h

theorem of_place_mono (a : Axis) {p q : Point ℝ} (hpq : a.of p ≤ a.of q) :
    a.of (place space frame k p) ≤ a.of (place space frame k q) := by
  rw [a.of_place, a.of_place]
  have hmul := mul_le_mul_of_nonneg_right (sub_le_sub_right hpq (a.of space.offset)) h.pos.le
  linarith

theorem of_place_far (a : Axis) : a.of (place space frame k space.far) = a.of frame.far := by
  rw [a.of_place, space.of_far, frame.of_far, add_sub_cancel_left, h.extent,
    div_mul_cancel₀ _ h.pos.ne', add_comm]

include hframe

theorem remap_offset (b : Box ℝ) : (b.remap space frame).offset = place space frame k b.offset := by
  rw [h.remap_eq hframe]
  rfl

theorem remap_far (b : Box ℝ) : (b.remap space frame).far = place space frame k b.far := by
  refine Axis.ext fun a => ?_
  rw [h.remap_eq hframe, Box.of_far, a.of_add, a.of_mul, a.of_mul, a.of_sub, a.of_place, b.of_far]
  ring

theorem corners_remap (bs : List (Box ℝ)) :
    corners (bs.map (·.remap space frame)) = (corners bs).map (place space frame k) := by
  simp only [corners, List.flatMap_map, List.map_flatMap, h.remap_offset hframe,
    h.remap_far hframe, List.map_cons, List.map_nil]

theorem bounding_remap (htight : Bounding (corners bs) tight) :
    Bounding (corners (bs.map (·.remap space frame))) (tight.remap space frame) := by
  rw [h.corners_remap hframe]
  constructor
  · intro a
    obtain ⟨⟨p, hp, hpa⟩, hlower⟩ := htight.least a
    rw [h.remap_offset hframe]
    refine ⟨⟨_, List.mem_map_of_mem hp, by rw [a.of_place, a.of_place, hpa]⟩, ?_⟩
    rintro v ⟨_, hmem, rfl⟩
    obtain ⟨q, hq, rfl⟩ := List.mem_map.1 hmem
    exact h.of_place_mono a (hlower ⟨q, hq, rfl⟩)
  · intro a
    obtain ⟨⟨p, hp, hpa⟩, hupper⟩ := htight.greatest a
    rw [h.remap_far hframe]
    refine ⟨⟨_, List.mem_map_of_mem hp, by rw [a.of_place, a.of_place, hpa]⟩, ?_⟩
    rintro v ⟨_, hmem, rfl⟩
    obtain ⟨q, hq, rfl⟩ := List.mem_map.1 hmem
    exact h.of_place_mono a (hupper ⟨q, hq, rfl⟩)

theorem place_mem_region {p : Point ℝ} (hp : p ∈ space.region) :
    place space frame k p ∈ frame.region := by
  intro a
  have hspace : a.of space.offset ≤ a.of space.far := by
    rw [space.of_far, h.extent]
    exact le_add_of_nonneg_right (div_pos (a.of_pos hframe) h.pos).le
  have hpa := hp a
  rw [Set.uIcc_of_le hspace] at hpa
  have h1 := h.of_place_mono a hpa.1
  have h2 := h.of_place_mono a hpa.2
  rw [a.of_place_offset] at h1
  rw [h.of_place_far] at h2
  exact Set.Icc_subset_uIcc ⟨h1, h2⟩

theorem placed (htight : Bounding (corners bs) tight) : Placed k bs tight frame space where
  pos := h.pos
  scaled := h.remap_eq hframe
  inside b hb := by
    have hcovers := (h.fitted hframe htight).covers b hb
    rw [h.remap_offset hframe, h.remap_far hframe]
    exact ⟨h.place_mem_region hframe (hcovers b.offset_mem_region),
      h.place_mem_region hframe (hcovers b.far_mem_region)⟩
  bounding := h.bounding_remap hframe htight
  centred := by
    refine Axis.ext fun a => ?_
    have hextent : a.of space.extent * k = a.of frame.extent := by
      rw [h.extent, div_mul_cancel₀ _ h.pos.ne']
    rw [h.remap_eq hframe, Box.of_center, Box.of_center, a.of_add, a.of_mul, a.of_mul, a.of_sub,
      h.offset, ← hextent]
    ring
  touching := by
    obtain ⟨a, hoffset, hfar⟩ := h.flush_sides
    refine ⟨a, ?_, ?_⟩
    · rw [h.remap_offset hframe, a.of_place, ← hoffset, ← a.of_place, a.of_place_offset]
    · rw [h.remap_far hframe, a.of_place, ← hfar, ← a.of_place, h.of_place_far]

end Grown

/-- Wherever a space is derived for a circular diagram, it is the smallest box of the frame's
proportions about the shapes with the centre of their tight box; and mapped from there into the
frame at one scale, every shape stays inside and all of them together stand in the middle, between
two opposite sides. -/
theorem circular_diagram_fits (shapes : List (DiagramShape ℝ)) (frame : Box ℝ)
    (rules : DiagramRules ℝ) (hshapes : ∀ b ∈ shapes.filterMap DiagramShape.box, b.Finite)
    (hframe : 0 < frame.extent.x ∧ 0 < frame.extent.y)
    (hsource : (childSpace shapes frame rules).source = .aspectCorrected) :
    let bs := shapes.filterMap DiagramShape.box
    let space := (childSpace shapes frame rules).space
    ∃ tight, Bounding (corners bs) tight ∧ Fitted bs tight frame space ∧
      ∃ k, Placed k bs tight frame space := by
  intro bs space
  obtain ⟨tight, hbox, hspace⟩ := childSpace_of_aspectCorrected hsource
  have htight : Bounding (corners bs) tight := bounding_of_box? hshapes hbox
  obtain ⟨k, hgrown⟩ := grown_of_proportioned? hframe hspace
  exact ⟨tight, htight, hgrown.fitted hframe htight, k, hgrown.placed hframe htight⟩

/-- A pie given from its right side and a bar given from its foot. -/
def pieAndBar : List (DiagramShape ℝ) :=
  [⟨some ⟨⟨30, 10⟩, ⟨-20, 10⟩⟩, some "pie"⟩, ⟨some ⟨⟨10, 40⟩, ⟨30, -10⟩⟩, none⟩]

def wideFrame : Box ℝ := ⟨⟨5, 5⟩, ⟨60, 40⟩⟩

theorem pieAndBar_finite : ∀ b ∈ pieAndBar.filterMap DiagramShape.box, b.Finite := by
  have hlargest : (2 : ℝ) ^ 6 ≤ Scalar.largest := Bounds.two_pow_le_largest (by norm_num)
  simp only [pieAndBar, List.filterMap_cons, List.filterMap_nil, List.forall_mem_cons]
  refine ⟨fun a => ?_, fun a => ?_, by simp⟩ <;> cases a <;> norm_num [Axis.of] <;> linarith

theorem pieAndBar_tight : (shapeBounds pieAndBar).box? = some ⟨⟨10, 10⟩, ⟨30, 30⟩⟩ := by
  have hlargest : (2 : ℝ) ^ 6 ≤ Scalar.largest := Bounds.two_pow_le_largest (by norm_num)
  have hleast : (shapeBounds pieAndBar).least = ⟨10, 10⟩ := Axis.ext fun a => by
    simp only [shapeBounds, pieAndBar, List.filterMap_cons, List.filterMap_nil, List.foldl_cons,
      List.foldl_nil, Bounds.addBox, Bounds.addPoint, Axis.of_least, Bounds.of_empty_least]
    cases a <;> norm_num [Axis.of, Box.far] <;> linarith
  have hgreatest : (shapeBounds pieAndBar).greatest = ⟨40, 40⟩ := Axis.ext fun a => by
    simp only [shapeBounds, pieAndBar, List.filterMap_cons, List.filterMap_nil, List.foldl_cons,
      List.foldl_nil, Bounds.addBox, Bounds.addPoint, Axis.of_greatest, Bounds.of_empty_greatest]
    cases a <;> norm_num [Axis.of, Box.far] <;> linarith
  rw [Bounds.box?, if_neg (by norm_num [Bounds.isEmpty, hleast, hgreatest]), hleast, hgreatest]
  exact congrArg some (congrArg _ (Point.ext (by norm_num) (by norm_num)))

theorem pieAndBar_corrected :
    (childSpace pieAndBar wideFrame .standard).source = .aspectCorrected := by
  refine aspectCorrected_of_box? pieAndBar_tight ?_ ?_ ?_ ?_ ?_
  · constructor <;> norm_num [wideFrame]
  · constructor <;> norm_num
  · norm_num
  · norm_num [DiagramRules.standard, wideFrame]
  · simp [pieAndBar, DiagramRules.isCircular, DiagramRules.standard, sameName]

theorem pieAndBar_fits :
    ∃ tight, Bounding (corners (pieAndBar.filterMap DiagramShape.box)) tight ∧
      Fitted (pieAndBar.filterMap DiagramShape.box) tight wideFrame
        (childSpace pieAndBar wideFrame .standard).space ∧
      ∃ k, Placed k (pieAndBar.filterMap DiagramShape.box) tight wideFrame
        (childSpace pieAndBar wideFrame .standard).space :=
  circular_diagram_fits pieAndBar wideFrame .standard pieAndBar_finite (by norm_num [wideFrame])
    pieAndBar_corrected

end
end ShapeOutline
