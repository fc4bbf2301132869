import ShapeOutline.Proofs.ArrowHead

/-! Block arrows. Each is drawn within its frame, across every head the shaft is
between the corners, and no head reaches back over another one, the tail or the start
of the shaft. -/

namespace ShapeOutline
noncomputable section

open Shape
open Sketch (polygon)

/-- Closed polygons within the frame, with a head for each of the directions. -/
def Sketch.Headed (s : Sketch ℝ) (f : Frame ℝ) (ds : List Facing) : Prop :=
  ∃ rings : List (List (Point ℝ)), s = rings.flatMap polygon ∧
    (∀ ps ∈ rings, ∀ p ∈ ps, f.Covers p) ∧ ∀ d ∈ ds, ∃ ps ∈ rings, HasHead f d ps

section Outlines

variable {f : Frame ℝ} {d : Facing} {ps : List (Point ℝ)} {ds : List Facing}

theorem polygon_headed (hcovers : ∀ p ∈ ps, f.Covers p) (hheads : ∀ d ∈ ds, HasHead f d ps) :
    (polygon ps).Headed f ds :=
  ⟨[ps], (List.flatMap_singleton ..).symm, by simpa using hcovers, by simpa using hheads⟩

theorem Sketch.Headed.append {s t : Sketch ℝ} {es : List Facing} (hs : s.Headed f ds)
    (ht : t.Headed f es) : Sketch.Headed (s ++ t) f (ds ++ es) := by
  obtain ⟨rings, rfl, hcovers, hheads⟩ := hs
  obtain ⟨rings', rfl, hcovers', hheads'⟩ := ht
  refine ⟨rings ++ rings', List.flatMap_append.symm, ?_, ?_⟩
  · exact List.forall_mem_append.2 ⟨hcovers, hcovers'⟩
  · refine List.forall_mem_append.2 ⟨fun d hd => ?_, fun d hd => ?_⟩
    · obtain ⟨ps, hps, hhead⟩ := hheads d hd
      exact ⟨ps, List.mem_append_left _ hps, hhead⟩
    · obtain ⟨ps, hps, hhead⟩ := hheads' d hd
      exact ⟨ps, List.mem_append_right _ hps, hhead⟩

/-- The outline of an arrow is judged as it is designed, pointing right. -/
theorem reflect_headed (hcovers : ∀ p ∈ ps, (d.lying f).Covers p)
    (hheads : ∀ e ∈ ds, HasHead f e (ps.map (d.reflection f).point)) :
    ((polygon ps).reflect (d.reflection f)).Headed f ds := by
  rw [polygon_reflect]
  refine polygon_headed ?_ hheads
  simpa using fun p hp => (hcovers p hp).point

end Outlines

namespace Shape

/-- The heads are at most as long as `most`, and the shaft is within the height `h`. -/
structure ArrowGuides.Fits (g : ArrowGuides ℝ) (h most : ℝ) : Prop where
  head_nonneg : 0 ≤ g.head
  head_le : g.head ≤ most
  top_nonneg : 0 ≤ g.top
  top_le : g.top ≤ g.bottom
  bottom_le : g.bottom ≤ h

/-- Heads from across the frame meet at most, and keep clear of the corners of those beside them. -/
structure HeadGuides.Fits (g : HeadGuides ℝ) (f : Frame ℝ) : Prop where
  length_nonneg : 0 ≤ g.length
  shaft_nonneg : 0 ≤ g.shaft
  shaft_le : g.shaft ≤ g.half
  length_add_half_le : g.length + g.half ≤ f.ss / 2

variable {f : Frame ℝ} (hf : f.Sized)
include hf

theorem ArrowGuides.ofFrame_fits {h part most : ℝ} (hh : 0 ≤ h) (hpart : 0 ≤ part)
    (hmost : f.shortPart part ≤ most) : (ofFrame f h part).Fits h most := by
  obtain ⟨h1, h1'⟩ := f.pinned_mem "adj1" 50000 (show (0 : ℝ) ≤ 100000 by norm_num)
  obtain ⟨h2, h2'⟩ := f.pinned_mem "adj2" 50000 hpart
  have hdy : h * f.pinned "adj1" 50000 0 100000 ≤ h * 100000 := mul_le_mul_of_nonneg_left h1' hh
  have hdy' : 0 ≤ h * f.pinned "adj1" 50000 0 100000 := mul_nonneg hh h1
  have hhead := hf.shortPart_le h2'
  have hhead' := hf.shortPart_nonneg h2
  simp only [ofFrame, Scalar.zero_real]
  constructor <;> simp only <;> linarith

theorem HeadGuides.ofFrame_fits (default : ℝ) : (ofFrame f default).Fits f := by
  set a2 := f.pinned "adj2" default 0 50000 with ha2
  obtain ⟨h2, h2'⟩ : 0 ≤ a2 ∧ a2 ≤ 50000 := f.pinned_mem "adj2" default (by norm_num)
  obtain ⟨h1, h1'⟩ := f.pinned_mem "adj1" default (show 0 ≤ 2 * a2 by linarith)
  obtain ⟨h3, h3'⟩ := f.pinned_mem "adj3" default (show 0 ≤ (100000 - 2 * a2) / 2 by linarith)
  have hshaft := hf.shortPart_le h1'
  have hlength := hf.shortPart_le h3'
  have hshaft' := hf.shortPart_nonneg h1
  have hlength' := hf.shortPart_nonneg h3
  simp only [ofFrame, Scalar.zero_real, ← ha2]
  simp only [Frame.shortPart_real] at *
  constructor <;> simp only <;> linarith

/-- The notch is no deeper than the head is long. -/
theorem notchDepth_mem {head : ℝ} (hhead : 0 ≤ head) :
    0 ≤ notchDepth f head ∧ notchDepth f head ≤ head := by
  obtain ⟨h1, h1'⟩ := f.pinned_mem "adj1" 50000 (show (0 : ℝ) ≤ 100000 by norm_num)
  have hh := hf.h_nonneg
  have hdepth : notchDepth f head =
      f.h * f.pinned "adj1" 50000 0 100000 / 200000 * head / (f.h / 2) := by
    simp only [notchDepth, Scalar.zero_real, divOrZero_real]
  rw [hdepth]
  refine ⟨by positivity, div_le_of_le_mul₀ (by positivity) hhead ?_⟩
  have hside : f.h * f.pinned "adj1" 50000 0 100000 ≤ f.h * 100000 :=
    mul_le_mul_of_nonneg_left h1' hh
  calc f.h * f.pinned "adj1" 50000 0 100000 / 200000 * head ≤ f.h * 100000 / 200000 * head := by
        gcongr
    _ = head * (f.h / 2) := by ring

theorem blockArrow_headed (d : Facing) : (blockArrow d f).Headed f [d] := by
  have hw : 0 ≤ d.along f := hf.ss_nonneg.trans d.ss_le_along
  have hh : 0 ≤ d.across f := hf.ss_nonneg.trans d.ss_le_across
  have hlength : 0 ≤ 100000 * d.along f := by positivity
  set g := ArrowGuides.ofFrame f (d.across f) (shortRatio f (d.along f)) with hg
  obtain ⟨hhead, hhead', htop, htop', hbottom⟩ : g.Fits (d.across f) (d.along f) :=
    ArrowGuides.ofFrame_fits hf hh (Frame.divOrZero_nonneg hlength hf.ss_nonneg)
      ((Frame.shortPart_divOrZero_le hlength).trans (by linarith))
  simp only [blockArrow, Scalar.zero_real, ← hg]
  refine reflect_headed ?_ ?_
  · simp only [List.forall_mem_cons, List.not_mem_nil, IsEmpty.forall_iff, implies_true, and_true,
      Frame.Covers, Facing.lying_w, Facing.lying_h]
    constructorm* _ ∧ _ <;> linarith
  · simp only [List.forall_mem_singleton]
    refine .ahead (hasHead_of_rotate 1 ⟨_, _, _, _, _⟩ rfl ⟨by simp, ?_, by simp, .inl ?_, ?_⟩)
    · simpa using hhead
    · simpa using ⟨htop, htop', hbottom⟩
    · simpa using hhead'

theorem twoHeadedArrow_headed (d : Facing) : (twoHeadedArrow d f).Headed f [d, d.opposite] := by
  have hw : 0 ≤ d.along f := hf.ss_nonneg.trans d.ss_le_along
  have hh : 0 ≤ d.across f := hf.ss_nonneg.trans d.ss_le_across
  have hlength : 0 ≤ 100000 * d.along f := by positivity
  have hratio : 0 ≤ shortRatio f (d.along f) := Frame.divOrZero_nonneg hlength hf.ss_nonneg
  have hhalf : f.shortPart (shortRatio f (d.along f) / 2) ≤ d.along f / 2 := by
    have h : f.shortPart (shortRatio f (d.along f)) ≤ 100000 * d.along f / 100000 :=
      Frame.shortPart_divOrZero_le hlength
    rw [Frame.shortPart_real] at h ⊢
    linarith
  set g := ArrowGuides.ofFrame f (d.across f) (shortRatio f (d.along f) / 2) with hg
  obtain ⟨hhead, hhead', htop, htop', hbottom⟩ : g.Fits (d.across f) (d.along f / 2) :=
    ArrowGuides.ofFrame_fits hf hh (by positivity) hhalf
  simp only [twoHeadedArrow, Scalar.zero_real, ← hg]
  refine reflect_headed ?_ ?_
  · simp only [List.forall_mem_cons, List.not_mem_nil, IsEmpty.forall_iff, implies_true, and_true,
      Frame.Covers, Facing.lying_w, Facing.lying_h]
    constructorm* _ ∧ _ <;> linarith
  · simp only [List.forall_mem_cons, List.not_mem_nil, IsEmpty.forall_iff, implies_true, and_true]
    constructor
    · refine .ahead (hasHead_of_rotate 3 ⟨_, _, _, _, _⟩ rfl ⟨by simp, ?_, by simp, .inl ?_, ?_⟩)
      · simpa using hhead
      · simpa using ⟨htop, htop', hbottom⟩
      · simp [List.rotate]
        constructorm* _ ∧ _ <;> linarith
    · refine .backwards (hasHead_of_rotate 8 ⟨_, _, _, _, _⟩ rfl
        ⟨by simp, ?_, by simp, .inr ?_, ?_⟩)
      · simpa using hhead
      · simpa using ⟨hbottom, htop', htop⟩
      · simp [List.rotate]
        constructorm* _ ∧ _ <;> linarith

theorem quadArrow_headed : (quadArrow f).Headed f [.left, .up, .right, .down] := by
  set g := HeadGuides.ofFrame f 22500 with hg
  obtain ⟨hlength, hshaft, hshaft', hhalf⟩ : g.Fits f := HeadGuides.ofFrame_fits hf 22500
  have hw := f.ss_le_w
  have hh := f.ss_le_h
  have hhc : f.hc = f.w / 2 := rfl
  have hvc : f.vc = f.h / 2 := rfl
  simp only [quadArrow, Scalar.zero_real, ← hg]
  refine polygon_headed ?_ ?_
  · simp only [List.forall_mem_cons, List.not_mem_nil, IsEmpty.forall_iff, implies_true, and_true,
      Frame.Covers]
    constructorm* _ ∧ _ <;> linarith
  · intro d _
    -- the outline goes around from the left tip, a head every six vertices
    let first : Facing → ℕ
      | .left => 22
      | .up => 4
      | .right => 10
      | .down => 16
    refine hasHead_of_rotate (first d)
      (axialHead d f (d.offset f.center) g.half g.shaft g.length) ?_
      (axialHead_leads d f _ hshaft hshaft' hlength ?_)
    · cases d <;> simp [first, axialHead, ArrowHead.vertices, Facing.spot, Frame.center,
        sub_eq_add_neg]
    · cases d <;> simp [first, List.rotate] <;> constructorm* _ ∧ _ <;> linarith

theorem leftRightUpArrow_headed : (leftRightUpArrow f).Headed f [.left, .up, .right] := by
  set g := HeadGuides.ofFrame f 25000 with hg
  obtain ⟨hlength, hshaft, hshaft', hhalf⟩ : g.Fits f := HeadGuides.ofFrame_fits hf 25000
  have hw := f.ss_le_w
  have hh := f.ss_le_h
  have hhc : f.hc = f.w / 2 := rfl
  simp only [leftRightUpArrow, Scalar.zero_real, ← hg]
  refine polygon_headed ?_ ?_
  · simp only [List.forall_mem_cons, List.not_mem_nil, IsEmpty.forall_iff, implies_true, and_true,
      Frame.Covers]
    constructorm* _ ∧ _ <;> linarith
  · intro d hd
    have hcorner (x : ℝ) : x - g.half - g.half = x - 2 * g.half := by ring
    let axis : Facing → ℝ
      | .left | .right => f.h - g.half
      | .up | .down => f.hc
    let first : Facing → ℕ
      | .left => 15
      | .up => 4
      | .right | .down => 10
    refine hasHead_of_rotate (first d) (axialHead d f (axis d) g.half g.shaft g.length) ?_
      (axialHead_leads d f _ hshaft hshaft' hlength ?_)
    · cases d with
      | down => simp at hd
      | _ =>
        simp [first, axis, axialHead, ArrowHead.vertices, Facing.spot, ← sub_eq_add_neg, hcorner]
    · cases d with
      | down => simp at hd
      | _ => simp [first, List.rotate]; constructorm* _ ∧ _ <;> linarith

theorem leftUpArrow_headed : (leftUpArrow f).Headed f [.left, .up] := by
  set g := HeadGuides.ofFrame f 25000 with hg
  obtain ⟨hlength, hshaft, hshaft', hhalf⟩ : g.Fits f := HeadGuides.ofFrame_fits hf 25000
  have hw := f.ss_le_w
  have hh := f.ss_le_h
  simp only [leftUpArrow, Scalar.zero_real, ← hg]
  refine polygon_headed ?_ ?_
  · simp only [List.forall_mem_cons, List.not_mem_nil, IsEmpty.forall_iff, implies_true, and_true,
      Frame.Covers]
    constructorm* _ ∧ _ <;> linarith
  · intro d hd
    have hcorner (x : ℝ) : x - g.half - g.half = x - 2 * g.half := by ring
    let axis : Facing → ℝ
      | .left | .right => f.h - g.half
      | .up | .down => f.w - g.half
    let first : Facing → ℕ
      | .left | .right => 10
      | .up | .down => 4
    refine hasHead_of_rotate (first d) (axialHead d f (axis d) g.half g.shaft g.length) ?_
      (axialHead_leads d f _ hshaft hshaft' hlength ?_)
    · cases d with
      | left | up =>
        simp [first, axis, axialHead, ArrowHead.vertices, Facing.spot, ← sub_eq_add_neg, hcorner]
      | right | down => simp at hd
    · cases d with
      | left | up => simp [first, List.rotate]; constructorm* _ ∧ _ <;> linarith
      | right | down => simp at hd

theorem stripedRightArrow_headed : (stripedRightArrow f).Headed f [.right] := by
  have hw := hf.w_nonneg
  have hlength : 0 ≤ 84375 * f.w := by positivity
  set g := ArrowGuides.ofFrame f f.h (divOrZero (84375 * f.w) f.ss) with hg
  obtain ⟨hhead, hhead', htop, htop', hbottom⟩ : g.Fits f.h (84375 * f.w / 100000) :=
    ArrowGuides.ofFrame_fits hf hf.h_nonneg (Frame.divOrZero_nonneg hlength hf.ss_nonneg)
      (Frame.shortPart_divOrZero_le hlength)
  have hss := hf.ss_nonneg
  have hss' := f.ss_le_w
  have hh := hf.h_nonneg
  have hvc : f.vc = f.h / 2 := rfl
  have hstripe {x x' : ℝ} (hx : 0 ≤ x) (hxx' : x ≤ x') (hx' : x' ≤ f.w) :
      (polygon [⟨x, g.top⟩, ⟨x', g.top⟩, ⟨x', g.bottom⟩, ⟨x, g.bottom⟩]).Headed f [] := by
    refine polygon_headed ?_ (by simp)
    simp only [List.forall_mem_cons, List.not_mem_nil, IsEmpty.forall_iff, implies_true, and_true,
      Frame.Covers]
    constructorm* _ ∧ _ <;> linarith
  have hsolid : (polygon [⟨f.ss * 5 / 32, g.top⟩, ⟨f.w - g.head, g.top⟩, ⟨f.w - g.head, 0⟩,
      ⟨f.w, f.vc⟩, ⟨f.w - g.head, f.h⟩, ⟨f.w - g.head, g.bottom⟩,
      ⟨f.ss * 5 / 32, g.bottom⟩]).Headed f [.right] := by
    refine polygon_headed ?_ ?_
    · simp only [List.forall_mem_cons, List.not_mem_nil, IsEmpty.forall_iff, implies_true,
        and_true, Frame.Covers]
      constructorm* _ ∧ _ <;> linarith
    · rw [List.forall_mem_singleton]
      refine hasHead_of_rotate 1 ⟨_, _, _, _, _⟩ rfl ⟨by simp, ?_, by simp, .inl ?_, ?_⟩
      · simpa using hhead
      · simpa using ⟨htop, htop', hbottom⟩
      · simp [List.rotate]
        linarith
  simp only [stripedRightArrow, Scalar.zero_real, ← hg]
  refine ((hstripe ?_ ?_ ?_).append (hstripe ?_ ?_ ?_)).append hsolid <;> linarith

theorem notchedRightArrow_notched :
    ∃ (k : ArrowHead) (tail tail' notch : Point ℝ),
      let ps := tail :: k.vertices ++ [tail', notch]
      notchedRightArrow f = polygon ps ∧ (∀ p ∈ ps, f.Covers p) ∧
        k.Leads f .right [tail, tail'] ∧ notch.x ≤ k.tip.x := by
  have hw := hf.w_nonneg
  have hlength : 0 ≤ 100000 * f.w := by positivity
  set g := ArrowGuides.ofFrame f f.h (shortRatio f f.w) with hg
  obtain ⟨hhead, hhead', htop, htop', hbottom⟩ : g.Fits f.h f.w :=
    ArrowGuides.ofFrame_fits hf hf.h_nonneg (Frame.divOrZero_nonneg hlength hf.ss_nonneg)
      ((Frame.shortPart_divOrZero_le hlength).trans (by linarith))
  obtain ⟨hnotch, hnotch'⟩ := notchDepth_mem hf hhead
  have hh := hf.h_nonneg
  have hvc : f.vc = f.h / 2 := rfl
  refine ⟨⟨⟨f.w - g.head, g.top⟩, ⟨f.w - g.head, 0⟩, ⟨f.w, f.vc⟩, ⟨f.w - g.head, f.h⟩,
    ⟨f.w - g.head, g.bottom⟩⟩, ⟨0, g.top⟩, ⟨0, g.bottom⟩, ⟨notchDepth f g.head, f.vc⟩, ?_, ?_,
    ⟨by simp, ?_, by simp, .inl ?_, ?_⟩, hnotch'.trans hhead'⟩
  · simp only [notchedRightArrow, Scalar.zero_real, ← hg]
    rfl
  · simp only [ArrowHead.vertices, List.cons_append, List.nil_append, List.forall_mem_cons,
      List.not_mem_nil, IsEmpty.forall_iff, implies_true, and_true, Frame.Covers]
    constructorm* _ ∧ _ <;> linarith
  · simpa using hhead
  · simpa using ⟨htop, htop', hbottom⟩
  · simpa using hhead'

end Shape

/-- The straight arrows, each with the directions of its heads. -/
def Preset.blockArrows : List (Preset × List Facing) :=
  [(.rightArrow, [.right]), (.leftArrow, [.left]), (.upArrow, [.up]), (.downArrow, [.down]),
    (.leftRightArrow, [.right, .left]), (.upDownArrow, [.down, .up]),
    (.quadArrow, [.left, .up, .right, .down]), (.leftRightUpArrow, [.left, .up, .right]),
    (.leftUpArrow, [.left, .up]), (.stripedRightArrow, [.right])]

/-- In every frame, flat ones too, and with any adjustments a block arrow stays in the frame; across
each head the shaft is between the corners, and the base of the head has all other vertices behind
it: the other heads, the tail and the start of the shaft. Only the notch in the tail may reach
further, and no further than to the tip. -/
theorem blockArrows_nested (w h : ℝ) (a : Adjustments ℝ) :
    let f := Frame.ofSides w h a
    (∀ q ∈ Preset.blockArrows, (q.1.sketch f).Headed f q.2) ∧
      ∃ (k : ArrowHead) (tail tail' notch : Point ℝ),
        let ps := tail :: k.vertices ++ [tail', notch]
        Preset.notchedRightArrow.sketch f = polygon ps ∧ (∀ p ∈ ps, f.Covers p) ∧
          k.Leads f .right [tail, tail'] ∧ notch.x ≤ k.tip.x := by
  intro f
  have hf : f.Sized := Frame.ofSides_sized w h a
  refine ⟨?_, notchedRightArrow_notched hf⟩
  simp only [Preset.blockArrows, List.forall_mem_cons, List.not_mem_nil, IsEmpty.forall_iff,
    implies_true, and_true]
  exact ⟨blockArrow_headed hf .right, blockArrow_headed hf .left, blockArrow_headed hf .up,
    blockArrow_headed hf .down, twoHeadedArrow_headed hf .right, twoHeadedArrow_headed hf .down,
    quadArrow_headed hf, leftRightUpArrow_headed hf, leftUpArrow_headed hf,
    stripedRightArrow_headed hf⟩

end
end ShapeOutline
