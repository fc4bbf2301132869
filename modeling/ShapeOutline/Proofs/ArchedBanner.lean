import ShapeOutline.Proofs.Legs
import ShapeOutline.Proofs.ShadedRibbon

/-! The arched banner within its frame. Each curve goes on from where the pen is, so it is
the arch over the line of a height; a straight banner below the arch is as high as the
frame when it is bent. -/

namespace ShapeOutline
noncomputable section

open Layered

/-- Each curve between two points of the arch runs through the points of the arch between them, in
whichever direction. -/
def Layered.Arch.CurvesExact (b : Arch ℝ) : Prop :=
  ∀ x0 x1 y, ∃ a, b.curve x0 x1 y = .quad a (b.point x1 y) ∧
    ∀ t ∈ Set.Icc (0 : ℝ) 1, quadPoint (b.point x0 y).place a.place (b.point x1 y).place t =
      (b.point (x0 + t * (x1 - x0)) y).place

theorem curvesExact {b : Arch ℝ} (hb : 0 < b.width) : b.CurvesExact :=
  fun x0 x1 y => ⟨_, rfl, fun t _ => ArchHeight.curve_point hb x0 x1 y t⟩

/-- From a corner of a straight banner along its height, or to a corner of another height. -/
inductive Edge where
  | run (x : ℝ)
  | line (x y : ℝ)

/-- The edges from the corner `(x, y)` on, each where the arch takes it. A run becomes a curve from
where the edge before it ended. -/
def Layered.Arch.edges (b : Arch ℝ) (x y : ℝ) : List Edge → Sketch ℝ
  | [] => []
  | .run x' :: rest => b.curve x x' y :: b.edges x' y rest
  | .line x' y' :: rest => b.line x' y' :: b.edges x' y' rest

/-- A closed sub-path that starts at the corner `(x, y)`. -/
def Layered.Arch.ring (b : Arch ℝ) (x y : ℝ) (es : List Edge) : Sketch ℝ :=
  b.start x y :: b.edges x y es ++ [.close]

/-- The corners that edges lead to from the height `y`. -/
def Edge.corners (y : ℝ) : List Edge → List (ℝ × ℝ)
  | [] => []
  | .run x' :: rest => (x', y) :: corners y rest
  | .line x' y' :: rest => (x', y') :: corners y' rest

/-- A point of a straight banner of height `s` that is as wide as the arch. -/
structure InBand (b : Arch ℝ) (s x y : ℝ) : Prop where
  x_mem : x ∈ Set.Icc 0 b.width
  y_mem : y ∈ Set.Icc 0 s

/-- A curve is one of the arch, drawn from its start; what is drawn stays within the frame. -/
structure Leg.Bent (b : Arch ℝ) (f : Frame ℝ) (l : Leg) : Prop where
  curve : ∀ a q, l.stroke = .quad a q →
    ∃ x0 x1 y, l.stroke = b.curve x0 x1 y ∧ l.trail.pen = b.point x0 y
  within : l.drawn ⊆ f.rect

/-- All that is drawn is bent, from a trail on. -/
def BentFrom (b : Arch ℝ) (f : Frame ℝ) (t : Trail) (sketch : Sketch ℝ) : Prop :=
  ∀ l ∈ (Path.bare t).legs sketch, l.Bent b f

/-- An arch that takes a straight banner of height `s` into a frame. -/
structure ArchFits (b : Arch ℝ) (s : ℝ) (f : Frame ℝ) : Prop where
  width_pos : 0 < b.width
  width_eq : b.width = f.w
  depth_nonneg : 0 ≤ b.depth
  height_eq : s + b.depth = f.h

namespace ArchFits

open ArchHeight

variable {b : Arch ℝ} {s : ℝ} {f : Frame ℝ} (hb : ArchFits b s f)

include hb

theorem sag_mem {x : ℝ} (hx : x ∈ Set.Icc 0 b.width) : b.sag x ∈ Set.Icc 0 b.depth := by
  have hw := hb.width_pos
  have hd := hb.depth_nonneg
  set u := x / b.width with hu
  have hu0 : 0 ≤ u := div_nonneg hx.1 hw.le
  have hu1 : u ≤ 1 := (div_le_one hw).2 hx.2
  rw [sag_eq hw, ← hu]
  refine ⟨mul_nonneg (by positivity) (sub_nonneg.2 hu1), ?_⟩
  -- the arch is deepest in the middle
  have hmiddle : b.depth - 4 * b.depth * u * (1 - u) = b.depth * (1 - 2 * u) ^ 2 := by ring
  have hsq : 0 ≤ b.depth * (1 - 2 * u) ^ 2 := by positivity
  linarith

theorem point_mem {x y : ℝ} (h : InBand b s x y) : (b.point x y).place ∈ f.rect := by
  obtain ⟨hsag, hsag'⟩ := hb.sag_mem h.x_mem
  refine ⟨hb.width_eq ▸ h.x_mem, add_nonneg h.y_mem.1 hsag, ?_⟩
  rw [← hb.height_eq]
  exact add_le_add h.y_mem.2 hsag'

variable {x y x' y' : ℝ} {start : Point ℝ} {rest : Sketch ℝ}

theorem segment_subset (h : InBand b s x y) (h' : InBand b s x' y') :
    segment ℝ (b.point x y).place (b.point x' y').place ⊆ f.rect :=
  f.rect_convex.segment_subset (hb.point_mem h) (hb.point_mem h')

theorem bent_line (h : InBand b s x y) (h' : InBand b s x' y')
    (hrest : BentFrom b f ⟨b.point x' y', start⟩ rest) :
    BentFrom b f ⟨b.point x y, start⟩ (b.line x' y' :: rest) := by
  rw [BentFrom, Arch.line, Path.legs_line, List.forall_mem_cons]
  exact ⟨⟨by simp, hb.segment_subset h h'⟩, hrest⟩

theorem bent_curve (h : InBand b s x y) (h' : InBand b s x' y)
    (hrest : BentFrom b f ⟨b.point x' y, start⟩ rest) :
    BentFrom b f ⟨b.point x y, start⟩ (b.curve x x' y :: rest) := by
  rw [BentFrom, Path.legs_cons, List.forall_mem_cons]
  refine ⟨⟨fun _ _ _ => ⟨x, x', y, rfl, rfl⟩, ?_⟩, hrest⟩
  rintro _ ⟨t, ht, rfl⟩
  -- the control point may be outside of the frame, the arch is not
  have hmem : InBand b s (x + t * (x' - x)) y :=
    ⟨(convex_Icc 0 b.width).add_smul_sub_mem h.x_mem h'.x_mem ht, h.y_mem⟩
  have hpoint := hb.point_mem hmem
  rw [← curve_point hb.width_pos] at hpoint
  exact hpoint

theorem bent_close (h : InBand b s x y) (h' : InBand b s x' y')
    (hrest : BentFrom b f ⟨b.point x' y', b.point x' y'⟩ rest) :
    BentFrom b f ⟨b.point x y, b.point x' y'⟩ (.close :: rest) := by
  rw [BentFrom, Path.legs_close, List.forall_mem_cons]
  exact ⟨⟨by simp, hb.segment_subset h h'⟩, hrest⟩

/-- Edges between corners of the banner are bent, if what follows is so from any corner. -/
theorem bent_edges {es : List Edge} (h : InBand b s x y)
    (hes : ∀ c ∈ Edge.corners y es, InBand b s c.1 c.2)
    (hrest : ∀ x' y', InBand b s x' y' → BentFrom b f ⟨b.point x' y', start⟩ rest) :
    BentFrom b f ⟨b.point x y, start⟩ (b.edges x y es ++ rest) := by
  induction es generalizing x y with
  | nil => exact hrest x y h
  | cons e es ih =>
    cases e with
    | run x' =>
      obtain ⟨h', hes'⟩ := List.forall_mem_cons.1 hes
      exact hb.bent_curve h h' (ih h' hes')
    | line x' y' =>
      obtain ⟨h', hes'⟩ := List.forall_mem_cons.1 hes
      exact hb.bent_line h h' (ih h' hes')

omit hb in
theorem bent_start {t : Trail} (ht : segment ℝ t.pen.place t.start.place ⊆ f.rect)
    (hrest : BentFrom b f ⟨b.point x y, b.point x y⟩ rest) :
    BentFrom b f t (b.start x y :: rest) := by
  rw [BentFrom, Arch.start, Path.legs_move, List.forall_mem_cons]
  exact ⟨⟨by simp, ht⟩, hrest⟩

theorem bent_ring {t : Trail} {es : List Edge}
    (ht : segment ℝ t.pen.place t.start.place ⊆ f.rect) (h : InBand b s x y)
    (hes : ∀ c ∈ Edge.corners y es, InBand b s c.1 c.2)
    (hrest : BentFrom b f ⟨b.point x y, b.point x y⟩ rest) :
    BentFrom b f t (b.ring x y es ++ rest) := by
  rw [Arch.ring, List.append_assoc]
  exact bent_start ht (hb.bent_edges h hes fun x' y' h' => hb.bent_close h' h hrest)

end ArchFits

/-- The edges around the body, from its upper left corner. -/
def Layered.ArchGuides.bodyEdges (g : ArchGuides ℝ) : List Edge :=
  [.run g.x3, .line g.x3 g.y1, .run g.x4, .line g.x4 0, .run g.arch.width,
    .line (g.arch.width - g.notch) g.ym, .line g.arch.width g.yt, .run g.x5, .line g.x5 g.s,
    .run g.x2, .line g.x2 g.yt, .run 0, .line g.notch g.ym]

/-- The edges around a fold, from its upper corner at `x`. -/
def Layered.ArchGuides.foldEdges (g : ArchGuides ℝ) (x x' : ℝ) : List Edge :=
  [.run x', .line x' g.y1, .run x]

theorem body_eq_ring (g : ArchGuides ℝ) :
    g.body g.arch.width = g.arch.ring 0 0 g.bodyEdges := by
  simp only [ArchGuides.body, Scalar.zero_real]
  rfl

theorem fold_eq_ring (g : ArchGuides ℝ) (x x' : ℝ) :
    g.fold x x' = g.arch.ring x 0 (g.foldEdges x x') := by
  simp only [ArchGuides.fold, Scalar.zero_real]
  rfl

/-- The guides of a banner with its arch below a frame's upper side. -/
structure ArchedFits (g : ArchGuides ℝ) (f : Frame ℝ) : Prop where
  spans : Spans g
  arch : ArchFits g.arch g.s f
  ym_eq : g.ym = g.yt / 2

/-- The widths and heights that a straight banner has its corners at. -/
structure CornersFit (g : ArchGuides ℝ) : Prop where
  left : 0 ∈ Set.Icc 0 g.arch.width
  leftNotch : g.notch ∈ Set.Icc 0 g.arch.width
  x2 : g.x2 ∈ Set.Icc 0 g.arch.width
  x3 : g.x3 ∈ Set.Icc 0 g.arch.width
  x4 : g.x4 ∈ Set.Icc 0 g.arch.width
  x5 : g.x5 ∈ Set.Icc 0 g.arch.width
  rightNotch : g.arch.width - g.notch ∈ Set.Icc 0 g.arch.width
  right : g.arch.width ∈ Set.Icc 0 g.arch.width
  top : 0 ∈ Set.Icc 0 g.s
  y1 : g.y1 ∈ Set.Icc 0 g.s
  ym : g.ym ∈ Set.Icc 0 g.s
  yt : g.yt ∈ Set.Icc 0 g.s
  bottom : g.s ∈ Set.Icc 0 g.s

theorem ofFrame_archedFits {f : Frame ℝ} (hw : 0 < f.w) (hh : 0 < f.h) :
    ArchedFits (ArchGuides.ofFrame f) f := by
  refine ⟨ofFrame_spans hw hh, ⟨hw, rfl, ?_, sub_add_cancel ..⟩, rfl⟩
  have hpin : 0 ≤ f.pinned "adj3" 12500 0 50000 := (f.pinned_mem "adj3" 12500 (by norm_num)).1
  have hdepth : f.h * f.pinned "adj3" 12500 0 50000 / 100000 =
      (ArchGuides.ofFrame f).arch.depth := by
    simp only [ArchGuides.ofFrame, Scalar.zero_real]
    rfl
  rw [← hdepth]
  positivity

namespace ArchedFits

open ArchFits

variable {g : ArchGuides ℝ} {f : Frame ℝ} (hg : ArchedFits g f) {t : Trail} {rest : Sketch ℝ}

include hg

theorem corners : CornersFit g := by
  obtain ⟨⟨hw, hnotch, hnotch2, hx2, hx3, hx4, hx5, hy1, hyt, hyt0, hs⟩, -, hym⟩ := hg
  constructor <;> constructor <;> linarith

theorem body_bent (ht : segment ℝ t.pen.place t.start.place ⊆ f.rect)
    (hrest : BentFrom g.arch f ⟨g.arch.point 0 0, g.arch.point 0 0⟩ rest) :
    BentFrom g.arch f t (g.body f.w ++ rest) := by
  have c := hg.corners
  rw [← hg.arch.width_eq, body_eq_ring]
  refine hg.arch.bent_ring ht ⟨c.left, c.top⟩ ?_ hrest
  simp only [ArchGuides.bodyEdges, Edge.corners, List.forall_mem_cons]
  exact ⟨⟨c.x3, c.top⟩, ⟨c.x3, c.y1⟩, ⟨c.x4, c.y1⟩, ⟨c.x4, c.top⟩, ⟨c.right, c.top⟩,
    ⟨c.rightNotch, c.ym⟩, ⟨c.right, c.yt⟩, ⟨c.x5, c.yt⟩, ⟨c.x5, c.bottom⟩, ⟨c.x2, c.bottom⟩,
    ⟨c.x2, c.yt⟩, ⟨c.left, c.yt⟩, ⟨c.leftNotch, c.ym⟩, nofun⟩

theorem fold_bent {xa xb : ℝ} (ha : xa ∈ Set.Icc 0 g.arch.width)
    (hxb : xb ∈ Set.Icc 0 g.arch.width) (ht : segment ℝ t.pen.place t.start.place ⊆ f.rect)
    (hrest : BentFrom g.arch f ⟨g.arch.point xa 0, g.arch.point xa 0⟩ rest) :
    BentFrom g.arch f t (g.fold xa xb ++ rest) := by
  have c := hg.corners
  rw [fold_eq_ring]
  refine hg.arch.bent_ring ht ⟨ha, c.top⟩ ?_ hrest
  simp only [ArchGuides.foldEdges, Edge.corners, List.forall_mem_cons]
  exact ⟨⟨hxb, c.top⟩, ⟨hxb, c.y1⟩, ⟨ha, c.y1⟩, nofun⟩

theorem seams_bent (ht : segment ℝ t.pen.place t.start.place ⊆ f.rect) :
    BentFrom g.arch f t g.seams := by
  have hb := hg.arch
  have c := hg.corners
  exact bent_start ht <|
    hb.bent_line ⟨c.x2, c.y1⟩ ⟨c.x2, c.yt⟩ <|
    bent_start (hb.segment_subset ⟨c.x2, c.yt⟩ ⟨c.x2, c.y1⟩) <|
    hb.bent_line ⟨c.x5, c.yt⟩ ⟨c.x5, c.y1⟩ nofun

/-- Where a closed sub-path ends, the pen is at its start. -/
theorem start_subset {x y : ℝ} (h : InBand g.arch g.s x y) :
    segment ℝ (g.arch.point x y).place (g.arch.point x y).place ⊆ f.rect :=
  hg.arch.segment_subset h h

end ArchedFits

/-- All three outlines of the banner run along the arch, from pen to pen, within the frame. -/
theorem archedBanner_bent {f : Frame ℝ} (hw : 0 < f.w) (hh : 0 < f.h) :
    ∀ sketch ∈ [(archedBanner f).body, (archedBanner f).folds, (archedBanner f).outline],
      ∀ l ∈ Path.empty.legs sketch, l.Bent (ArchGuides.ofFrame f).arch f := by
  set g := ArchGuides.ofFrame f with hgdef
  have hg : ArchedFits g f := ofFrame_archedFits hw hh
  have c := hg.corners
  have hnil (t : Trail) : BentFrom g.arch f t [] := nofun
  set o : Trail := ⟨⟨0, 0⟩, ⟨0, 0⟩⟩ with ho
  have hempty : segment ℝ o.pen.place o.start.place ⊆ f.rect := by
    rw [ho, segment_same, Set.singleton_subset_iff]
    exact ⟨⟨le_rfl, hw.le⟩, le_rfl, hh.le⟩
  have hbody : BentFrom g.arch f o (g.body f.w) := by
    rw [← List.append_nil (g.body f.w)]
    exact hg.body_bent hempty (hnil _)
  have hfold : BentFrom g.arch f ⟨g.arch.point g.x2 0, g.arch.point g.x2 0⟩ (g.fold g.x4 g.x5) := by
    rw [← List.append_nil (g.fold g.x4 g.x5)]
    exact hg.fold_bent c.x4 c.x5 (hg.start_subset ⟨c.x2, c.top⟩) (hnil _)
  simp only [List.forall_mem_cons, List.not_mem_nil, IsEmpty.forall_iff, implies_true, and_true]
  rw [Path.empty_eq]
  exact ⟨hbody, hg.fold_bent c.x2 c.x3 hempty hfold,
    hg.body_bent hempty (hg.seams_bent (hg.start_subset ⟨c.left, c.top⟩))⟩

/-- Every curve of an arch is exact. An arched ribbon has its guides in order and consists of such
curves, each drawn from where the pen is, and of lines, all of them within the frame: its layers run
along the edges of a straight banner, bent, and the other ribbon is the same upside down. -/
theorem archedRibbon_follows_arch {f : Frame ℝ} (hw : 0 < f.w) (hh : 0 < f.h) :
    let g := ArchGuides.ofFrame f
    let body := g.arch.ring 0 0 g.bodyEdges
    let folds := g.arch.ring g.x2 0 (g.foldEdges g.x2 g.x3) ++
      g.arch.ring g.x4 0 (g.foldEdges g.x4 g.x5)
    let outline := body ++ [g.arch.start g.x2 g.y1, g.arch.line g.x2 g.yt, g.arch.start g.x5 g.yt,
      g.arch.line g.x5 g.y1]
    (∀ b : Arch ℝ, 0 < b.width → b.CurvesExact) ∧
    (0 ≤ g.x2 ∧ g.x2 ≤ g.x3 ∧ g.x3 ≤ g.x4 ∧ g.x4 ≤ g.x5 ∧ g.x5 ≤ f.w) ∧
    (0 ≤ g.y1 ∧ g.y1 ≤ g.yt ∧ g.yt ≤ g.s) ∧
    (∀ sketch ∈ [(archedBanner f).body, (archedBanner f).folds, (archedBanner f).outline],
      ∀ l ∈ Path.empty.legs sketch, l.Bent g.arch f) ∧
    LayeredPreset.ellipseRibbon.layers f =
      [.fill body .normal, .shade folds .darkenLess, .stroke outline] ∧
    LayeredPreset.ellipseRibbon2.layers f =
      [.fill (body.reflect (.upsideDown f.h)) .normal,
        .shade (folds.reflect (.upsideDown f.h)) .darkenLess,
        .stroke (outline.reflect (.upsideDown f.h))] ∧
    ∀ l ∈ LayeredPreset.ellipseRibbon.layers f, ∀ leg ∈ Path.empty.legs l.sketch,
      leg.Bent g.arch f := by
  intro g body folds outline
  have hg : ArchedFits g f := ofFrame_archedFits hw hh
  have c := hg.corners
  have hs := hg.spans
  have hbody : (archedBanner f).body = body := by
    simp only [body, ← body_eq_ring, hg.arch.width_eq]
    rfl
  have hfolds : (archedBanner f).folds = folds := by
    simp only [folds, ← fold_eq_ring]
    rfl
  have houtline : (archedBanner f).outline = outline := congrArg (· ++ g.seams) hbody
  have hlayers (t : Reflection ℝ) : (archedBanner f).layers t =
      [.fill (body.reflect t) .normal, .shade (folds.reflect t) .darkenLess,
        .stroke (outline.reflect t)] := by
    rw [Banner.layers, hbody, hfolds, houtline]
  have hupright : LayeredPreset.ellipseRibbon.layers f =
      [.fill body .normal, .shade folds .darkenLess, .stroke outline] := by
    have hidentity := hlayers .identity
    simp only [reflect_identity] at hidentity
    exact hidentity
  have hbent := archedBanner_bent hw hh
  refine ⟨fun _ => curvesExact,
    ⟨c.x2.1, hs.x2_le_x3, hs.x3_le_x4, hs.x4_le_x5, hg.arch.width_eq ▸ c.x5.2⟩,
    ⟨hs.y1_nonneg, hs.y1_le_yt, c.yt.2⟩, hbent, hupright, hlayers _, ?_⟩
  rw [hbody, hfolds, houtline] at hbent
  rw [hupright]
  simp only [List.forall_mem_cons, List.not_mem_nil, IsEmpty.forall_iff, implies_true,
    and_true] at hbent ⊢
  exact hbent

/-- Adjusted as deep as it goes, with the widest panel and the tallest dip. -/
theorem deepRibbon_follows_arch :
    let f : Frame ℝ := ⟨80, 60, ⟨[("adj1", 50000), ("adj2", 90000), ("adj3", 50000)]⟩⟩
    let g := ArchGuides.ofFrame f
    0 < f.w ∧ 0 < f.h ∧
    (∀ b : Arch ℝ, 0 < b.width → b.CurvesExact) ∧
    (0 ≤ g.x2 ∧ g.x2 ≤ g.x3 ∧ g.x3 ≤ g.x4 ∧ g.x4 ≤ g.x5 ∧ g.x5 ≤ f.w) ∧
    (0 ≤ g.y1 ∧ g.y1 ≤ g.yt ∧ g.yt ≤ g.s) ∧
    (∀ sketch ∈ [(archedBanner f).body, (archedBanner f).folds, (archedBanner f).outline],
      ∀ l ∈ Path.empty.legs sketch, l.Bent g.arch f) ∧
    ∀ l ∈ LayeredPreset.ellipseRibbon.layers f, ∀ leg ∈ Path.empty.legs l.sketch,
      leg.Bent g.arch f := by
  intro f g
  have hw : 0 < f.w := by norm_num [f]
  have hh : 0 < f.h := by norm_num [f]
  obtain ⟨hexact, hacross, hdown, hbent, -, -, hlayers⟩ := archedRibbon_follows_arch hw hh
  exact ⟨hw, hh, hexact, hacross, hdown, hbent, hlayers⟩

end
end ShapeOutline
