import Mathlib
import ShapeOutline.Proofs.DiagramFit
import ShapeOutline.Proofs.Lookup

/-! The children of a group, laid out in the parent. Whatever the children are, the
layout holds each of them once: in their own order, or, where three pies and three
circular arrows make a cycle, the arrows first. A child is placed by its own box, but
the pies of a cycle share one square, the largest in the middle of the parent. -/

namespace ShapeOutline

section Cycle

variable {α : Type}

/-- The child is of the preset with this name. -/
def DiagramShape.Named (c : DiagramShape α) (name : String) : Prop :=
  ∃ p, c.preset = some p ∧ CaseVariant p name

theorem DiagramShape.isPreset_iff {c : DiagramShape α} {name : String} :
    c.isPreset name = true ↔ c.Named name := by
  simp only [isPreset, Named, Option.any_eq_true, sameName_iff]

/-- A group is a cycle exactly if its children are of the cycle's presets, one by one. -/
theorem isCycle_iff {children : List (DiagramShape α)} :
    isCycle children = true ↔ List.Forall₂ DiagramShape.Named children cycleMembers := by
  rw [isCycle, Bool.and_eq_true, beq_iff_eq, List.all_eq_true, List.forall₂_iff_zip]
  simp only [DiagramShape.isPreset_iff, Prod.forall]

theorem length_of_isCycle {children : List (DiagramShape α)} (h : isCycle children = true) :
    children.length = 6 :=
  (isCycle_iff.1 h).length_eq

end Cycle

section Order

variable {α : Type} [Scalar α] (children : List (DiagramShape α)) (space parent : Box α)

/-- The children in their own order, each placed by its own box. -/
def placements : List (Placement α) :=
  children.mapIdx fun i c => ⟨i, c.box.map (·.remap space parent)⟩

theorem map_index_placements :
    (placements children space parent).map Placement.index = List.range children.length :=
  List.ext_getElem (by simp [placements]) (by simp [placements])

theorem placements_getElem? (i : ℕ) :
    (placements children space parent)[i]? =
      children[i]?.map fun c => ⟨i, c.box.map (·.remap space parent)⟩ :=
  List.getElem?_mapIdx

variable {children space parent} in
theorem eq_of_placements_getElem? {p : Placement α} {i : ℕ}
    (h : (placements children space parent)[i]? = some p) :
    p.index = i ∧ ∃ c, children[i]? = some c ∧ p.box = c.box.map (·.remap space parent) := by
  rw [placements_getElem?, Option.map_eq_some_iff] at h
  obtain ⟨c, hc, rfl⟩ := h
  exact ⟨rfl, c, hc, rfl⟩

/-- The placement of a pie in a cycle. -/
def Placement.central (p : Placement α) : Placement α := { p with box := some parent.centralSquare }

theorem layoutChildren_of_isCycle (h : isCycle children = true) :
    layoutChildren children space parent =
      ⟨(placements children space parent).drop 3 ++
        ((placements children space parent).take 3).map (·.central parent), true⟩ :=
  if_pos h

theorem layoutChildren_of_not_isCycle (h : ¬isCycle children = true) :
    layoutChildren children space parent = ⟨placements children space parent, false⟩ :=
  if_neg h

theorem layoutChildren_cycle : (layoutChildren children space parent).cycle = isCycle children := by
  by_cases h : isCycle children = true
  · rw [layoutChildren_of_isCycle _ _ _ h, h]
  · rw [layoutChildren_of_not_isCycle _ _ _ h, eq_false_of_ne_true h]

/-- The order of a layout: that of the children, the first three of a cycle put last. -/
theorem map_index_layoutChildren :
    (layoutChildren children space parent).children.map Placement.index =
      if isCycle children then
        (List.range children.length).drop 3 ++ (List.range children.length).take 3
      else List.range children.length := by
  split_ifs with h
  · rw [layoutChildren_of_isCycle _ _ _ h, ← map_index_placements children space parent,
      ← List.map_drop, ← List.map_take, List.map_append, List.map_map]
    rfl
  · rw [layoutChildren_of_not_isCycle _ _ _ h, map_index_placements]

theorem map_index_layoutChildren_perm :
    ((layoutChildren children space parent).children.map Placement.index).Perm
      (List.range children.length) := by
  rw [map_index_layoutChildren]
  split_ifs
  · exact List.perm_append_comm.trans (.of_eq (List.take_append_drop 3 _))
  · exact .refl _

/-- Every placement is of the child with its index: a pie of a cycle has the one square, and any
other child its own box. -/
theorem box_of_mem_layoutChildren {p : Placement α}
    (hp : p ∈ (layoutChildren children space parent).children) :
    ∃ c, children[p.index]? = some c ∧
      p.box = if isCycle children ∧ p.index < 3 then some parent.centralSquare
        else c.box.map (·.remap space parent) := by
  by_cases h : isCycle children = true
  · rw [layoutChildren_of_isCycle _ _ _ h, List.mem_append, List.mem_map] at hp
    rcases hp with hp | ⟨q, hq, rfl⟩
    · -- one of the arrows
      obtain ⟨j, hj⟩ := List.mem_iff_getElem?.1 hp
      rw [List.getElem?_drop] at hj
      obtain ⟨hi, c, hc, hbox⟩ := eq_of_placements_getElem? hj
      refine ⟨c, hi ▸ hc, ?_⟩
      rw [if_neg (by omega), hbox]
    · -- one of the pies
      obtain ⟨j, hj⟩ := List.mem_iff_getElem?.1 hq
      rw [List.getElem?_take] at hj
      obtain ⟨hj3, hj⟩ := Option.ite_none_right_eq_some.1 hj
      obtain ⟨hi, c, hc, -⟩ := eq_of_placements_getElem? hj
      have hindex : (q.central parent).index = j := hi
      refine ⟨c, hindex ▸ hc, ?_⟩
      rw [if_pos ⟨h, hindex ▸ hj3⟩]
      rfl
  · rw [layoutChildren_of_not_isCycle _ _ _ h] at hp
    obtain ⟨j, hj⟩ := List.mem_iff_getElem?.1 hp
    obtain ⟨hi, c, hc, hbox⟩ := eq_of_placements_getElem? hj
    refine ⟨c, hi ▸ hc, ?_⟩
    rw [if_neg (fun hpie => h hpie.1), hbox]

end Order

noncomputable section

namespace Box

/-- The square in the middle of a box that no square within the box exceeds. -/
structure LargestSquare (square b : Box ℝ) : Prop where
  sides : square.extent.x = square.extent.y
  nonneg : 0 ≤ square.extent.x
  inside : square.region ⊆ b.region
  centred : square.center = b.center
  largest : ∀ other : Box ℝ, |other.extent.x| = |other.extent.y| → other.region ⊆ b.region →
    |other.extent.x| ≤ square.extent.x

theorem LargestSquare.unique {s t b : Box ℝ} (hs : s.LargestSquare b) (ht : t.LargestSquare b) :
    s = t := by
  have hle {s t : Box ℝ} (hs : s.LargestSquare b) (ht : t.LargestSquare b) :
      s.extent.x ≤ t.extent.x :=
    (le_abs_self _).trans (ht.largest s (congrArg abs hs.sides) hs.inside)
  have hx : s.extent.x = t.extent.x := le_antisymm (hle hs ht) (hle ht hs)
  have hextent : s.extent = t.extent := Point.ext hx (hs.sides.symm.trans (hx.trans ht.sides))
  have hoffset : s.offset = t.offset := by
    refine Axis.ext fun a => ?_
    have hcenter : a.of s.center = a.of t.center := by rw [hs.centred, ht.centred]
    rw [of_center, of_center, hextent] at hcenter
    exact add_right_cancel hcenter
  cases s
  cases t
  exact congrArg₂ Box.mk hoffset hextent

/-- A box within another one is no longer on either axis. -/
theorem abs_extent_le_of_region_subset {b c : Box ℝ} (h : c.region ⊆ b.region) (a : Axis) :
    |a.of c.extent| ≤ |a.of b.extent| := by
  have hoffset := mem_region_iff.1 (h c.offset_mem_region) a
  have hfar := mem_region_iff.1 (h c.far_mem_region) a
  rw [c.of_far] at hfar
  rw [abs_le] at hoffset hfar ⊢
  constructor
  all_goals linarith [abs_nonneg (a.of b.extent)]

theorem of_centralSquare_extent (a : Axis) (b : Box ℝ) :
    a.of b.centralSquare.extent = min b.extent.x b.extent.y := by
  cases a <;> exact Scalar.min_real _ _

theorem center_centralSquare (b : Box ℝ) : b.centralSquare.center = b.center := by
  refine Axis.ext fun a => ?_
  have hoffset : a.of b.centralSquare.offset =
      a.of b.offset + (a.of b.extent - a.of b.centralSquare.extent) / 2 := by
    cases a <;> rfl
  rw [of_center, of_center, hoffset]
  ring

theorem largestSquare_centralSquare {b : Box ℝ} (hb : ∀ a : Axis, 0 ≤ a.of b.extent) :
    b.centralSquare.LargestSquare b := by
  have hside : b.centralSquare.extent.x = min b.extent.x b.extent.y := of_centralSquare_extent .x b
  have hmin : 0 ≤ min b.extent.x b.extent.y := le_min (hb .x) (hb .y)
  refine ⟨rfl, hside ▸ hmin, fun p hp => ?_, b.center_centralSquare, fun other hsquare hin => ?_⟩
  · rw [mem_region_iff] at hp ⊢
    intro a
    have hle : min b.extent.x b.extent.y ≤ a.of b.extent := by
      cases a
      · exact min_le_left _ _
      · exact min_le_right _ _
    have hpa := hp a
    rw [center_centralSquare, of_centralSquare_extent, abs_of_nonneg hmin] at hpa
    rw [abs_of_nonneg (hb a)]
    linarith
  · have hx := abs_extent_le_of_region_subset hin .x
    have hy := abs_extent_le_of_region_subset hin .y
    rw [abs_of_nonneg (hb .x)] at hx
    rw [abs_of_nonneg (hb .y)] at hy
    rw [hside]
    exact le_min hx (hsquare.trans_le hy)

end Box

/-- A layout holds every child once. It is a cycle exactly for three pies and then three circular
arrows, whose arrows come first and whose pies all have the largest square in the middle of the
parent; any other group keeps its order. Every child but these pies has its own box, mapped from
the space to the parent, and none if it came without. -/
theorem layout_holds_children (children : List (DiagramShape ℝ)) (space parent : Box ℝ)
    (hparent : ∀ a : Axis, 0 ≤ a.of parent.extent) :
    let layout := layoutChildren children space parent
    let indices := layout.children.map Placement.index
    indices.Perm (List.range children.length) ∧
      (layout.cycle = true ↔ List.Forall₂ DiagramShape.Named children
        ["pie", "pie", "pie", "circularArrow", "circularArrow", "circularArrow"]) ∧
      (layout.cycle = false → indices = List.range children.length) ∧
      (layout.cycle = true → indices = [3, 4, 5, 0, 1, 2]) ∧
      ∃ square : Box ℝ, square.LargestSquare parent ∧
        ∀ p ∈ layout.children, ∃ c, children[p.index]? = some c ∧
          if layout.cycle = true ∧ p.index < 3 then p.box = some square
          else p.box = c.box.map (·.remap space parent) ∧ (p.box = none ↔ c.box = none) := by
  intro layout indices
  have hcycle : layout.cycle = isCycle children := layoutChildren_cycle children space parent
  have hindices := map_index_layoutChildren children space parent
  rw [hcycle]
  refine ⟨map_index_layoutChildren_perm children space parent, isCycle_iff, fun h => ?_, fun h => ?_,
    parent.centralSquare, Box.largestSquare_centralSquare hparent, fun p hp => ?_⟩
  · rwa [if_neg (ne_true_of_eq_false h)] at hindices
  · rwa [if_pos h, length_of_isCycle h] at hindices
  · obtain ⟨c, hc, hbox⟩ := box_of_mem_layoutChildren children space parent hp
    refine ⟨c, hc, ?_⟩
    split_ifs at hbox ⊢ with hpie
    · exact hbox
    · exact ⟨hbox, by rw [hbox, Option.map_eq_none_iff]⟩

/-- A cycle whose presets are written in several ways, some of them without a box. -/
def scatteredCycle : List (DiagramShape ℝ) :=
  [⟨some ⟨⟨0, 0⟩, ⟨4, 4⟩⟩, some "pie"⟩, ⟨none, some "PIE"⟩, ⟨none, some "Pie"⟩,
    ⟨some ⟨⟨5, 5⟩, ⟨1, 2⟩⟩, some "circularArrow"⟩, ⟨none, some "CIRCULARARROW"⟩,
    ⟨none, some "circulararrow"⟩]

theorem scatteredCycle_isCycle : isCycle scatteredCycle = true := by
  have hnamed {box : Option (Box ℝ)} {p name : String} (h : sameName p name = true) :
      (⟨box, some p⟩ : DiagramShape ℝ).Named name := ⟨p, rfl, sameName_iff.1 h⟩
  refine isCycle_iff.2 (.cons (hnamed ?_) (.cons (hnamed ?_) (.cons (hnamed ?_)
    (.cons (hnamed ?_) (.cons (hnamed ?_) (.cons (hnamed ?_) .nil)))))) <;> cbv

theorem scatteredCycle_layout :
    (∀ a : Axis, 0 ≤ a.of wideFrame.extent) ∧
      (layoutChildren scatteredCycle ⟨⟨0, 0⟩, ⟨10, 10⟩⟩ wideFrame).cycle = true ∧
      (layoutChildren scatteredCycle ⟨⟨0, 0⟩, ⟨10, 10⟩⟩ wideFrame).children.map Placement.index =
        [3, 4, 5, 0, 1, 2] ∧
      ∃ square : Box ℝ, square.LargestSquare wideFrame ∧
        ∀ p ∈ (layoutChildren scatteredCycle ⟨⟨0, 0⟩, ⟨10, 10⟩⟩ wideFrame).children,
          p.index < 3 → p.box = some square := by
  have hwide : ∀ a : Axis, 0 ≤ a.of wideFrame.extent := by
    intro a
    cases a <;> norm_num [Axis.of, wideFrame]
  have hcycle := (layoutChildren_cycle scatteredCycle ⟨⟨0, 0⟩, ⟨10, 10⟩⟩ wideFrame).trans
    scatteredCycle_isCycle
  obtain ⟨-, -, -, horder, square, hsquare, hbox⟩ :=
    layout_holds_children scatteredCycle ⟨⟨0, 0⟩, ⟨10, 10⟩⟩ wideFrame hwide
  refine ⟨hwide, hcycle, horder hcycle, square, hsquare, fun p hp hpie => ?_⟩
  obtain ⟨c, -, hplace⟩ := hbox p hp
  rwa [if_pos ⟨hcycle, hpie⟩] at hplace

end

end ShapeOutline
