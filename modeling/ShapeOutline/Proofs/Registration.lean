import Mathlib
import ShapeOutline.Custom
import ShapeOutline.Proofs.FiniteOrder

/-! Custom paths that are drawn together. Whatever numbers they are made of, a side
that a path does not declare is scaled as the same side of all others, so the paths
stay in register; and no drawing depends on the order of the paths or on how often
one of them occurs. -/

namespace ShapeOutline

open Scalar

variable {α : Type} [Scalar α]

theorem Scalar.max_eq_or (a b : α) : max a b = a ∨ max a b = b := by
  change (if isNaN a then b else if a < b then b else a) = a ∨
    (if isNaN a then b else if a < b then b else a) = b
  split_ifs <;> simp

theorem Scalar.isFinite_max {a b : α} (ha : isFinite a = true) (hb : isFinite b = true) :
    isFinite (max a b) = true := by
  rcases max_eq_or a b with h | h <;> rw [h] <;> assumption

theorem Point.isFinite_greatest {p q : Point α} (hp : p.isFinite = true) (hq : q.isFinite = true) :
    (p.greatest q).isFinite = true := by
  simp only [Point.isFinite, Bool.and_eq_true] at hp hq ⊢
  exact ⟨isFinite_max hp.1 hq.1, isFinite_max hp.2 hq.2⟩

namespace Extent

variable {e : Extent α} (h : e.reach.isFinite = true)
include h

theorem isFinite_goTo (p furthest : Point α) : (e.goTo p furthest).reach.isFinite = true := by
  unfold goTo reachTo
  split_ifs with hfinite
  · exact Point.isFinite_greatest h hfinite
  · exact h

/-- Whatever a command says, what is reached stays finite. -/
theorem isFinite_apply (c : Authored α) : (e.apply c).reach.isFinite = true := by
  cases c with
  | unknown => exact h
  | stroke s =>
    cases s with
    | move p => exact isFinite_goTo (e := { e with start := p }) h _ _
    | line p => exact isFinite_goTo h _ _
    | cubic a b p => exact isFinite_goTo h _ _
    | quad a p => exact isFinite_goTo h _ _
    | arc radii start sweep =>
      simp only [apply]
      split_ifs
      · exact h
      · exact isFinite_goTo h _ _
    | close => exact h

end Extent

theorem CustomPath.isFinite_reached [FiniteOrder α] (p : CustomPath α) :
    p.reached.isFinite = true := by
  have hrun (cs : List (Authored α)) {e : Extent α} (h : e.reach.isFinite = true) :
      (cs.foldl Extent.apply e).reach.isFinite = true := by
    induction cs generalizing e with
    | nil => exact h
    | cons c cs ih => exact ih (Extent.isFinite_apply h c)
  refine hrun p.commands ?_
  change (isFinite (0 : α) && isFinite (0 : α)) = true
  rw [FiniteOrder.isFinite_zero, Bool.and_self]

theorem FiniteOrder.irrefl [FiniteOrder α] {a : α} (ha : isFinite a = true) : ¬ a < a :=
  fun h => asymm ha ha h h

theorem Scalar.max_eq_ite [FiniteOrder α] {a : α} (ha : isFinite a = true) (b : α) :
    max a b = if a < b then b else a :=
  if_neg (by rw [FiniteOrder.isNaN_eq_false ha]; exact Bool.false_ne_true)

/-- The number `m` is `z` or an element of the list beyond `z`, and none is beyond `m`. -/
structure Tops (z : α) (es : List α) (m : α) : Prop where
  attained : m = z ∨ z < m ∧ m ∈ es
  upper : ∀ e ∈ es, ¬ m < e

namespace Tops

variable {z m n : α} {es fs : List α}

theorem isFinite (h : Tops z es m) (hz : Scalar.isFinite z = true)
    (hes : ∀ e ∈ es, Scalar.isFinite e = true) : Scalar.isFinite m = true := by
  rcases h.attained with rfl | ⟨-, hmem⟩
  · exact hz
  · exact hes m hmem

variable [FiniteOrder α]

theorem not_lt_start (h : Tops z es m) (hz : Scalar.isFinite z = true)
    (hes : ∀ e ∈ es, Scalar.isFinite e = true) : ¬ m < z := by
  have hm := h.isFinite hz hes
  rcases h.attained with rfl | ⟨hlt, -⟩
  · exact FiniteOrder.irrefl hz
  · exact FiniteOrder.asymm hz hm hlt

theorem cons_of_lt {e : α} (h : Tops e es m) (hz : Scalar.isFinite z = true)
    (he : Scalar.isFinite e = true) (hes : ∀ e ∈ es, Scalar.isFinite e = true) (hlt : z < e) :
    Tops z (e :: es) m where
  attained := by
    right
    rcases h.attained with rfl | ⟨-, hmem⟩
    · exact ⟨hlt, List.mem_cons_self⟩
    · have hm := h.isFinite he hes
      exact ⟨(FiniteOrder.lt_or_lt hz hm he hlt).resolve_right (h.not_lt_start he hes),
        List.mem_cons_of_mem e hmem⟩
  upper := List.forall_mem_cons.2 ⟨h.not_lt_start he hes, h.upper⟩

theorem cons_of_not_lt {e : α} (h : Tops z es m) (hz : Scalar.isFinite z = true)
    (he : Scalar.isFinite e = true) (hes : ∀ e ∈ es, Scalar.isFinite e = true) (hlt : ¬ z < e) :
    Tops z (e :: es) m where
  attained := h.attained.imp_right fun ⟨hzm, hmem⟩ => ⟨hzm, List.mem_cons_of_mem e hmem⟩
  upper := by
    refine List.forall_mem_cons.2 ⟨fun hme => ?_, h.upper⟩
    rcases FiniteOrder.lt_or_lt (h.isFinite hz hes) hz he hme with hmz | hze
    · exact h.not_lt_start hz hes hmz
    · exact hlt hze

theorem foldl_max (hz : Scalar.isFinite z = true) (hes : ∀ e ∈ es, Scalar.isFinite e = true) :
    Tops z es (es.foldl max z) := by
  induction es generalizing z with
  | nil => exact ⟨.inl rfl, fun _ h => nomatch h⟩
  | cons e es ih =>
    obtain ⟨he, hes⟩ := List.forall_mem_cons.1 hes
    rw [List.foldl_cons, max_eq_ite hz]
    split_ifs with hlt
    · exact (ih he hes).cons_of_lt hz he hes hlt
    · exact (ih hz hes).cons_of_not_lt hz he hes hlt

/-- Nothing but the elements matters for the greatest one above zero. -/
theorem unique (hm : Tops 0 es m) (hn : Tops 0 fs n) (hes : ∀ e ∈ es, Scalar.isFinite e = true)
    (hmem : ∀ e, e ∈ es ↔ e ∈ fs) : m = n := by
  have hfs : ∀ e ∈ fs, Scalar.isFinite e = true := fun e he => hes e ((hmem e).2 he)
  rcases hm.attained with rfl | ⟨hmpos, hmin⟩
  · rcases hn.attained with rfl | ⟨hnpos, hnin⟩
    · rfl
    · exact absurd hnpos (hm.upper n ((hmem n).2 hnin))
  · have hnm := hn.upper m ((hmem m).1 hmin)
    rcases hn.attained with rfl | ⟨hnpos, hnin⟩
    · exact absurd hmpos hnm
    · exact FiniteOrder.eq_of_pos (hes m hmin) (hfs n hnin) hmpos hnpos
        (hm.upper n ((hmem n).2 hnin)) hnm

end Tops

namespace CustomPath

/-- The path drawn at a scale. -/
def drawnAt (p : CustomPath α) (scale : Point α) : Path α :=
  (p.commands.foldl Tracing.apply (.ofScale scale)).out

/-- One axis of a path drawn with others: a declared size fills the target, and any other axis takes
the scale of all. -/
def sideScale (declared : Option α) (target common : α) : α :=
  ((validSize? declared).map (target / ·)).getD common

/-- The scale of the sides that no path declares. -/
def commonScale (ps : List (CustomPath α)) (w h : α) : Point α :=
  ⟨fit (dimensionOrZero w) (sharedExtent ps).x, fit (dimensionOrZero h) (sharedExtent ps).y⟩

theorem sharedExtent_eq (ps : List (CustomPath α)) :
    sharedExtent ps = ⟨(ps.map fun p => (p.extent none).x).foldl max 0,
      (ps.map fun p => (p.extent none).y).foldl max 0⟩ := by
  have hfold (z : Point α) : ps.foldl (fun shared p => shared.greatest (p.extent none)) z =
      ⟨(ps.map fun p => (p.extent none).x).foldl max z.x,
        (ps.map fun p => (p.extent none).y).foldl max z.y⟩ := by
    induction ps generalizing z with
    | nil => rfl
    | cons p ps ih => exact ih _
  exact hfold .zero

theorem isFinite_axisExtent (declared : Option α) {inferred : α} (h : isFinite inferred = true) :
    isFinite (axisExtent declared none inferred) = true := by
  unfold axisExtent
  cases hsize : validSize? declared with
  | none => exact h
  | some v => exact (validSize?_eq_some_iff.1 hsize).2.1

theorem validSize?_of_not_pos {v : α} (h : ¬ 0 < v) : validSize? (some v) = none := by
  simp [validSize?, h]

/-- A declared size makes the scale of all the others immaterial. -/
theorem sideScale_fit_axisExtent (declared : Option α) (target inferred : α) :
    sideScale declared target (fit target (axisExtent declared none inferred)) =
      fit target (axisExtent declared none inferred) := by
  unfold sideScale axisExtent
  cases hsize : validSize? declared with
  | none => rfl
  | some v => exact (if_pos (validSize?_eq_some_iff.1 hsize).2.2).symm

theorem resolve_eq_drawnAt (p : CustomPath α) (w h : α) (hint : Option (Point α)) :
    p.resolve w h hint = p.drawnAt (p.scale w h hint) := rfl

theorem length_resolveAll (ps : List (CustomPath α)) (w h : α) :
    (resolveAll ps w h).length = ps.length := List.length_map _

section

variable [FiniteOrder α]

theorem isFinite_extent (p : CustomPath α) :
    isFinite (p.extent none).x = true ∧ isFinite (p.extent none).y = true := by
  have h := p.isFinite_reached
  rw [Point.isFinite, Bool.and_eq_true] at h
  exact ⟨isFinite_axisExtent p.width h.1, isFinite_axisExtent p.height h.2⟩

/-- What a hint that tops the inferred extent does to a side. Where the hint is no size, the
inferred extent is none either. -/
theorem fit_axisExtent {declared : Option α} {inferred shared : α} (target : α)
    (hinferred : isFinite inferred = true) (hshared : isFinite shared = true)
    (hupper : ¬ shared < axisExtent declared none inferred) :
    fit target (axisExtent declared (some shared) inferred) =
      sideScale declared target (fit target shared) := by
  unfold sideScale
  unfold axisExtent at hupper ⊢
  cases hsize : validSize? declared with
  | some v => exact if_pos (validSize?_eq_some_iff.1 hsize).2.2
  | none =>
    rw [hsize] at hupper
    by_cases hpos : 0 < shared
    · rw [validSize?_eq_some_iff.2 ⟨rfl, hshared, hpos⟩]
      rfl
    · have hle : ¬ 0 < inferred := fun hlt =>
        (FiniteOrder.lt_or_lt FiniteOrder.isFinite_zero hshared hinferred hlt).elim hpos hupper
      rw [validSize?_of_not_pos hpos]
      exact (if_neg hle).trans (if_neg hpos).symm

theorem fit_max_zero (target e : α) : fit target (max 0 e) = fit target e := by
  rw [max_eq_ite FiniteOrder.isFinite_zero]
  split_ifs with h
  · rfl
  · exact (if_neg (FiniteOrder.irrefl FiniteOrder.isFinite_zero)).trans (if_neg h).symm

theorem tops_map {side : CustomPath α → α} (hside : ∀ p, isFinite (side p) = true)
    (ps : List (CustomPath α)) : Tops 0 (ps.map side) ((ps.map side).foldl max 0) :=
  .foldl_max FiniteOrder.isFinite_zero (List.forall_mem_map.2 fun p _ => hside p)

theorem foldl_max_congr {side : CustomPath α → α} (hside : ∀ p, isFinite (side p) = true)
    {ps qs : List (CustomPath α)} (hmem : ∀ p, p ∈ qs ↔ p ∈ ps) :
    (qs.map side).foldl max 0 = (ps.map side).foldl max 0 :=
  (tops_map hside qs).unique (tops_map hside ps) (List.forall_mem_map.2 fun p _ => hside p)
    fun e => by simp only [List.mem_map, hmem]

theorem sharedExtent_congr {ps qs : List (CustomPath α)} (hmem : ∀ p, p ∈ qs ↔ p ∈ ps) :
    sharedExtent qs = sharedExtent ps := by
  rw [sharedExtent_eq, sharedExtent_eq, foldl_max_congr (fun p => p.isFinite_extent.1) hmem,
    foldl_max_congr (fun p => p.isFinite_extent.2) hmem]

theorem scale_sharedExtent {ps : List (CustomPath α)} {p : CustomPath α} (hp : p ∈ ps) (w h : α) :
    p.scale w h (some (sharedExtent ps)) =
      ⟨sideScale p.width (dimensionOrZero w) (commonScale ps w h).x,
        sideScale p.height (dimensionOrZero h) (commonScale ps w h).y⟩ := by
  have hreached := p.isFinite_reached
  rw [Point.isFinite, Bool.and_eq_true] at hreached
  have hside {side : CustomPath α → α} (hfinite : ∀ p, isFinite (side p) = true) :
      isFinite ((ps.map side).foldl max 0) = true ∧ ¬ (ps.map side).foldl max 0 < side p :=
    ⟨(tops_map hfinite ps).isFinite FiniteOrder.isFinite_zero
      (List.forall_mem_map.2 fun q _ => hfinite q), (tops_map hfinite ps).upper _
        (List.mem_map_of_mem hp)⟩
  obtain ⟨hx, hxp⟩ := hside fun p => p.isFinite_extent.1
  obtain ⟨hy, hyp⟩ := hside fun p => p.isFinite_extent.2
  rw [commonScale, sharedExtent_eq]
  exact congrArg₂ Point.mk (fit_axisExtent _ hreached.1 hx hxp) (fit_axisExtent _ hreached.2 hy hyp)

theorem resolveAll_congr {ps qs : List (CustomPath α)} (hmem : ∀ p, p ∈ qs ↔ p ∈ ps) (w h : α) :
    resolveAll qs w h = qs.map (·.resolve w h (some (sharedExtent ps))) := by
  rw [resolveAll, sharedExtent_congr hmem]

/-- A path that is drawn alone has no extent but its own. -/
theorem scale_sharedExtent_singleton (p : CustomPath α) (w h : α) :
    p.scale w h (some (sharedExtent [p])) = p.scale w h none := by
  have hside (declared : Option α) (target inferred : α) :
      sideScale declared target (fit target (max 0 (axisExtent declared none inferred))) =
        fit target (axisExtent declared none inferred) := by
    rw [fit_max_zero, sideScale_fit_axisExtent]
  rw [scale_sharedExtent List.mem_cons_self]
  exact congrArg₂ Point.mk (hside ..) (hside ..)

end

/-- The paths keep in register when they are drawn together into a box of sides `w` and `h`. -/
structure Registered (ps : List (CustomPath α)) (w h : α) : Prop where
  scaled : resolveAll ps w h = ps.map fun p => p.drawnAt
    ⟨sideScale p.width (dimensionOrZero w) (commonScale ps w h).x,
      sideScale p.height (dimensionOrZero h) (commonScale ps w h).y⟩
  hinted : resolveAll ps w h = ps.map (·.resolve w h (some (sharedExtent ps)))
  permuted : ∀ σ : Equiv.Perm (Fin ps.length),
    resolveAll (List.ofFn fun i => ps.get (σ i)) w h =
      List.ofFn fun i => (resolveAll ps w h).get ((σ i).cast (length_resolveAll ps w h).symm)
  doubled : ∀ (k : ℕ) (i : Fin ps.length), resolveAll (ps.insertIdx k (ps.get i)) w h =
    (resolveAll ps w h).insertIdx k
      ((resolveAll ps w h).get (i.cast (length_resolveAll ps w h).symm))
  alone : ∀ p, ps = [p] → resolveAll ps w h = [p.resolve w h none]

theorem get_resolveAll (ps : List (CustomPath α)) (w h : α) (i : Fin ps.length) :
    (resolveAll ps w h).get (i.cast (length_resolveAll ps w h).symm) =
      (ps.get i).resolve w h (some (sharedExtent ps)) :=
  List.getElem_map _

/-- Paths of any numbers keep in register: they have one scale but for the sides that a path
declares, and neither their order nor a second copy of one changes how any of them is drawn. -/
theorem resolveAll_registered [FiniteOrder α] (ps : List (CustomPath α)) (w h : α) :
    Registered ps w h where
  scaled := List.map_congr_left fun p hp => by
    rw [resolve_eq_drawnAt, scale_sharedExtent hp]
  hinted := rfl
  permuted σ := by
    have hmem (p : CustomPath α) : p ∈ (List.ofFn fun i => ps.get (σ i)) ↔ p ∈ ps := by
      rw [List.mem_ofFn, List.mem_iff_get]
      exact (σ.surjective.exists (p := fun j => ps.get j = p)).symm
    rw [resolveAll_congr hmem, List.map_ofFn]
    exact congrArg List.ofFn (funext fun i => (get_resolveAll ps w h (σ i)).symm)
  doubled k i := by
    have hmem (p : CustomPath α) : p ∈ ps.insertIdx k (ps.get i) ↔ p ∈ ps := by
      constructor
      · intro h
        rcases List.eq_or_mem_of_mem_insertIdx h with rfl | h
        · exact List.get_mem ps i
        · exact h
      · exact fun h => List.subset_insertIdx ps k (ps.get i) h
    rw [resolveAll_congr hmem, List.map_insertIdx, get_resolveAll]
    rfl
  alone p hp := by
    subst hp
    rw [resolveAll, List.map_singleton, resolve_eq_drawnAt, scale_sharedExtent_singleton]
    rfl

theorem undefined_sides_registered :
    Registered [⟨none, some .undefined, [.stroke (.line ⟨.real 3, .real 4⟩)]⟩,
      ⟨some (.real 10), none, [.stroke (.line ⟨.undefined, .real 9⟩)]⟩]
      (.real 100) Extended.undefined :=
  resolveAll_registered _ _ _

end CustomPath

end ShapeOutline
