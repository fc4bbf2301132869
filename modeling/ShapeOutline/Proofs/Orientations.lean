import Mathlib
import ShapeOutline.Proofs.ArrowHead
import ShapeOutline.Proofs.Lookup
import ShapeOutline.Proofs.Mirror
import ShapeOutline.Proofs.Trace

/-! Presets that are one drawing in several orientations. A reflected sketch is written
with the reflected commands, one for one, as long as the reflection does not change
which arcs are written in halves; so the presets of a family are found to be reflected
sketches of one another, those of a frame lying on its side included. -/

namespace ShapeOutline
noncomputable section

open Shape (Facing)

/-- The image of a command under a map that reverses the direction of turns. -/
def Command.mirror (point radii : Point ℝ → Point ℝ) : Command ℝ → Command ℝ
  | .move p => .move (point p)
  | .line p => .line (point p)
  | .cubic a b p => .cubic (point a) (point b) (point p)
  | .quad a p => .quad (point a) (point p)
  | .arc r rotation large sweep p => .arc (radii r) rotation large (!sweep) (point p)
  | .close => .close

/-- A stroke that is written whole, wherever it is drawn. -/
def Stroke.Short : Stroke ℝ → Prop
  | .arc _ _ sweep => |sweep| ≤ 180
  | _ => True

namespace Reflection

variable (t : Reflection ℝ)

theorem command_of_reverses (h : t.reverses = true) :
    t.command = Command.mirror t.point t.radii := by
  funext c
  cases c with
  | arc r rotation large sweep p => simp only [command, Command.mirror, h, Bool.xor_true]
  | _ => rfl

/-- The reflection exchanges the axes at most. -/
def KeepsText : Prop := t.flipX = none ∧ t.flipY = none

variable {t}

theorem KeepsText.sameText (h : t.KeepsText) (a b : Point ℝ) :
    (t.point a).sameText (t.point b) = a.sameText b := by
  obtain ⟨hx, hy⟩ := h
  simp only [point, hx, hy, flip]
  split_ifs
  · exact Bool.and_comm ..
  · rfl

theorem abs_turn (sweep : ℝ) : |t.likeness.turn sweep| = |sweep| := by
  unfold Likeness.turn turned
  split_ifs <;> simp

/-- An arc is written in halves exactly if its image is. -/
theorem cuts_image {sweep : ℝ} (h : |sweep| ≤ 180 ∨ t.KeepsText) (pen target : Point ℝ) :
    cuts (t.likeness.turn sweep) (t.point pen) (t.point target) =
      (cuts sweep pen target).map t.likeness.turn := by
  have hneeds : needsHalves (t.likeness.turn sweep) (t.point pen) (t.point target) =
      needsHalves sweep pen target := by
    rw [Bool.eq_iff_iff, needsHalves_iff, needsHalves_iff, abs_turn]
    rcases h with h | h
    · have hlow : ¬360 ≤ |sweep| := by linarith
      have hshort : ¬180 < |sweep| := not_lt.2 h
      simp only [hlow, hshort, false_and, or_self]
    · rw [h.sameText]
  refine t.likeness.cuts_turn ?_
  rw [cuts, hneeds, cuts]
  split_ifs <;> rfl

end Reflection

section Commands

variable {t : Reflection ℝ} {p q : Path ℝ}

/-- A stroke and its reflection write images, command for command. -/
theorem Mirrored.added (h : Mirrored t p q) (c : Stroke ℝ) (hc : c.Short ∨ t.KeepsText) :
    q.added (t.stroke c) = (p.added c).map t.command := by
  have himages := h.alike.added c
  rw [t.likeness_stroke, t.likeness_command] at himages
  refine himages.pieces ?_
  have hpush (c : Command ℝ) : ((q.push (t.command c)).commands.drop q.commands.length).length =
      ((p.push c).commands.drop p.commands.length).length := by
    rw [Path.added_push, Path.added_push, List.length_singleton, List.length_singleton]
  cases c with
  | move a => exact hpush (.move a)
  | line a => exact hpush (.line a)
  | cubic a b c => exact hpush (.cubic a b c)
  | quad a b => exact hpush (.quad a b)
  | close => exact hpush .close
  | arc r start sweep =>
    have himage := t.likeness.isDegenerate_image r sweep
    rw [← t.likeness_stroke]
    change (q.added (.arc (t.likeness.radii r) (t.likeness.angle start)
      (t.likeness.turn sweep))).length = _
    cases hd : isDegenerate r sweep with
    | true =>
      simp only [Path.added, Path.stroke, Path.arcTo_degenerate p start hd,
        Path.arcTo_degenerate q _ (himage.trans hd), List.drop_length]
    | false =>
      have hr := (isDegenerate_eq_false.1 hd).1
      have hdrawn : |drawnSweep sweep| ≤ 180 ∨ t.KeepsText := by
        refine hc.imp_left fun hshort : |sweep| ≤ 180 => ?_
        rwa [drawnSweep_of_abs_le (hshort.trans (by norm_num))]
      have hpen : q.pen = t.likeness.point p.pen := h.pen
      have hcuts := Reflection.cuts_image hdrawn p.pen (arcEnd p.pen r start (drawnSweep sweep))
      have hend := t.likeness.point_arcEnd hr p.pen start (drawnSweep sweep)
      rw [Path.added_arc q _ (himage.trans hd), Path.added_arc p start hd, length_arcChain,
        length_arcChain, hpen, t.likeness.turn_drawnSweep, hend]
      exact (congrArg List.length hcuts).trans (List.length_map _)

theorem Mirrored.groups_eq (s : Sketch ℝ) (h : Mirrored t p q)
    (hs : (∀ c ∈ s, c.Short) ∨ t.KeepsText) :
    q.groups (s.reflect t) = (p.groups s).map (List.map t.command) := by
  induction s generalizing p q with
  | nil => rfl
  | cons c rest ih =>
    have hc : c.Short ∨ t.KeepsText := hs.imp_left fun h => h c List.mem_cons_self
    have hrest : (∀ c ∈ rest, c.Short) ∨ t.KeepsText :=
      hs.imp_left fun h c' hc' => h c' (List.mem_cons_of_mem c hc')
    have hnext : Mirrored t (p.stroke c) (q.stroke (t.stroke c)) := h.draw [c]
    change q.added (t.stroke c) :: (q.stroke (t.stroke c)).groups (Sketch.reflect t rest) = _
    rw [h.added c hc, ih hnext hrest]
    rfl

/-- A sketch that begins with a move is reflected command for command. -/
theorem Sketch.reflect_commands (a : Point ℝ) (s : Sketch ℝ)
    (hs : (∀ c ∈ s, c.Short) ∨ t.KeepsText) :
    (Sketch.path (Sketch.reflect t (.move a :: s))).commands =
      (Sketch.path (.move a :: s)).commands.map t.command := by
  have hmove : Mirrored t (Path.empty.push (.move a)) (Path.empty.push (.move (t.point a))) :=
    ⟨rfl, rfl⟩
  change ((Path.empty.push (.move (t.point a))).draw (Sketch.reflect t s)).commands =
    ((Path.empty.push (.move a)).draw s).commands.map t.command
  rw [Path.draw_commands, Path.draw_commands, hmove.groups_eq s hs, List.map_append,
    List.map_flatten]
  rfl

end Commands

/-- A layer painted alike, whose commands are the images. -/
structure Layer.Images (m : Command ℝ → Command ℝ) (l l' : Layer ℝ) : Prop where
  mode : l'.mode = l.mode
  stroked : l'.stroked = l.stroked
  silhouette : l'.silhouette = l.silhouette
  commands : l'.path.commands = l.path.commands.map m

/-- The second drawing is written with the images of the commands of the first one, layer by
layer. -/
def Drawing.Images (m : Command ℝ → Command ℝ) : Drawing ℝ → Drawing ℝ → Prop
  | .single s, .single s' => s'.path.commands = s.path.commands.map m
  | .layered ls, .layered ls' => List.Forall₂ (Layer.Images m) ls ls'
  | _, _ => False

def Layer.reflect (t : Reflection ℝ) (l : Layer ℝ) : Layer ℝ :=
  { l with sketch := l.sketch.reflect t }

namespace Drawing

def reflect (t : Reflection ℝ) : Drawing ℝ → Drawing ℝ
  | single s => single (s.reflect t)
  | layered ls => layered (ls.map (Layer.reflect t))

def sketches : Drawing ℝ → List (Sketch ℝ)
  | single s => [s]
  | layered ls => ls.map Layer.sketch

end Drawing

def Sketch.Opens (s : Sketch ℝ) : Prop := ∃ a rest, s = .move a :: rest

namespace Drawing

variable (d : Drawing ℝ)

/-- Every sketch begins with a move. -/
def Opens : Prop := ∀ s ∈ d.sketches, s.Opens

/-- No stroke may have to be written in halves. -/
def Short : Prop := ∀ s ∈ d.sketches, ∀ c ∈ s, c.Short

variable {d} {t : Reflection ℝ}

theorem sketches_reflect : (d.reflect t).sketches = d.sketches.map (Sketch.reflect t) := by
  cases d with
  | single s => rfl
  | layered ls => simp [reflect, sketches, Layer.reflect]

theorem Opens.reflect (h : d.Opens) : (d.reflect t).Opens := by
  intro s hs
  rw [sketches_reflect] at hs
  obtain ⟨s', hs', rfl⟩ := List.mem_map.1 hs
  obtain ⟨a, rest, rfl⟩ := h s' hs'
  exact ⟨t.point a, Sketch.reflect t rest, rfl⟩

theorem Short.reflect (h : d.Short) : (d.reflect t).Short := by
  intro s hs c hc
  rw [sketches_reflect] at hs
  obtain ⟨s', hs', rfl⟩ := List.mem_map.1 hs
  obtain ⟨c', hc', rfl⟩ := List.mem_map.1 hc
  have hshort := h s' hs' c' hc'
  cases c' with
  | arc r start sweep =>
    rw [← t.likeness_stroke]
    exact (Reflection.abs_turn sweep).trans_le hshort
  | _ => trivial

theorem images_reflect (hopens : d.Opens) (hs : d.Short ∨ t.KeepsText) :
    d.Images t.command (d.reflect t) := by
  have hcommands (s : Sketch ℝ) (hmem : s ∈ d.sketches) :
      (s.reflect t).path.commands = s.path.commands.map t.command := by
    obtain ⟨a, rest, rfl⟩ := hopens s hmem
    exact Sketch.reflect_commands a rest
      (hs.imp_left fun h c hc => h _ hmem c (List.mem_cons_of_mem _ hc))
  cases d with
  | single s => exact hcommands s List.mem_cons_self
  | layered ls =>
    refine List.forall₂_map_right_iff.2 (List.forall₂_same.2 fun l hl => ⟨rfl, rfl, rfl, ?_⟩)
    exact hcommands l.sketch (List.mem_map_of_mem hl)

theorem reflect_identity : d.reflect .identity = d := by
  cases d with
  | single s => exact congrArg single (ShapeOutline.reflect_identity s)
  | layered ls =>
    have hlayer : Layer.reflect .identity = id := by
      funext l
      simp [Layer.reflect, ShapeOutline.reflect_identity]
    rw [reflect, hlayer, List.map_id]

/-- Over the bottom of a drawing on its side. -/
theorem reflect_transpose_upsideDown (h : ℝ) :
    (d.reflect .transpose).reflect (.upsideDown h) =
      d.reflect { Reflection.transpose with flipY := some h } := by
  have hsketch (s : Sketch ℝ) : (s.reflect .transpose).reflect (.upsideDown h) =
      s.reflect { Reflection.transpose with flipY := some h } := by
    rw [Sketch.reflect, Sketch.reflect, Sketch.reflect, List.map_map]
    refine List.map_congr_left fun c _ => ?_
    cases c <;> rfl
  cases d with
  | single s => exact congrArg single (hsketch s)
  | layered ls =>
    simp only [reflect, List.map_map]
    refine congrArg layered (List.map_congr_left fun l _ => ?_)
    simp [Layer.reflect, hsketch]

theorem images_transpose (hopens : d.Opens) :
    d.Images (Command.mirror Point.transpose Point.transpose) (d.reflect .transpose) := by
  have h := images_reflect hopens (.inr (show Reflection.transpose.KeepsText from ⟨rfl, rfl⟩))
  rwa [Reflection.command_of_reverses _ rfl] at h

theorem images_upsideDown (hopens : d.Opens) (hshort : d.Short) (h : ℝ) :
    d.Images (Command.mirror (fun p => ⟨p.x, h - p.y⟩) id) (d.reflect (.upsideDown h)) := by
  have himages := images_reflect (t := .upsideDown h) hopens (.inl hshort)
  rwa [Reflection.command_of_reverses _ rfl] at himages

theorem images_leftRight (hopens : d.Opens) (hshort : d.Short) (w : ℝ) :
    d.Images (Command.mirror (fun p => ⟨w - p.x, p.y⟩) id) (d.reflect (.leftRight w)) := by
  have himages := images_reflect (t := .leftRight w) hopens (.inl hshort)
  rwa [Reflection.command_of_reverses _ rfl] at himages

end Drawing

/-- The frame lying on its side. -/
def Frame.onSide (f : Frame ℝ) : Frame ℝ := ⟨f.h, f.w, f.adjustments⟩

namespace Shape.Facing

variable (d : Facing) (f : Frame ℝ)

@[simp] theorem lying_ss : (d.lying f).ss = f.ss := by
  cases d <;> simp [lying, Frame.ss, Scalar.min_real, along, across, min_comm]

@[simp] theorem lying_shortPart (a : ℝ) : (d.lying f).shortPart a = f.shortPart a := by
  simp only [Frame.shortPart, lying_ss]

@[simp] theorem lying_pinned (name : String) (default lo hi : ℝ) :
    (d.lying f).pinned name default lo hi = f.pinned name default lo hi := rfl

/-- Arrows that are designed pointing right: the others are the one in the frame lying along them,
reflected. -/
structure Family (draw : Facing → Frame ℝ → Drawing ℝ) : Prop where
  reflected : ∀ d f, draw d f = (draw right (d.lying f)).reflect (d.reflection f)
  opens : ∀ f, (draw right f).Opens
  short : ∀ f, (draw right f).Short

namespace Family

variable {draw : Facing → Frame ℝ → Drawing ℝ} (h : Family draw)

include h

theorem down_images :
    (draw right f.onSide).Images (Command.mirror Point.transpose Point.transpose)
      (draw down f) := by
  rw [h.reflected down f]
  exact Drawing.images_transpose (h.opens _)

theorem up_images :
    (draw down f).Images (Command.mirror (fun p => ⟨p.x, f.h - p.y⟩) id) (draw up f) := by
  have hup : draw up f = (draw down f).reflect (.upsideDown f.h) := by
    rw [h.reflected up f, h.reflected down f]
    exact (Drawing.reflect_transpose_upsideDown f.h).symm
  have hdown := h.reflected down f
  rw [hup]
  exact Drawing.images_upsideDown (hdown ▸ (h.opens _).reflect) (hdown ▸ (h.short _).reflect) f.h

theorem left_images :
    (draw right f).Images (Command.mirror (fun p => ⟨f.w - p.x, p.y⟩) id) (draw left f) := by
  rw [h.reflected left f]
  exact Drawing.images_leftRight (h.opens f) (h.short f) f.w

end Family

end Shape.Facing

namespace Shape

open Sketch (polygon)

theorem polygon_short (ps : List (Point ℝ)) : ∀ c ∈ polygon ps, c.Short := by
  have hlines (qs : List (Point ℝ)) : ∀ c ∈ Sketch.lines qs, c.Short := by
    intro c hc
    obtain ⟨q, -, rfl⟩ := List.mem_map.1 hc
    trivial
  cases ps with
  | nil => exact fun c hc => absurd hc List.not_mem_nil
  | cons p ps =>
    intro c hc
    rcases List.mem_cons.1 hc with rfl | hc
    · trivial
    · rcases List.mem_append.1 hc with hc | hc
      · exact hlines ps c hc
      · rw [List.mem_singleton.1 hc]
        trivial

namespace Facing

variable (d : Facing) (f : Frame ℝ)

theorem lying_shortRatio (length : ℝ) : shortRatio (d.lying f) length = shortRatio f length := by
  simp only [shortRatio, lying_ss]

theorem lying_arrowGuides (h most : ℝ) :
    ArrowGuides.ofFrame (d.lying f) h most = ArrowGuides.ofFrame f h most := by
  simp only [ArrowGuides.ofFrame, lying_shortPart, lying_pinned]

theorem lying_calloutGuides (h room mostHead box : ℝ) :
    CalloutGuides.ofFrame (d.lying f) h room mostHead box =
      CalloutGuides.ofFrame f h room mostHead box := by
  simp only [CalloutGuides.ofFrame, lying_shortPart, lying_pinned, lying_ss]

/-- Polygons are a family if each is a reflected one. -/
theorem family_of_polygon {draw : Facing → Frame ℝ → Sketch ℝ}
    (hright : ∀ f, ∃ p ps, draw right f = polygon (p :: ps))
    (h : ∀ d f, draw d f = (draw right (d.lying f)).reflect (d.reflection f)) :
    Family fun d f => .single (draw d f) := by
  refine ⟨fun d f => congrArg Drawing.single (h d f), fun f s hs => ?_, fun f s hs => ?_⟩
  · obtain ⟨p, ps, hp⟩ := hright f
    rw [List.mem_singleton.1 hs, hp]
    exact ⟨_, _, rfl⟩
  · obtain ⟨p, ps, hp⟩ := hright f
    rw [List.mem_singleton.1 hs, hp]
    exact polygon_short _

/-- The arrow that points right is not reflected. -/
theorem eq_reflect_of_design {s s' : Sketch ℝ} {t : Reflection ℝ}
    (h : s' = Sketch.reflect t s) : s' = Sketch.reflect t (s.reflect .identity) := by
  rw [reflect_identity, h]

theorem blockArrow_family : Family fun d f => .single (blockArrow d f) := by
  refine family_of_polygon (fun f => ⟨_, _, reflect_identity _⟩) fun d f => ?_
  refine eq_reflect_of_design ?_
  rw [blockArrow, lying_arrowGuides, lying_shortRatio]
  rfl

theorem twoHeadedArrow_family : Family fun d f => .single (twoHeadedArrow d f) := by
  refine family_of_polygon (fun f => ⟨_, _, reflect_identity _⟩) fun d f => ?_
  refine eq_reflect_of_design ?_
  rw [twoHeadedArrow, lying_arrowGuides, lying_shortRatio]
  rfl

theorem arrowCallout_family : Family fun d f => .single (arrowCallout d f) := by
  refine family_of_polygon (fun f => ⟨_, _, reflect_identity _⟩) fun d f => ?_
  refine eq_reflect_of_design ?_
  rw [arrowCallout, lying_calloutGuides, lying_ss]
  rfl

theorem twoHeadedCallout_family : Family fun d f => .single (twoHeadedCallout d f) := by
  refine family_of_polygon (fun f => ⟨_, _, reflect_identity _⟩) fun d f => ?_
  refine eq_reflect_of_design ?_
  rw [twoHeadedCallout, lying_calloutGuides, lying_ss]
  rfl

theorem lying_curveGuides (w h : ℝ) :
    Layered.CurveGuides.ofFrame (d.lying f) w h = Layered.CurveGuides.ofFrame f w h := by
  simp only [Layered.CurveGuides.ofFrame, lying_ss, lying_pinned]

theorem curvedArrow_family : Family fun d f => .layered (Layered.curvedArrow d f) := by
  have hright (f : Frame ℝ) : Layered.curvedArrow right f =
      let g := Layered.CurveGuides.ofFrame f f.w f.h
      [.fill (g.band f.w f.h) .normal, .shade g.back .darkenLess, .stroke (g.band f.w f.h)] := by
    simp only [Layered.curvedArrow, reflection, reflect_identity, along_right, across]
  refine ⟨fun d f => ?_, fun f => ?_, fun f => ?_⟩
  · rw [hright, lying_curveGuides]
    rfl
  · rw [hright]
    simp only [Drawing.Opens, Drawing.sketches, List.map_cons, List.map_nil, List.forall_mem_cons]
    exact ⟨⟨_, _, rfl⟩, ⟨_, _, rfl⟩, ⟨_, _, rfl⟩, by simp⟩
  · rw [hright]
    simp only [Drawing.Short, Drawing.sketches, List.map_cons, List.map_nil, List.forall_mem_cons,
      Layer.fill, Layer.shade, Layer.stroke, Layered.CurveGuides.band, Layered.CurveGuides.back,
      Stroke.Short]
    norm_num

end Facing

end Shape

namespace Layered

theorem Banner.layers_reflect (g : Banner ℝ) (t : Reflection ℝ) :
    Drawing.layered (g.layers t) = (Drawing.layered (g.layers .identity)).reflect t := by
  simp only [layers, reflect_identity]
  rfl

theorem Banner.layers_opens {g : Banner ℝ} (hbody : g.body.Opens) (hfolds : g.folds.Opens)
    (houtline : g.outline.Opens) : (Drawing.layered (g.layers .identity)).Opens := by
  simp only [Drawing.Opens, Drawing.sketches, layers, reflect_identity, List.map_cons,
    List.map_nil, List.forall_mem_cons]
  exact ⟨hbody, hfolds, houtline, by simp⟩

theorem ribbonBanner_opens (f : Frame ℝ) :
    (Drawing.layered ((ribbonBanner f).layers .identity)).Opens :=
  Banner.layers_opens ⟨_, _, rfl⟩ ⟨_, _, rfl⟩ ⟨_, _, rfl⟩

theorem archedBanner_opens (f : Frame ℝ) :
    (Drawing.layered ((archedBanner f).layers .identity)).Opens :=
  Banner.layers_opens ⟨_, _, rfl⟩ ⟨_, _, rfl⟩ ⟨_, _, rfl⟩

theorem scrollBanner_opens (f : Frame ℝ) (w h : ℝ) :
    (Drawing.layered ((scrollBanner f w h).layers .identity)).Opens :=
  Banner.layers_opens ⟨_, _, rfl⟩ ⟨_, _, rfl⟩ ⟨_, _, rfl⟩

theorem ribbonBanner_short (f : Frame ℝ) :
    (Drawing.layered ((ribbonBanner f).layers .identity)).Short := by
  simp only [Drawing.Short, Drawing.sketches, Banner.layers, reflect_identity, Layer.fill,
    Layer.shade, Layer.stroke, ribbonBanner, ribbonBody, List.cons_append, List.nil_append,
    List.map_cons, List.map_nil, List.forall_mem_cons, Stroke.Short]
  norm_num

theorem archedBanner_short (f : Frame ℝ) :
    (Drawing.layered ((archedBanner f).layers .identity)).Short := by
  simp only [Drawing.Short, Drawing.sketches, Banner.layers, reflect_identity, Layer.fill,
    Layer.shade, Layer.stroke, archedBanner, ArchGuides.body, ArchGuides.fold, ArchGuides.seams,
    Arch.start, Arch.line, Arch.curve, List.cons_append, List.nil_append, List.map_cons,
    List.map_nil, List.forall_mem_cons, Stroke.Short]
  norm_num

theorem ribbon2_images (f : Frame ℝ) :
    (Drawing.layered (ribbon f)).Images (Command.mirror (fun p => ⟨p.x, f.h - p.y⟩) id)
      (.layered (ribbon2 f)) := by
  have hreflect : Drawing.layered (ribbon2 f) =
      (Drawing.layered (ribbon f)).reflect (.upsideDown f.h) := Banner.layers_reflect ..
  rw [hreflect]
  exact Drawing.images_upsideDown (ribbonBanner_opens f) (ribbonBanner_short f) f.h

theorem ellipseRibbon2_images (f : Frame ℝ) :
    (Drawing.layered (ellipseRibbon f)).Images (Command.mirror (fun p => ⟨p.x, f.h - p.y⟩) id)
      (.layered (ellipseRibbon2 f)) := by
  have hreflect : Drawing.layered (ellipseRibbon2 f) =
      (Drawing.layered (ellipseRibbon f)).reflect (.upsideDown f.h) := Banner.layers_reflect ..
  rw [hreflect]
  exact Drawing.images_upsideDown (archedBanner_opens f) (archedBanner_short f) f.h

/-- The three quarter turns of a scroll may be written in halves, but on its side in the same
halves. -/
theorem horizontalScroll_images (f : Frame ℝ) :
    (Drawing.layered (verticalScroll f.onSide)).Images
      (Command.mirror Point.transpose Point.transpose) (.layered (horizontalScroll f)) := by
  have hbanner : scrollBanner f f.h f.w = scrollBanner f.onSide f.h f.w := by
    have hpart (v : ℝ) : f.onSide.shortPart v = f.shortPart v := Facing.down.lying_shortPart f v
    simp only [scrollBanner, hpart]
    rfl
  have hreflect : Drawing.layered (horizontalScroll f) =
      (Drawing.layered (verticalScroll f.onSide)).reflect .transpose := by
    rw [horizontalScroll, hbanner, Banner.layers_reflect]
    rfl
  rw [hreflect]
  exact Drawing.images_transpose (scrollBanner_opens _ _ _)

end Layered

namespace Shape

theorem rightBracket_images (f : Frame ℝ) :
    (Drawing.single (leftBracket f)).Images (Command.mirror (fun p => ⟨f.w - p.x, p.y⟩) id)
      (.single (rightBracket f)) := by
  have hopens : (Drawing.single (leftBracket f)).Opens :=
    List.forall_mem_singleton.2 ⟨_, _, rfl⟩
  have hshort : (Drawing.single (leftBracket f)).Short := by
    simp only [Drawing.Short, Drawing.sketches, leftBracket, List.forall_mem_cons, Stroke.Short]
    norm_num
  exact Drawing.images_leftRight hopens hshort f.w

theorem rightBrace_images (f : Frame ℝ) :
    (Drawing.single (leftBrace f)).Images (Command.mirror (fun p => ⟨f.w - p.x, p.y⟩) id)
      (.single (rightBrace f)) := by
  have hopens : (Drawing.single (leftBrace f)).Opens :=
    List.forall_mem_singleton.2 ⟨_, _, rfl⟩
  have hshort : (Drawing.single (leftBrace f)).Short := by
    simp only [Drawing.Short, Drawing.sketches, leftBrace, List.forall_mem_cons, Stroke.Short]
    norm_num
  exact Drawing.images_leftRight hopens hshort f.w

end Shape

namespace TableEntry

def drawing (e : TableEntry) (f : Frame ℝ) : Drawing ℝ :=
  Sum.elim (fun p : Preset => .single (p.sketch f))
    (fun p : LayeredPreset => .layered (p.layers f)) e

theorem ofName_name (e : TableEntry) (f : Frame ℝ) : Drawing.ofName e.name f = e.drawing f := by
  have hself (s : String) : CaseVariant s s := sameName_iff.1 (beq_self_eq_true _)
  cases e with
  | inl p =>
    have hp : Preset.ofName? p.name = some p := Preset.ofName?_eq_some_iff.2 (hself _)
    simp only [name, Sum.elim_inl, drawing, Drawing.ofName, outlineOf, hp,
      LayeredPreset.ofName?_eq_none_of_preset hp]
  | inr p =>
    have hp : LayeredPreset.ofName? p.name = some p :=
      LayeredPreset.ofName?_eq_some_iff.2 (hself _)
    simp only [name, Sum.elim_inr, drawing, Drawing.ofName, hp]

/-- The second preset of a pair is the first one of the frame on its side. -/
def onSide : List (TableEntry × TableEntry) :=
  [(.inl .rightArrow, .inl .downArrow), (.inl .leftRightArrow, .inl .upDownArrow),
    (.inl .rightArrowCallout, .inl .downArrowCallout),
    (.inl .leftRightArrowCallout, .inl .upDownArrowCallout),
    (.inr .curvedRightArrow, .inr .curvedDownArrow), (.inr .verticalScroll, .inr .horizontalScroll)]

def upsideDown : List (TableEntry × TableEntry) :=
  [(.inl .downArrow, .inl .upArrow), (.inl .downArrowCallout, .inl .upArrowCallout),
    (.inr .curvedDownArrow, .inr .curvedUpArrow), (.inr .ribbon, .inr .ribbon2),
    (.inr .ellipseRibbon, .inr .ellipseRibbon2)]

def leftRight : List (TableEntry × TableEntry) :=
  [(.inl .rightArrow, .inl .leftArrow), (.inl .rightArrowCallout, .inl .leftArrowCallout),
    (.inr .curvedRightArrow, .inr .curvedLeftArrow), (.inl .leftBracket, .inl .rightBracket),
    (.inl .leftBrace, .inl .rightBrace)]

end TableEntry

open Shape.Facing in
/-- The orientations of a shape are one drawing, layer by layer and command by command, with every
turn reversed: of a frame with its sides exchanged the axes are exchanged, and in the same frame one
of the axes is reversed. -/
theorem orientations_mirrored (w h : ℝ) (a : Adjustments ℝ) :
    let f := Frame.ofSides w h a
    (∀ q ∈ TableEntry.onSide,
      (Drawing.ofName q.1.name (Frame.ofSides h w a)).Images
        (Command.mirror Point.transpose Point.transpose) (Drawing.ofName q.2.name f)) ∧
    (∀ q ∈ TableEntry.upsideDown,
      (Drawing.ofName q.1.name f).Images (Command.mirror (fun p => ⟨p.x, f.h - p.y⟩) id)
        (Drawing.ofName q.2.name f)) ∧
    ∀ q ∈ TableEntry.leftRight,
      (Drawing.ofName q.1.name f).Images (Command.mirror (fun p => ⟨f.w - p.x, p.y⟩) id)
        (Drawing.ofName q.2.name f) := by
  intro f
  simp only [TableEntry.ofName_name, TableEntry.onSide, TableEntry.upsideDown,
    TableEntry.leftRight, List.forall_mem_cons, List.not_mem_nil, IsEmpty.forall_iff,
    implies_true, and_true]
  refine ⟨⟨?_, ?_, ?_, ?_, ?_, ?_⟩, ⟨?_, ?_, ?_, ?_, ?_⟩, ?_, ?_, ?_, ?_, ?_⟩
  · exact blockArrow_family.down_images f
  · exact twoHeadedArrow_family.down_images f
  · exact arrowCallout_family.down_images f
  · exact twoHeadedCallout_family.down_images f
  · exact curvedArrow_family.down_images f
  · exact Layered.horizontalScroll_images f
  · exact blockArrow_family.up_images f
  · exact arrowCallout_family.up_images f
  · exact curvedArrow_family.up_images f
  · exact Layered.ribbon2_images f
  · exact Layered.ellipseRibbon2_images f
  · exact blockArrow_family.left_images f
  · exact arrowCallout_family.left_images f
  · exact curvedArrow_family.left_images f
  · exact Shape.rightBracket_images f
  · exact Shape.rightBrace_images f

end
end ShapeOutline
