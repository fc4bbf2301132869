import ShapeOutline.PathWriter
import ShapeOutline.Proofs.Calls

/-! A writer holds, at every moment, what a path with the same calls shows: the text
of its commands, the pen, the start of the sub-path, and whether all numbers are
finite. A command is never written as nothing, so what has no text has no command. -/

namespace ShapeOutline

variable {α : Type} [Scalar α]

theorem Command.text_ne_empty (c : Command α) : c.text ≠ "" := by
  cases c <;> simp [text]

namespace Path

/-- Two texts are joined by a single blank, unless one of them is missing. -/
theorem text_append (p q : Path α) :
    (p ++ q).text =
      if q.isEmpty then p.text else if p.isEmpty then q.text else p.text ++ " " ++ q.text := by
  have hmap {r : Path α} (hr : r.isEmpty = false) : r.commands.map Command.text ≠ [] :=
    fun h => isEmpty_eq_false_iff.1 hr (List.map_eq_nil_iff.1 h)
  unfold text
  rw [append_commands, List.map_append]
  cases hq : q.isEmpty with
  | true => rw [isEmpty_iff.1 hq, List.map_nil, List.append_nil, if_pos rfl]
  | false =>
    rw [if_neg Bool.false_ne_true]
    cases hp : p.isEmpty with
    | true => rw [isEmpty_iff.1 hp, List.map_nil, List.nil_append, if_pos rfl]
    | false =>
      rw [if_neg Bool.false_ne_true, String.intercalate_append_of_ne_nil (hmap hp) (hmap hq)]

theorem text_isEmpty (p : Path α) : p.text.isEmpty = p.isEmpty := by
  rw [Bool.eq_iff_iff, String.isEmpty_iff, isEmpty_iff]
  unfold text
  cases p.commands with
  | nil => exact iff_of_true rfl rfl
  | cons c rest =>
    refine iff_of_false (fun h => ?_) (List.cons_ne_nil c rest)
    cases rest with
    | nil => exact c.text_ne_empty (by simpa using h)
    | cons d rest =>
      have hmap : (d :: rest).map Command.text ≠ [] := List.cons_ne_nil _ _
      rw [List.map_cons, String.intercalate_cons_of_ne_nil hmap, String.append_assoc,
        String.append_eq_empty_iff] at h
      exact c.text_ne_empty h.1

/-- The path as a writer leaves it. -/
def written (p : Path α) : PathWriter α := ⟨p.text, p.pen, p.start, !p.isFinite⟩

theorem written_empty : (Path.empty : Path α).written = .empty := rfl

theorem textThen_written (p : Path α) {q : Path α} (hq : q.isEmpty = false) :
    p.written.textThen q.written.text = (p ++ q).text := by
  rw [text_append, hq, if_neg Bool.false_ne_true, ← p.text_isEmpty]
  rfl

/-- To append a path is to write its text and to take over its pen. -/
theorem written_append (p q : Path α) : (p ++ q).written = p.written ++ q.written := by
  change _ = PathWriter.append p.written q.written
  have htext : q.written.text.isEmpty = q.isEmpty := q.text_isEmpty
  unfold PathWriter.append
  rw [htext]
  cases hq : q.isEmpty with
  | true => rw [append_of_isEmpty p hq, if_pos rfl]
  | false =>
    have hfinite : (p ++ q).isFinite = (p.isFinite && q.isFinite) := by
      unfold isFinite
      rw [append_commands, List.all_append]
    rw [if_neg Bool.false_ne_true, textThen_written p hq, written, hfinite, Bool.not_and,
      append_of_not_isEmpty p hq]
    rfl

theorem written_push (p : Path α) (c : Command α) : (p.push c).written = p.written.push c := by
  let last : Path α := ⟨[c], c.pen p.start, c.subpath p.start⟩
  have hlast : last.written = ⟨c.text, c.pen p.start, c.subpath p.start, !c.isFinite⟩ := by
    simp [last, written, text, isFinite]
  have hpush : p ++ last = p.push c := append_of_not_isEmpty p rfl
  have hwrites : ¬c.text.isEmpty = true := fun h => c.text_ne_empty (String.isEmpty_iff.1 h)
  rw [← hpush, written_append, hlast]
  exact if_neg hwrites

theorem written_pushArc (p : Path α) (radii : Point α) (start sweep : α) :
    (p.pushArc radii start sweep).written = p.written.pushArc radii start sweep :=
  written_push p _

theorem written_arcTo (p : Path α) (radii : Point α) (start sweep : α) :
    (p.arcTo radii start sweep).written = p.written.arcTo radii start sweep := by
  unfold arcTo PathWriter.arcTo
  split
  · rfl
  · dsimp only
    have hpen : p.written.pen = p.pen := rfl
    rw [hpen]
    split
    · rw [written_pushArc, written_pushArc]
    · rw [written_pushArc]

theorem written_stroke (p : Path α) (s : Stroke α) :
    (p.stroke s).written = p.written.stroke s := by
  cases s with
  | arc radii start sweep => exact p.written_arcTo radii start sweep
  | _ => exact p.written_push _

theorem written_draw (s : Sketch α) (p : Path α) : (p.draw s).written = p.written.draw s := by
  induction s generalizing p with
  | nil => rfl
  | cons a rest ih =>
    change ((p.stroke a).draw rest).written = (p.written.stroke a).draw rest
    rw [ih, written_stroke]

end Path

theorem Sketch.text_eq (s : Sketch α) : s.text = s.path.text :=
  (congrArg PathWriter.text (Path.written_draw s .empty)).symm

mutual

def PathWriter.call (w : PathWriter α) : Call α → PathWriter α
  | .push c => w.push c
  | .arcTo radii start sweep => w.arcTo radii start sweep
  | .append calls => w ++ PathWriter.empty.calls calls

def PathWriter.calls (w : PathWriter α) : List (Call α) → PathWriter α
  | [] => w
  | c :: cs => (w.call c).calls cs

end

mutual

theorem Path.written_call (p : Path α) (c : Call α) : (p.call c).written = p.written.call c := by
  cases c with
  | push c => simp only [Path.call, PathWriter.call, written_push]
  | arcTo radii start sweep => simp only [Path.call, PathWriter.call, written_arcTo]
  | append calls =>
    simp only [Path.call, PathWriter.call, written_append, Path.empty.written_calls calls,
      written_empty]

theorem Path.written_calls (p : Path α) (cs : List (Call α)) :
    (p.calls cs).written = p.written.calls cs := by
  cases cs with
  | nil => simp only [Path.calls, PathWriter.calls]
  | cons c rest =>
    simp only [Path.calls, PathWriter.calls, (p.call c).written_calls rest, p.written_call c]

end

end ShapeOutline
