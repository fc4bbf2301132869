import ShapeOutline.Sketch

/-! Drawing a path call by call. A call pushes one command, draws an arc, which
pushes the commands it is written with, or appends a path that was drawn by
calls of its own. What a call writes depends on no more than the pen. -/

namespace ShapeOutline

inductive Call (α : Type) where
  | push (c : Command α)
  | arcTo (radii : Point α) (start sweep : α)
  | append (calls : List (Call α))

open Scalar

variable {α : Type}

namespace Path

theorem foldl_push_commands (cs : List (Command α)) (p : Path α) :
    (cs.foldl push p).commands = p.commands ++ cs := by
  induction cs generalizing p with
  | nil => exact (List.append_nil _).symm
  | cons c rest ih =>
    rw [List.foldl_cons, ih, push, List.append_assoc]
    rfl

theorem append_of_isEmpty (p : Path α) {q : Path α} (h : q.isEmpty = true) : p ++ q = p :=
  if_pos h

theorem append_of_not_isEmpty (p : Path α) {q : Path α} (h : q.isEmpty = false) :
    p ++ q = ⟨p.commands ++ q.commands, q.pen, q.start⟩ :=
  if_neg (by rw [h]; exact Bool.false_ne_true)

theorem isEmpty_iff {p : Path α} : p.isEmpty = true ↔ p.commands = [] := List.isEmpty_iff

theorem isEmpty_eq_false_iff {p : Path α} : p.isEmpty = false ↔ p.commands ≠ [] := by
  rw [← Bool.not_eq_true, isEmpty_iff]

theorem append_commands (p q : Path α) : (p ++ q).commands = p.commands ++ q.commands := by
  cases h : q.isEmpty with
  | true => rw [append_of_isEmpty p h, isEmpty_iff.1 h, List.append_nil]
  | false => rw [append_of_not_isEmpty p h]

end Path

variable [Scalar α]

mutual

def Path.call (p : Path α) : Call α → Path α
  | .push c => p.push c
  | .arcTo radii start sweep => p.arcTo radii start sweep
  | .append calls => p ++ Path.empty.calls calls

def Path.calls (p : Path α) : List (Call α) → Path α
  | [] => p
  | c :: cs => (p.call c).calls cs

end

namespace Command

/-- The command of one arc from `pen`. -/
def ofArc (pen radii : Point α) (start sweep : α) : Command α :=
  let s := arcSegment pen radii start sweep
  .arc radii 0 s.large s.sweep s.target

/-- The commands that an arc from `pen` is written with. -/
def arcs (pen radii : Point α) (start sweep : α) : List (Command α) :=
  if isDegenerate radii sweep then []
  else
    let sweep := clamp (-360) 360 sweep
    if needsHalves sweep pen (arcSegment pen radii start sweep).target then
      let half := sweep / 2
      let middle := (arcSegment pen radii start half).target
      [ofArc pen radii start half, ofArc middle radii (start + half) half]
    else [ofArc pen radii start sweep]

theorem arcs_eq_nil_iff {pen radii : Point α} {start sweep : α} :
    arcs pen radii start sweep = [] ↔ isDegenerate radii sweep = true := by
  unfold arcs
  constructor
  · intro h
    split at h
    · assumption
    · dsimp only at h
      split at h <;> exact nomatch h
  · exact fun h => if_pos h

theorem eq_arc_of_mem_arcs {pen radii : Point α} {start sweep : α} {c : Command α}
    (h : c ∈ arcs pen radii start sweep) : ∃ large turn p, c = .arc radii 0 large turn p := by
  unfold arcs at h
  split at h
  · exact nomatch h
  · dsimp only at h
    split at h
    · rcases List.mem_cons.1 h with rfl | h
      · exact ⟨_, _, _, rfl⟩
      · exact ⟨_, _, _, List.mem_singleton.1 h⟩
    · exact ⟨_, _, _, List.mem_singleton.1 h⟩

end Command

/-- The commands that a call writes from `pen`. -/
def Call.written (pen : Point α) : Call α → List (Command α)
  | .push c => [c]
  | .arcTo radii start sweep => Command.arcs pen radii start sweep
  | .append calls => (Path.empty.calls calls).commands

/-- The call that draws a stroke. -/
def Stroke.call : Stroke α → Call α
  | .move p => .push (.move p)
  | .line p => .push (.line p)
  | .cubic a b p => .push (.cubic a b p)
  | .quad a p => .push (.quad a p)
  | .arc radii start sweep => .arcTo radii start sweep
  | .close => .push .close

namespace Path

theorem arcTo_eq_foldl (p : Path α) (radii : Point α) (start sweep : α) :
    p.arcTo radii start sweep = (Command.arcs p.pen radii start sweep).foldl push p := by
  unfold arcTo Command.arcs
  split
  · rfl
  · dsimp only
    split <;> rfl

theorem call_commands (p : Path α) (c : Call α) :
    (p.call c).commands = p.commands ++ c.written p.pen := by
  cases c with
  | push c => simp only [call, push, Call.written]
  | arcTo radii start sweep =>
    simp only [call, Call.written, arcTo_eq_foldl, foldl_push_commands]
  | append calls => simp only [call, Call.written, append_commands]

/-- The commands that calls write, in order, from where `p` stands. -/
def history (p : Path α) : List (Call α) → List (Command α)
  | [] => []
  | c :: cs => c.written p.pen ++ (p.call c).history cs

theorem calls_commands (cs : List (Call α)) (p : Path α) :
    (p.calls cs).commands = p.commands ++ p.history cs := by
  induction cs generalizing p with
  | nil => simp only [calls, history, List.append_nil]
  | cons c rest ih => rw [calls, ih, call_commands, history, List.append_assoc]

/-- A path that is drawn from nothing holds the history of its calls. -/
theorem calls_empty_commands (cs : List (Call α)) :
    (Path.empty.calls cs).commands = Path.empty.history cs := by
  rw [calls_commands]
  rfl

theorem calls_append (cs ds : List (Call α)) (p : Path α) :
    p.calls (cs ++ ds) = (p.calls cs).calls ds := by
  induction cs generalizing p with
  | nil => rw [calls, List.nil_append]
  | cons c rest ih => rw [List.cons_append, calls, calls, ih]

theorem stroke_eq_call (p : Path α) (s : Stroke α) : p.stroke s = p.call s.call := by
  cases s <;> simp only [stroke, Stroke.call, call]

theorem draw_eq_calls (s : Sketch α) (p : Path α) : p.draw s = p.calls (s.map Stroke.call) := by
  induction s generalizing p with
  | nil => rw [List.map_nil, calls, draw, List.foldl_nil]
  | cons a rest ih =>
    rw [List.map_cons, calls, ← stroke_eq_call, ← ih]
    rfl

end Path

end ShapeOutline
