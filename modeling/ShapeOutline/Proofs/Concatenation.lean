import ShapeOutline.Proofs.PathWriting
import ShapeOutline.Scalar.Binary

/-! Appending a path that begins with a move draws what its calls draw on the
path it is appended to. The move sets the pen and the start of the sub-path, so
nothing of what comes before it shows in what follows. -/

namespace ShapeOutline

variable {α : Type}

/-- The numbers that a command writes. -/
def Command.numbers : Command α → List α
  | move p | line p => [p.x, p.y]
  | cubic a b p => [a.x, a.y, b.x, b.y, p.x, p.y]
  | quad a p => [a.x, a.y, p.x, p.y]
  | arc radii rotation _ _ p => [radii.x, radii.y, rotation, p.x, p.y]
  | close => []

namespace Path

/-- Nothing is drawn before the first move. -/
def Opens (p : Path α) : Prop := ∀ c ∈ p.commands.head?, ∃ a, c = .move a

theorem append_assoc (p q r : Path α) : p ++ q ++ r = p ++ (q ++ r) := by
  cases hr : r.isEmpty with
  | true => rw [append_of_isEmpty _ hr, append_of_isEmpty _ hr]
  | false =>
    have hqr : (q ++ r).isEmpty = false := by
      rw [isEmpty_eq_false_iff, append_commands]
      exact List.append_ne_nil_of_right_ne_nil _ (isEmpty_eq_false_iff.1 hr)
    rw [append_of_not_isEmpty _ hr, append_of_not_isEmpty _ hqr, append_of_not_isEmpty _ hr,
      append_commands, List.append_assoc]

theorem push_isEmpty (q : Path α) (c : Command α) : (q.push c).isEmpty = false :=
  isEmpty_eq_false_iff.2 (List.append_ne_nil_of_right_ne_nil _ (List.cons_ne_nil _ _))

theorem append_push (p : Path α) {q : Path α} (hq : q.isEmpty = false) (c : Command α) :
    (p ++ q).push c = p ++ q.push c := by
  rw [append_of_not_isEmpty p hq, append_of_not_isEmpty p (q.push_isEmpty c)]
  simp only [push, List.append_assoc]

theorem append_foldl_push (cs : List (Command α)) (p : Path α) {q : Path α}
    (hq : q.isEmpty = false) : cs.foldl push (p ++ q) = p ++ cs.foldl push q := by
  induction cs generalizing q with
  | nil => rfl
  | cons c rest ih => rw [List.foldl_cons, append_push p hq, ih (q.push_isEmpty c), List.foldl_cons]

variable [Scalar α]

theorem append_call (p : Path α) {q : Path α} (hq : q.isEmpty = false) (c : Call α) :
    (p ++ q).call c = p ++ q.call c := by
  cases c with
  | push c => simpa only [call] using append_push p hq c
  | arcTo radii start sweep =>
    -- the arc is drawn from the pen, which is that of `q` alone
    have hpen : (p ++ q).pen = q.pen := by rw [append_of_not_isEmpty p hq]
    simp only [call, arcTo_eq_foldl, hpen, append_foldl_push _ p hq]
  | append calls => simp only [call, append_assoc]

theorem call_isEmpty {q : Path α} (hq : q.isEmpty = false) (c : Call α) :
    (q.call c).isEmpty = false := by
  rw [isEmpty_eq_false_iff, call_commands]
  exact List.append_ne_nil_of_left_ne_nil (isEmpty_eq_false_iff.1 hq) _

theorem append_calls (cs : List (Call α)) (p : Path α) {q : Path α} (hq : q.isEmpty = false) :
    (p ++ q).calls cs = p ++ q.calls cs := by
  induction cs generalizing q with
  | nil => simp only [calls]
  | cons c rest ih => rw [calls, append_call p hq, ih (call_isEmpty hq c), calls]

theorem call_of_written_eq_nil {p : Path α} {c : Call α} (h : c.written p.pen = []) :
    p.call c = p := by
  cases c with
  | push c => exact nomatch h
  | arcTo radii start sweep =>
    rw [Call.written] at h
    rw [call, arcTo_eq_foldl, h, List.foldl_nil]
  | append calls =>
    rw [Call.written] at h
    rw [call, append_of_isEmpty p (isEmpty_iff.2 h)]

theorem calls_of_isEmpty (cs : List (Call α)) (p : Path α) (h : (p.calls cs).isEmpty = true) :
    p.calls cs = p := by
  induction cs generalizing p with
  | nil => simp only [calls]
  | cons c rest ih =>
    rw [calls] at h ⊢
    have hrest := ih _ h
    rw [hrest, isEmpty_iff, call_commands, List.append_eq_nil_iff] at h
    rw [hrest, call_of_written_eq_nil h.2]

theorem empty_append_calls (cs : List (Call α)) :
    Path.empty ++ Path.empty.calls cs = Path.empty.calls cs := by
  cases hq : (Path.empty.calls cs).isEmpty with
  | true => rw [append_of_isEmpty _ hq, calls_of_isEmpty cs _ hq]
  | false => exact append_of_not_isEmpty _ hq

/-- A call that a path can open with draws on any path what it draws on its own. -/
theorem call_eq_append (p : Path α) {c : Call α} (h : (Path.empty.call c).Opens) :
    p.call c = p ++ Path.empty.call c := by
  cases c with
  | push c =>
    simp only [call] at h ⊢
    obtain ⟨a, rfl⟩ := h c rfl
    rfl
  | arcTo radii start sweep =>
    simp only [call, arcTo_eq_foldl] at h ⊢
    cases harcs : Command.arcs (Path.empty : Path α).pen radii start sweep with
    | nil =>
      have hnone : Command.arcs p.pen radii start sweep = [] := by
        rwa [Command.arcs_eq_nil_iff] at harcs ⊢
      rw [hnone]
      rfl
    | cons d rest =>
      -- an arc that is drawn is no move
      obtain ⟨large, turn, q, rfl⟩ := Command.eq_arc_of_mem_arcs (harcs ▸ List.mem_cons_self)
      rw [Opens, foldl_push_commands, harcs] at h
      obtain ⟨a, ha⟩ := h _ rfl
      cases ha
  | append calls =>
    simp only [call]
    rw [empty_append_calls]

/-- Calls that open with a move draw on any path what they draw on their own. -/
theorem calls_eq_append (cs : List (Call α)) (p : Path α) (h : (Path.empty.calls cs).Opens) :
    p.calls cs = p ++ Path.empty.calls cs := by
  induction cs generalizing p with
  | nil =>
    simp only [calls]
    rfl
  | cons c rest ih =>
    have hfirst : (Path.empty.call c).Opens := by
      intro d hd
      apply h d
      rw [calls, calls_commands, List.head?_append, hd]
      rfl
    rw [calls, calls, call_eq_append p hfirst]
    cases hq : (Path.empty.call c).isEmpty with
    | true =>
      have hnone : Path.empty.call c = Path.empty := by
        simpa only [calls] using calls_of_isEmpty [c] Path.empty (by simpa only [calls] using hq)
      rw [calls, hnone] at h
      rw [hnone, ih _ h]
      rfl
    | false => exact append_calls rest p hq

/-- Calls that begin with a move, if there are any, open with it. -/
theorem opens_calls {cs : List (Call α)} (h : ∀ c ∈ cs.head?, ∃ a, c = .push (.move a)) :
    (Path.empty.calls cs).Opens := by
  intro d hd
  cases cs with
  | nil =>
    simp only [calls] at hd
    cases hd
  | cons c rest =>
    obtain ⟨a, rfl⟩ := h c rfl
    rw [calls_empty_commands] at hd
    exact ⟨a, (Option.some.inj hd).symm⟩

end Path

variable [Scalar α]

theorem Command.isFinite_eq_all (c : Command α) : c.isFinite = c.numbers.all Scalar.isFinite := by
  cases c <;> simp [Command.isFinite, Command.numbers, Point.isFinite, Bool.and_assoc]

/-- A path stops being finite with the first number written that is not. -/
theorem Path.isFinite_eq_false_iff {p : Path α} :
    p.isFinite = false ↔ ∃ c ∈ p.commands, ∃ v ∈ c.numbers, Scalar.isFinite v = false := by
  simp only [isFinite, List.all_eq_false, Command.isFinite_eq_all, Bool.not_eq_true]

theorem Sketch.render_append (s t : Sketch α) (u : Reflection α)
    (h : ∀ a ∈ t.head?, ∃ p, a = .move p) : (s ++ t).render u = s.render u ++ t.render u := by
  have hopens : (Path.empty.calls ((t.reflect u).map Stroke.call)).Opens := by
    apply Path.opens_calls
    intro c hc
    cases t with
    | nil => exact nomatch hc
    | cons a rest =>
      obtain ⟨p, rfl⟩ := h a rfl
      exact ⟨u.point p, (Option.some.inj hc).symm⟩
  unfold render path
  rw [reflect, List.map_append, ← reflect, ← reflect, Path.draw_eq_calls, List.map_append,
    Path.calls_append, Path.calls_eq_append _ _ hopens, Path.draw_eq_calls, Path.draw_eq_calls]

/-- To draw `as`, to draw `bs` separately and to append it draws `as` and then `bs`, if `bs` opens
with a move: commands, pen and start of the sub-path are the same, and so the text and whether all
numbers are finite. A writer does the same with its text and its flag, and shows after any calls
what the path with these calls shows. -/
theorem append_concatenates (as bs cs : List (Call α)) (h : (Path.empty.calls bs).Opens) :
    let p := Path.empty.calls as
    let q := Path.empty.calls bs
    let r := Path.empty.calls cs
    p ++ q = Path.empty.calls (as ++ bs) ∧
      (p ++ q).text =
        (if q.isEmpty then p.text else if p.isEmpty then q.text else p.text ++ " " ++ q.text) ∧
      p ++ q ++ r = p ++ (q ++ r) ∧ Path.empty ++ q = q ∧ q ++ Path.empty = q ∧
      ((p ++ q).isFinite = false ↔ ∃ c ∈ Path.empty.history as ++ Path.empty.history bs,
        ∃ v ∈ c.numbers, Scalar.isFinite v = false) ∧
      (∀ (s t : Sketch α) (u : Reflection α), (∀ a ∈ t.head?, ∃ b, a = .move b) →
        (s ++ t).render u = s.render u ++ t.render u) ∧
      PathWriter.empty.calls as ++ PathWriter.empty.calls bs = PathWriter.empty.calls (as ++ bs) ∧
      ∀ ds : List (Call α), PathWriter.empty.calls ds = (Path.empty.calls ds).written := by
  intro p q r
  have hcalls : p ++ q = Path.empty.calls (as ++ bs) := by
    rw [Path.calls_append, Path.calls_eq_append bs _ h]
  have hwriter (ds : List (Call α)) : PathWriter.empty.calls ds = (Path.empty.calls ds).written :=
    (Path.empty.written_calls ds).symm
  refine ⟨hcalls, Path.text_append p q, Path.append_assoc p q r, Path.empty_append_calls bs,
    Path.append_of_isEmpty q rfl, ?_, Sketch.render_append, ?_, hwriter⟩
  · rw [Path.isFinite_eq_false_iff, Path.append_commands, Path.calls_empty_commands,
      Path.calls_empty_commands]
  · rw [hwriter, hwriter, hwriter, ← Path.written_append, ← hcalls]

/-- An arc and a close behind a number that is not finite. -/
theorem append_concatenates_closedArc :
    let as : List (Call Float) := [.push (.move ⟨1, 2⟩), .push (.line ⟨0 / 0, 4⟩)]
    let bs : List (Call Float) := [.push (.move ⟨30, 4⟩), .arcTo ⟨5, 8⟩ 0 90, .push .close]
    let p := Path.empty.calls as
    let q := Path.empty.calls bs
    q.Opens ∧ p ++ q = Path.empty.calls (as ++ bs) ∧ p ++ q ++ q = p ++ (q ++ q) ∧
      ((p ++ q).isFinite = false ↔ ∃ c ∈ Path.empty.history as ++ Path.empty.history bs,
        ∃ v ∈ c.numbers, Scalar.isFinite v = false) ∧
      PathWriter.empty.calls as ++ PathWriter.empty.calls bs =
        PathWriter.empty.calls (as ++ bs) := by
  intro as bs p q
  have hopens : q.Opens := Path.opens_calls fun c hc => ⟨⟨30, 4⟩, (Option.some.inj hc).symm⟩
  obtain ⟨hcalls, -, hassoc, -, -, hfinite, -, hwriter, -⟩ := append_concatenates as bs bs hopens
  exact ⟨hopens, hcalls, hassoc, hfinite, hwriter⟩

end ShapeOutline
