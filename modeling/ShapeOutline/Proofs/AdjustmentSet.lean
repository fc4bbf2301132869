import ShapeOutline.Proofs.ByteOrder
import ShapeOutline.Proofs.GuideWords

/-! Adjustment sets. A set is determined by the value that each name has in it, and
inserting a pair changes that of one name at most. So what a series of insertions
leaves of a name is its last finite value, and a list of guides loads as the series of
their values, or not at all if one of them is refused. -/

namespace ShapeOutline

open Scalar

variable {α : Type} [Scalar α]

namespace Adjustments

omit [Scalar α] in
theorem lookup_put (key name : String) (v : α) (es : List (String × α)) :
    (put name v es).lookup key = if name = key then some v else es.lookup key := by
  have hcons (k : String) (u : α) (l : List (String × α)) :
      ((k, u) :: l).lookup key = if k = key then some u else l.lookup key := by
    by_cases h : key = k
    · simp [h]
    · rw [List.lookup_cons, beq_false_of_ne h, if_neg (Ne.symm h)]
  induction es with
  | nil => exact hcons name v []
  | cons e rest ih =>
    obtain ⟨k, u⟩ := e
    unfold put
    by_cases hlt : name < k
    · rw [if_pos hlt, hcons name]
    · rw [if_neg hlt]
      by_cases heq : name = k
      · rw [if_pos heq, hcons name, hcons k, heq]
        split_ifs <;> rfl
      · rw [if_neg heq, hcons k, hcons k, ih]
        -- the first name is not the one that is set
        split_ifs with hk hname
        · exact absurd (hname.trans hk.symm) heq
        all_goals rfl

omit [Scalar α] in
theorem mem_put {name : String} {v : α} {es : List (String × α)} {p : String × α}
    (h : p ∈ put name v es) : p = (name, v) ∨ p ∈ es := by
  induction es with
  | nil => exact .inl (List.mem_singleton.1 h)
  | cons e rest ih =>
    obtain ⟨k, u⟩ := e
    unfold put at h
    split_ifs at h with hlt heq
    · exact List.mem_cons.1 h
    · exact (List.mem_cons.1 h).imp_right (List.mem_cons_of_mem _)
    · rcases List.mem_cons.1 h with rfl | h
      · exact .inr List.mem_cons_self
      · exact (ih h).imp_right (List.mem_cons_of_mem _)

/-- The names of the entries are in order, each of them once. -/
def Ordered (es : List (String × α)) : Prop := es.Pairwise fun p q => p.1 < q.1

omit [Scalar α] in
theorem Ordered.put {es : List (String × α)} (h : Ordered es) (name : String) (v : α) :
    Ordered (put name v es) := by
  induction es with
  | nil => exact List.pairwise_singleton _ _
  | cons e rest ih =>
    obtain ⟨k, u⟩ := e
    obtain ⟨hhead, hrest⟩ := List.pairwise_cons.1 h
    unfold Adjustments.put
    split_ifs with hlt heq
    · refine List.pairwise_cons.2 ⟨fun p hp => ?_, h⟩
      rcases List.mem_cons.1 hp with rfl | hp
      · exact hlt
      · exact hlt.trans (hhead p hp)
    · subst heq
      exact List.pairwise_cons.2 ⟨hhead, hrest⟩
    · have hgt : k < name := lt_of_le_of_ne (not_lt.1 hlt) (Ne.symm heq)
      refine List.pairwise_cons.2 ⟨fun p hp => ?_, ih hrest⟩
      rcases mem_put hp with rfl | hp
      · exact hgt
      · exact hhead p hp

theorem get?_insert (a : Adjustments α) (key name : String) (v : α) :
    (a.insert name v).get? key =
      if name = key ∧ isFinite v = true then some v else a.get? key := by
  unfold insert
  by_cases hfinite : isFinite v = true
  · rw [if_pos hfinite, get?, lookup_put]
    simp only [hfinite, and_true]
    rfl
  · rw [if_neg hfinite, if_neg fun h => hfinite h.2]

/-- The entries of a set are in order and finite. -/
structure Kept (a : Adjustments α) : Prop where
  ordered : Ordered a.entries
  finite : ∀ p ∈ a.entries, isFinite p.2 = true

theorem Kept.insert {a : Adjustments α} (h : a.Kept) (name : String) (v : α) :
    (a.insert name v).Kept := by
  unfold Adjustments.insert
  split_ifs with hfinite
  · refine ⟨h.ordered.put name v, fun p hp => ?_⟩
    rcases mem_put hp with rfl | hp
    · exact hfinite
    · exact h.finite p hp
  · exact h

theorem Kept.insertAll {a : Adjustments α} (h : a.Kept) (ps : List (String × α)) :
    (ps.foldl (fun a p => a.insert p.1 p.2) a).Kept := by
  induction ps generalizing a with
  | nil => exact h
  | cons p rest ih => exact ih (h.insert p.1 p.2)

theorem kept_ofList (ps : List (String × α)) : (ofList ps).Kept :=
  Kept.insertAll ⟨List.Pairwise.nil, by simp⟩ ps

theorem Kept.mem_iff {a : Adjustments α} (h : a.Kept) (name : String) (v : α) :
    (name, v) ∈ a.entries ↔ a.get? name = some v := by
  rw [get?, List.lookup_eq_some_iff]
  constructor
  · intro hmem
    obtain ⟨before, after, hsplit⟩ := List.append_of_mem hmem
    refine ⟨before, after, hsplit, fun p hp => ?_⟩
    have hordered := h.ordered
    rw [hsplit, Ordered, List.pairwise_append] at hordered
    have hlt : p.1 < name := hordered.2.2 p hp _ List.mem_cons_self
    simpa using hlt.ne'
  · rintro ⟨before, after, hsplit, -⟩
    rw [hsplit]
    exact List.mem_append_right _ List.mem_cons_self

/-- A set is determined by the values of the names. -/
theorem Kept.ext {a b : Adjustments α} (ha : a.Kept) (hb : b.Kept)
    (h : ∀ name, a.get? name = b.get? name) : a = b := by
  have hnodup {c : Adjustments α} (hc : c.Kept) : c.entries.Nodup :=
    hc.ordered.imp fun hlt heq => (heq ▸ hlt).false
  have hperm : a.entries.Perm b.entries := by
    rw [List.perm_ext_iff_of_nodup (hnodup ha) (hnodup hb)]
    rintro ⟨name, v⟩
    rw [ha.mem_iff, hb.mem_iff, h]
  have hentries : a.entries = b.entries :=
    hperm.eq_of_pairwise (fun p q _ _ hpq hqp => absurd hpq hqp.asymm) ha.ordered hb.ordered
  cases a
  cases b
  exact congrArg Adjustments.mk hentries

theorem Kept.insert_comm {a : Adjustments α} (h : a.Kept) {m n : String} (hmn : m ≠ n) (u v : α) :
    (a.insert m u).insert n v = (a.insert n v).insert m u := by
  refine ((h.insert m u).insert n v).ext ((h.insert n v).insert m u) fun key => ?_
  simp only [get?_insert]
  grind

/-- The value of the last pair with this name and a finite value. -/
def lastFinite? (name : String) (ps : List (String × α)) : Option α :=
  ((ps.filter fun p => p.1 == name && isFinite p.2).getLast?).map Prod.snd

theorem ofList_append (ps qs : List (String × α)) :
    ofList (ps ++ qs) = qs.foldl (fun a p => a.insert p.1 p.2) (ofList ps) :=
  List.foldl_append

theorem get?_ofList (name : String) (ps : List (String × α)) :
    (ofList ps).get? name = lastFinite? name ps := by
  induction ps using List.reverseRecOn with
  | nil => rfl
  | append_singleton ps p ih =>
    rw [ofList_append, List.foldl_cons, List.foldl_nil, get?_insert, ih, lastFinite?, lastFinite?,
      List.filter_append]
    simp only [List.filter_cons, List.filter_nil, Bool.and_eq_true, beq_iff_eq]
    split_ifs
    · rw [List.getLast?_concat]
      rfl
    · rw [List.append_nil]

end Adjustments

namespace Guide

variable (α) in
/-- A guide is read as some value. -/
def Parses (g : String × String) : Prop := ∃ v : α, value g.1 g.2 = .ok v

theorem isFinite_of_value {name formula : String} {v : α} (h : value name formula = .ok v) :
    isFinite v = true := by
  obtain ⟨_, _, number, _, _, _, _, _, _, _, hnumber⟩ := value_eq_ok_iff.1 h
  unfold Numeral.value? at hnumber
  split at hnumber
  · exact nomatch hnumber
  · dsimp only at hnumber
    split_ifs at hnumber with hfinite
    rwa [← Option.some.inj hnumber]

/-- The guides are read as the values of the pairs, which have their names. -/
def ReadAs (guides : List (String × String)) (ps : List (String × α)) : Prop :=
  List.Forall₂ (fun g p => p.1 = g.1 ∧ value g.1 g.2 = .ok p.2) guides ps

/-- All guides of a list are read, or else one of them is the first that is refused. -/
theorem readAs_or_refused (guides : List (String × String)) :
    (∃ ps : List (String × α), ReadAs guides ps) ∨
      ∃ before g after e, guides = before ++ g :: after ∧
        (∃ ps : List (String × α), ReadAs before ps) ∧ value (α := α) g.1 g.2 = .error e := by
  induction guides with
  | nil => exact .inl ⟨[], .nil⟩
  | cons g rest ih =>
    cases h : value (α := α) g.1 g.2 with
    | error e => exact .inr ⟨[], g, rest, e, rfl, ⟨[], .nil⟩, h⟩
    | ok v =>
      rcases ih with ⟨ps, hps⟩ | ⟨before, g', after, e, rfl, ⟨ps, hps⟩, he⟩
      · exact .inl ⟨(g.1, v) :: ps, .cons ⟨rfl, h⟩ hps⟩
      · exact .inr ⟨g :: before, g', after, e, rfl, ⟨(g.1, v) :: ps, .cons ⟨rfl, h⟩ hps⟩, he⟩

theorem ReadAs.parses {guides : List (String × String)} {ps : List (String × α)}
    (h : ReadAs guides ps) : ∀ g ∈ guides, Parses α g := by
  induction h with
  | nil => exact fun _ h => absurd h List.not_mem_nil
  | @cons g p _ _ hgp _ ih => exact List.forall_mem_cons.2 ⟨⟨p.2, hgp.2⟩, ih⟩

theorem readAs_of_parses {guides : List (String × String)} (h : ∀ g ∈ guides, Parses α g) :
    ∃ ps : List (String × α), ReadAs guides ps := by
  rcases readAs_or_refused (α := α) guides with hread | ⟨before, g, after, e, rfl, -, he⟩
  · exact hread
  · obtain ⟨v, hv⟩ := h g (List.mem_append_right _ List.mem_cons_self)
    exact nomatch hv.symm.trans he

/-- The values that the guides of one name are read as are those of its pairs, all of them finite. -/
theorem ReadAs.values {guides : List (String × String)} {ps : List (String × α)}
    (h : ReadAs guides ps) (name : String) :
    (guides.filter fun g => g.1 == name).map (fun g => value g.1 g.2) =
      (ps.filter fun p => p.1 == name && isFinite p.2).map fun p => .ok p.2 := by
  induction h with
  | nil => rfl
  | @cons g p guides ps hgp _ ih =>
    obtain ⟨hname, hvalue⟩ := hgp
    have hfinite : isFinite p.2 = true := isFinite_of_value hvalue
    simp only [List.filter_cons, hname, hfinite, Bool.and_true]
    split_ifs
    · rw [List.map_cons, List.map_cons, ih, hvalue]
    · exact ih

end Guide

namespace Adjustments

open Guide

/-- The last guide of a name. -/
def lastNamed? (name : String) (guides : List (String × String)) : Option (String × String) :=
  (guides.filter fun g => g.1 == name).getLast?

/-- Guides that are read load as the series of their values, and what follows them is loaded on top
of these. -/
theorem ofGuides_append {before : List (String × String)} {ps : List (String × α)}
    (h : ReadAs before ps) (after : List (String × String)) :
    ofGuides (before ++ after) =
      after.foldlM (fun a g => (value g.1 g.2).map (a.insert g.1)) (ofList ps) := by
  unfold ofGuides ofList
  generalize (empty : Adjustments α) = a
  induction h generalizing a with
  | nil => rfl
  | @cons g p guides ps hgp _ ih =>
    obtain ⟨hname, hvalue⟩ := hgp
    rw [List.cons_append, List.foldlM_cons, hvalue, List.foldl_cons, hname]
    exact ih _

theorem ofGuides_of_readAs {guides : List (String × String)} {ps : List (String × α)}
    (h : ReadAs guides ps) : ofGuides guides = .ok (ofList ps) := by
  have hload := ofGuides_append h []
  rwa [List.append_nil] at hload

/-- The first guide that is refused stops the loading, whatever comes after it. -/
theorem ofGuides_of_refused {before : List (String × String)} {ps : List (String × α)}
    (h : ReadAs before ps) {g : String × String} {e : GuideError}
    (hg : value (α := α) g.1 g.2 = .error e) (after : List (String × String)) :
    ofGuides (α := α) (before ++ g :: after) = .error e := by
  rw [ofGuides_append h, List.foldlM_cons, hg]
  rfl

/-- A list that loads has been read to its end. -/
theorem readAs_of_ofGuides {guides : List (String × String)} {a : Adjustments α}
    (h : ofGuides guides = .ok a) : ∃ ps, ReadAs guides ps ∧ a = ofList ps := by
  rcases readAs_or_refused (α := α) guides with ⟨ps, hps⟩ | ⟨_, _, after, _, rfl, ⟨_, hread⟩, he⟩
  · rw [ofGuides_of_readAs hps] at h
    exact ⟨ps, hps, (Except.ok.inj h).symm⟩
  · rw [ofGuides_of_refused hread he after] at h
    exact nomatch h

theorem get?_of_ofGuides {guides : List (String × String)} {a : Adjustments α}
    (h : ofGuides guides = .ok a) (name : String) :
    (lastNamed? name guides).map (fun g => value g.1 g.2) = (a.get? name).map .ok := by
  obtain ⟨ps, hps, rfl⟩ := readAs_of_ofGuides h
  rw [get?_ofList, lastFinite?, Option.map_map, lastNamed?, ← List.getLast?_map,
    ← List.getLast?_map, hps.values]
  rfl

theorem ofGuides_eq_ok_iff (guides : List (String × String)) :
    (∃ a : Adjustments α, ofGuides guides = .ok a) ↔ ∀ g ∈ guides, Parses α g := by
  constructor
  · rintro ⟨a, h⟩
    obtain ⟨ps, hps, -⟩ := readAs_of_ofGuides h
    exact hps.parses
  · intro h
    obtain ⟨ps, hps⟩ := readAs_of_parses h
    exact ⟨_, ofGuides_of_readAs hps⟩

theorem ofGuides_eq_error_iff (guides : List (String × String)) (e : GuideError) :
    ofGuides (α := α) guides = .error e ↔ ∃ before g after, guides = before ++ g :: after ∧
      (∀ b ∈ before, Parses α b) ∧ value (α := α) g.1 g.2 = .error e := by
  constructor
  · intro h
    rcases readAs_or_refused (α := α) guides with
      ⟨ps, hps⟩ | ⟨before, g, after, e', rfl, ⟨_, hread⟩, he⟩
    · rw [ofGuides_of_readAs hps] at h
      exact nomatch h
    · rw [ofGuides_of_refused hread he after] at h
      exact ⟨before, g, after, rfl, hread.parses, Except.error.inj h ▸ he⟩
  · rintro ⟨before, g, after, rfl, hbefore, he⟩
    obtain ⟨ps, hps⟩ := readAs_of_parses hbefore
    exact ofGuides_of_refused hps he after

end Adjustments

/-- After any series of insertions a set holds finite values only, and of each name the last one
that was finite; it lists each name once, in the order of their bytes, and it is the same set if two
insertions of different names change places. A list of guides loads exactly if all of them are read,
each name then having the value of its last guide; if not, it is refused with the error of the first
guide that is. -/
theorem adjustments_last_finite :
    (∀ ps : List (String × α),
      let a := Adjustments.ofList ps
      (∀ p ∈ a.entries, isFinite p.2 = true) ∧
      (∀ name, a.get? name = Adjustments.lastFinite? name ps) ∧
      (a.entries.Pairwise fun p q => Utf8.bytes p.1 < Utf8.bytes q.1) ∧
      (∀ name v, (name, v) ∈ a.entries ↔ a.get? name = some v) ∧
      ∀ p q : String × α, p.1 ≠ q.1 → ∀ rest,
        Adjustments.ofList (ps ++ p :: q :: rest) = Adjustments.ofList (ps ++ q :: p :: rest)) ∧
    ∀ guides : List (String × String),
      ((∃ a : Adjustments α, Adjustments.ofGuides guides = .ok a) ↔
        ∀ g ∈ guides, Guide.Parses α g) ∧
      (∀ a : Adjustments α, Adjustments.ofGuides guides = .ok a → ∀ name,
        (Adjustments.lastNamed? name guides).map (fun g => Guide.value g.1 g.2) =
          (a.get? name).map .ok) ∧
      ∀ e, Adjustments.ofGuides (α := α) guides = .error e ↔
        ∃ before g after, guides = before ++ g :: after ∧ (∀ b ∈ before, Guide.Parses α b) ∧
          Guide.value (α := α) g.1 g.2 = .error e := by
  constructor
  · intro ps a
    have hkept := Adjustments.kept_ofList ps
    refine ⟨hkept.finite, fun name => Adjustments.get?_ofList name ps,
      hkept.ordered.imp Utf8.bytes_lt_bytes, hkept.mem_iff, fun p q hpq rest => ?_⟩
    rw [Adjustments.ofList_append, Adjustments.ofList_append, List.foldl_cons, List.foldl_cons,
      List.foldl_cons, List.foldl_cons, hkept.insert_comm hpq]
  · intro guides
    exact ⟨Adjustments.ofGuides_eq_ok_iff guides, fun a h => Adjustments.get?_of_ofGuides h,
      Adjustments.ofGuides_eq_error_iff guides⟩

end ShapeOutline
