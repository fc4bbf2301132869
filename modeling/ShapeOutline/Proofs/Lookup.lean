import Mathlib
import ShapeOutline.Drawing

/-! Names of presets. No two presets of the two tables have the same name, also
where the case of ASCII letters is ignored, so a string names at most one preset.
Hence the outline and the layers of a name are of one preset, although they ask
the tables in opposite orders. -/

namespace ShapeOutline

/-- The same character, or the two cases of an ASCII letter. -/
def SameLetter (c d : Char) : Prop :=
  c = d ∨ c.isUpper ∧ d.toNat = c.toNat + 32 ∨ d.isUpper ∧ c.toNat = d.toNat + 32

/-- Strings that agree letter by letter but for the case of ASCII letters. -/
def CaseVariant (a b : String) : Prop := List.Forall₂ SameLetter a.toList b.toList

theorem isUpper_iff {c : Char} : c.isUpper ↔ 65 ≤ c.toNat ∧ c.toNat ≤ 90 := by
  simp [Char.isUpper, UInt32.le_iff_toNat_le, ← Char.toNat_val]

theorem toNat_toLower (c : Char) :
    c.toLower.toNat = if c.isUpper then c.toNat + 32 else c.toNat := by
  unfold Char.toLower
  by_cases h : c.val ≥ 'A'.val ∧ c.val ≤ 'Z'.val
  · have hle : c.val.toNat ≤ 90 := UInt32.le_iff_toNat_le.1 h.2
    rw [dif_pos h, if_pos (by simpa [Char.isUpper] using h)]
    change (c.val + 32).toNat = c.val.toNat + 32
    rw [UInt32.toNat_add]
    exact Nat.mod_eq_of_lt (by change c.val.toNat + 32 < 2 ^ 32; omega)
  · rw [dif_neg h, if_neg (by simpa [Char.isUpper] using h)]

theorem toLower_eq_toLower_iff {c d : Char} : c.toLower = d.toLower ↔ SameLetter c d := by
  rw [← Char.toNat_inj, toNat_toLower, toNat_toLower, SameLetter, ← Char.toNat_inj]
  simp only [isUpper_iff]
  split_ifs <;> omega

theorem sameName_iff {a b : String} : sameName a b = true ↔ CaseVariant a b := by
  rw [sameName, beq_iff_eq, ← String.toList_inj, String.toList_map, String.toList_map, CaseVariant,
    ← List.forall₂_eq_eq_eq, List.forall₂_map_left_iff, List.forall₂_map_right_iff]
  simp only [toLower_eq_toLower_iff]

theorem CaseVariant.symm {a b : String} (h : CaseVariant a b) : CaseVariant b a := by
  rw [← sameName_iff, sameName, beq_iff_eq] at *
  exact h.symm

theorem CaseVariant.trans {a b c : String} (h : CaseVariant a b) (h' : CaseVariant b c) :
    CaseVariant a c := by
  rw [← sameName_iff, sameName, beq_iff_eq] at *
  exact h.trans h'

/-- A preset of either table. -/
abbrev TableEntry := Preset ⊕ LayeredPreset

namespace TableEntry

def name : TableEntry → String := Sum.elim Preset.name LayeredPreset.name

/-- Every preset in the order of the listing. -/
def all : List TableEntry := Preset.all.map .inl ++ LayeredPreset.all.map .inr

theorem map_name_all : all.map name = Drawing.names := by
  simp only [all, List.map_append, List.map_map]
  rfl

theorem mem_all (e : TableEntry) : e ∈ all := by
  have hpreset (p : Preset) : p ∈ Preset.all := by cases p <;> decide
  have hlayered (p : LayeredPreset) : p ∈ LayeredPreset.all := by cases p <;> decide
  cases e with
  | inl p => exact List.mem_append_left _ (List.mem_map_of_mem (hpreset p))
  | inr p => exact List.mem_append_right _ (List.mem_map_of_mem (hlayered p))

/-- The letters of a name without their case, as the digits of a number. -/
def code (letters : List Char) : ℕ := letters.foldl (fun n c => 128 * n + c.toLower.toNat) 0

/-- Whether no number of a list occurs twice. -/
def distinct : List ℕ → Bool
  | [] => true
  | n :: ns => ns.all (fun m => !n.beq m) && distinct ns

theorem nodup_of_distinct {ns : List ℕ} (h : distinct ns = true) : ns.Nodup := by
  induction ns with
  | nil => exact List.nodup_nil
  | cons n ns ih =>
    simp only [distinct, Bool.and_eq_true, List.all_eq_true] at h
    refine List.nodup_cons.2 ⟨fun hn => ?_, ih h.2⟩
    have hne := h.1 n hn
    simp at hne

set_option maxRecDepth 10000 in
theorem codes_distinct : distinct ((Drawing.names.map String.toList).map code) = true := by
  simp only [Drawing.names, Preset.all, LayeredPreset.all, Preset.name, LayeredPreset.name,
    List.map_cons, List.map_nil, List.cons_append, List.nil_append]
  -- The kernel is slow to decode the bytes of a string, so its letters are spelt out first.
  repeat rw [String.toList_ofList]
  decide +kernel

theorem code_congr {a b : String} (h : CaseVariant a b) : code a.toList = code b.toList := by
  have hlower : a.toList.map Char.toLower = b.toList.map Char.toLower := by
    rw [← String.toList_map, ← String.toList_map, String.toList_inj]
    simpa [sameName] using sameName_iff.2 h
  have hcode (l : List Char) :
      code l = (l.map Char.toLower).foldl (fun n c => 128 * n + c.toNat) 0 := by
    rw [code, List.foldl_map]
  rw [hcode, hcode, hlower]

/-- The two tables have no name twice, whatever the case of its letters. -/
theorem eq_of_caseVariant {d e : TableEntry} (h : CaseVariant d.name e.name) : d = e := by
  have hnodup := nodup_of_distinct codes_distinct
  rw [← map_name_all, List.map_map, List.map_map] at hnodup
  exact List.inj_on_of_nodup_map hnodup (mem_all d) (mem_all e) (code_congr h)

theorem mem_names {n : String} : n ∈ Drawing.names ↔ ∃ e : TableEntry, e.name = n := by
  simp only [← map_name_all, List.mem_map, mem_all, true_and]

end TableEntry

/-- Of a list that has everything, the first value that satisfies what one value satisfies. -/
theorem find?_eq_some_iff_of_unique {β : Type} {l : List β} {q : β → Bool} (hmem : ∀ x, x ∈ l)
    (hunique : ∀ x y, q x = true → q y = true → x = y) {x : β} :
    l.find? q = some x ↔ q x = true := by
  refine ⟨List.find?_some, fun hx => ?_⟩
  obtain ⟨y, hy⟩ := Option.isSome_iff_exists.1 (List.find?_isSome.2 ⟨x, hmem x, hx⟩)
  rw [hy, hunique y x (List.find?_some hy) hx]

open TableEntry in
theorem Preset.ofName?_eq_some_iff {s : String} {p : Preset} :
    ofName? s = some p ↔ CaseVariant p.name s := by
  rw [ofName?, find?_eq_some_iff_of_unique, sameName_iff]
  · intro p
    simpa [TableEntry.all] using mem_all (.inl p)
  · intro p q hp hq
    have hpq := (sameName_iff.1 hp).trans (sameName_iff.1 hq).symm
    exact Sum.inl_injective (eq_of_caseVariant (d := .inl p) (e := .inl q) hpq)

open TableEntry in
theorem LayeredPreset.ofName?_eq_some_iff {s : String} {p : LayeredPreset} :
    ofName? s = some p ↔ CaseVariant p.name s := by
  rw [ofName?, find?_eq_some_iff_of_unique, sameName_iff]
  · intro p
    simpa [TableEntry.all] using mem_all (.inr p)
  · intro p q hp hq
    have hpq := (sameName_iff.1 hp).trans (sameName_iff.1 hq).symm
    exact Sum.inr_injective (eq_of_caseVariant (d := .inr p) (e := .inr q) hpq)

theorem LayeredPreset.ofName?_eq_none_of_preset {s : String} {p : Preset}
    (h : Preset.ofName? s = some p) : ofName? s = none := by
  refine Option.eq_none_iff_forall_ne_some.2 fun q hq => ?_
  have hpq := (Preset.ofName?_eq_some_iff.1 h).trans (ofName?_eq_some_iff.1 hq).symm
  exact Sum.inl_ne_inr (TableEntry.eq_of_caseVariant (d := .inl p) (e := .inr q) hpq)

theorem isLayered_iff {s : String} : isLayered s = true ↔ ∃ p, LayeredPreset.ofName? s = some p :=
  Option.isSome_iff_exists

section Resolving

variable {α : Type} [Scalar α] (s : String) (f : Frame α)

/-- One table is asked first for the outline of a name and the other one for its layers. -/
theorem outline_ofName : (Drawing.ofName s f).outline = outlineOf s f := by
  unfold Drawing.ofName outlineOf
  cases h : Preset.ofName? s with
  | some p => rw [LayeredPreset.ofName?_eq_none_of_preset h]; rfl
  | none => cases LayeredPreset.ofName? s <;> rfl

theorem resolve_unlisted (h : ∀ n ∈ Drawing.names, ¬CaseVariant n s) :
    outlineOf s f = Sketch.rect 0 0 f.w f.h ∧
      Drawing.ofName s f = .single (Sketch.rect 0 0 f.w f.h) := by
  have hpreset : Preset.ofName? s = none := by
    refine Option.eq_none_iff_forall_ne_some.2 fun p hp => ?_
    exact h p.name (TableEntry.mem_names.2 ⟨.inl p, rfl⟩) (Preset.ofName?_eq_some_iff.1 hp)
  have hlayered : LayeredPreset.ofName? s = none := by
    refine Option.eq_none_iff_forall_ne_some.2 fun p hp => ?_
    exact h p.name (TableEntry.mem_names.2 ⟨.inr p, rfl⟩) (LayeredPreset.ofName?_eq_some_iff.1 hp)
  simp [Drawing.ofName, outlineOf, hpreset, hlayered]

/-- A string names the one preset whose name it is a case variant of, if there is one; both ways to
draw a name draw that preset alike, and otherwise the rectangle of the frame. -/
theorem resolvers_agree (w h : α) (a : Adjustments α) :
    let f := Frame.ofSides w h a
    (Drawing.ofName s f).outline = outlineOf s f ∧
    (Drawing.ofName s f).outline.path.text = (outlineOf s f).path.text ∧
    (∀ n, n ∈ Drawing.names ↔ ∃ e : TableEntry, e.name = n) ∧
    (∀ e e' : TableEntry, CaseVariant e.name s → CaseVariant e'.name s → e = e') ∧
    (∀ p, Preset.ofName? s = some p ↔ CaseVariant p.name s) ∧
    (∀ p, LayeredPreset.ofName? s = some p ↔ CaseVariant p.name s) ∧
    (isLayered s = true ↔ ∃ p, LayeredPreset.ofName? s = some p) ∧
    ((∀ n ∈ Drawing.names, ¬CaseVariant n s) →
      outlineOf s f = Sketch.rect 0 0 f.w f.h ∧
        Drawing.ofName s f = .single (Sketch.rect 0 0 f.w f.h)) := by
  intro f
  have hunique (e e' : TableEntry) (he : CaseVariant e.name s) (he' : CaseVariant e'.name s) :
      e = e' := TableEntry.eq_of_caseVariant (he.trans he'.symm)
  exact ⟨outline_ofName s f, congrArg (·.path.text) (outline_ofName s f),
    fun _ => TableEntry.mem_names, hunique, fun _ => Preset.ofName?_eq_some_iff,
    fun _ => LayeredPreset.ofName?_eq_some_iff, isLayered_iff, resolve_unlisted s f⟩

end Resolving

end ShapeOutline
