import Mathlib
import ShapeOutline.Guide

/-! The words of guide formulas. They are the maximal runs of characters that are
not blanks, at offsets where a formula can be cut, and a scan that cuts them out of
its bytes one by one never misses the bounds of a character. What a formula is read
as depends on the first three of them. -/

namespace ShapeOutline

namespace Guide

theorem byteLength_append (cs ds : List Char) :
    byteLength (cs ++ ds) = byteLength cs + byteLength ds := by
  induction cs with
  | nil => simp [byteLength]
  | cons c cs ih => simp [byteLength, ih, Nat.add_assoc]

theorem utf8ByteSize_ofList (cs : List Char) : (String.ofList cs).utf8ByteSize = byteLength cs := by
  rw [String.utf8ByteSize_ofList]
  induction cs with
  | nil => rfl
  | cons c cs ih => rw [String.utf8Len_cons, ih, byteLength, Nat.add_comm]

theorem byteLength_toList (s : String) : byteLength s.toList = s.utf8ByteSize := by
  rw [← utf8ByteSize_ofList, String.ofList_toList]

/-- The bytes from `start` up to `stop`, if both are bounds of characters in this order. -/
def cut? (s : String) (start stop : Nat) : Option String := do
  let p ← s.pos? ⟨start⟩
  let q ← s.pos? ⟨stop⟩
  (s.slice? p q).map String.Slice.copy

theorem pos?_of_eq_append {s t u : String} (h : s = t ++ u) :
    s.pos? ⟨t.utf8ByteSize⟩ = some (String.Pos.ofEqAppend h) := by
  have hvalid : String.Pos.Raw.IsValidForSlice s.toSlice ⟨t.utf8ByteSize⟩ :=
    String.Pos.Raw.isValidForSlice_iff_exists_append.2 ⟨t, u, by rw [String.copy_toSlice, h], rfl⟩
  rw [String.pos?, String.Slice.pos?,
    dif_pos (String.Pos.Raw.isValidForSlice_eq_true_iff.2 hvalid), Option.map_some]
  exact congrArg some (String.Pos.ext (String.Pos.splits_ofEqAppend h).offset_eq_rawEndPos.symm)

/-- What stands between two other pieces is cut out whole. -/
theorem cut?_append (before w after : List Char) :
    cut? (String.ofList (before ++ w ++ after)) (byteLength before)
      (byteLength before + byteLength w) = some (String.ofList w) := by
  have hstart : String.ofList (before ++ w ++ after) =
      String.ofList before ++ (String.ofList w ++ String.ofList after) := by
    rw [String.ofList_append, String.ofList_append, String.append_assoc]
  have hstop : String.ofList (before ++ w ++ after) =
      String.ofList before ++ String.ofList w ++ String.ofList after := by
    rw [hstart, String.append_assoc]
  obtain ⟨hle, hcopy⟩ := String.copy_slice_eq_iff_splits.2
    ⟨_, _, String.Pos.splits_ofEqAppend hstart, String.Pos.splits_ofEqAppend hstop⟩
  have hp := pos?_of_eq_append hstart
  have hq := pos?_of_eq_append hstop
  rw [utf8ByteSize_ofList] at hp
  rw [String.utf8ByteSize_append, utf8ByteSize_ofList, utf8ByteSize_ofList] at hq
  simp only [cut?, hp, hq, Option.bind_eq_bind, Option.bind_some]
  rw [String.slice?, dif_pos hle, Option.map_some, hcopy]

def Blanks (cs : List Char) : Prop := ∀ c ∈ cs, isBlank c = true

/-- No blank and at least one character. -/
def IsWord (cs : List Char) : Prop := cs ≠ [] ∧ ∀ c ∈ cs, isBlank c = false

/-- No word that comes before goes on in `cs`. -/
def Ends (cs : List Char) : Prop := ∀ c ∈ cs.head?, isBlank c = true

/-- No word that begins in `cs` goes on behind. -/
def Closed (cs : List Char) : Prop := ∀ c ∈ cs.getLast?, isBlank c = true

/-- A maximal run without blanks in `cs`, where `cs` stands at `offset` in a formula. -/
def IsRun (offset : Nat) (cs : List Char) (w : Word) : Prop :=
  ∃ before after, cs = before ++ w.chars ++ after ∧ w.offset = offset + byteLength before ∧
    Closed before ∧ IsWord w.chars ∧ Ends after

/-- Blanks and words by turns. The words between blanks are `ws`, at their offsets. -/
inductive Spelled : Nat → List Char → List Word → Prop
  | blanks {o : Nat} {cs : List Char} : Blanks cs → Spelled o cs []
  | word {o : Nat} {lead w rest : List Char} {ws : List Word} : Blanks lead → IsWord w → Ends rest →
      Spelled (o + byteLength lead + byteLength w) rest ws →
      Spelled o (lead ++ w ++ rest) (⟨o + byteLength lead, w⟩ :: ws)

theorem Blanks.closed {cs : List Char} (h : Blanks cs) : Closed cs :=
  fun c hc => h c (List.mem_of_getLast? hc)

/-- A word and what ends it make no start for another word. -/
theorem IsWord.not_ends_append {w : List Char} (hw : IsWord w) (cs : List Char) :
    ¬ Ends (w ++ cs) := by
  obtain ⟨c, w, rfl⟩ := List.exists_cons_of_ne_nil hw.1
  intro h
  exact Bool.false_ne_true ((hw.2 c (by simp)).symm.trans (h c (by simp)))

theorem IsWord.not_closed_append {w : List Char} (hw : IsWord w) (cs : List Char) :
    ¬ Closed (cs ++ w) := by
  intro h
  have hlast := h (w.getLast hw.1)
    (by simp [List.getLast?_append, List.getLast?_eq_some_getLast hw.1])
  exact Bool.false_ne_true ((hw.2 _ (List.getLast_mem hw.1)).symm.trans hlast)

theorem Closed.of_append {cs ds : List Char} (h : Closed (cs ++ ds)) (hds : ds ≠ []) :
    Closed ds := by
  intro c hc
  exact h c (by rw [List.getLast?_append_of_ne_nil _ hds]; exact hc)

theorem Closed.append {cs ds : List Char} (h : Closed ds) (hds : ds ≠ []) : Closed (cs ++ ds) := by
  intro c hc
  rw [List.getLast?_append_of_ne_nil _ hds] at hc
  exact h c hc

theorem words_cons_of_blank {c : Char} (h : isBlank c = true) (o : Nat) (cs : List Char) :
    words o (c :: cs) = words (o + c.utf8Size) cs := by
  simp [words, h]

theorem words_append_of_blanks {lead : List Char} (h : Blanks lead) (o : Nat) (cs : List Char) :
    words o (lead ++ cs) = words (o + byteLength lead) cs := by
  induction lead generalizing o with
  | nil => rfl
  | cons c lead ih =>
    rw [List.cons_append, words_cons_of_blank (h c (by simp)),
      ih (fun d hd => h d (List.mem_cons_of_mem _ hd)), byteLength, Nat.add_assoc]

theorem le_offset_of_mem {o : Nat} {cs : List Char} {w : Word} (h : w ∈ words o cs) :
    o ≤ w.offset := by
  induction cs generalizing o w with
  | nil => exact nomatch h
  | cons c cs ih =>
    have hrest {v : Word} (hv : v ∈ words (o + c.utf8Size) cs) : o ≤ v.offset :=
      (Nat.le_add_right ..).trans (ih hv)
    simp only [words] at h
    split_ifs at h with hblank
    · exact hrest h
    · split at h
      · rw [List.mem_singleton.1 h]
      · rename_i v vs heq
        split_ifs at h with hjoin
        · rcases List.mem_cons.1 h with rfl | hmem
          · exact Nat.le_refl o
          · exact hrest (heq ▸ List.mem_cons_of_mem v hmem)
        · rcases List.mem_cons.1 h with rfl | hmem
          · exact Nat.le_refl o
          · exact hrest (heq ▸ hmem)

/-- Behind a word the next one begins later than the word ends. -/
theorem lt_offset_of_mem {o : Nat} {cs : List Char} (hcs : Ends cs) {w : Word}
    (h : w ∈ words o cs) : o < w.offset := by
  cases cs with
  | nil => exact nomatch h
  | cons c cs =>
    rw [words_cons_of_blank (hcs c rfl)] at h
    exact (Nat.lt_add_of_pos_right c.utf8Size_pos).trans_le (le_offset_of_mem h)

theorem words_append_of_isWord {w : List Char} (hw : IsWord w) {rest : List Char}
    (hrest : Ends rest) (o : Nat) :
    words o (w ++ rest) = ⟨o, w⟩ :: words (o + byteLength w) rest := by
  induction w generalizing o with
  | nil => exact absurd rfl hw.1
  | cons c w ih =>
    have hc : isBlank c = false := hw.2 c (by simp)
    cases w with
    | nil =>
      rw [List.singleton_append]
      simp only [words, hc, byteLength, Nat.add_zero, Bool.false_eq_true, if_false]
      cases hwords : words (o + c.utf8Size) rest with
      | nil => rfl
      | cons v vs =>
        have hlt : o + c.utf8Size < v.offset := lt_offset_of_mem hrest (hwords ▸ List.mem_cons_self)
        simp only [if_neg hlt.ne']
    | cons d w =>
      have htail : IsWord (d :: w) :=
        ⟨List.cons_ne_nil d w, fun e he => hw.2 e (List.mem_cons_of_mem c he)⟩
      have hjoin := ih htail (o + c.utf8Size)
      rw [Nat.add_assoc] at hjoin
      rw [List.cons_append, words]
      simp only [hc, hjoin, Bool.false_eq_true, if_false, if_true]
      rfl

/-- A text is blank, or its first word stands between blanks and what ends the word. -/
theorem blanks_or_word (cs : List Char) :
    Blanks cs ∨ ∃ lead w rest, cs = lead ++ w ++ rest ∧ Blanks lead ∧ IsWord w ∧ Ends rest := by
  have hlead : Blanks (cs.takeWhile isBlank) := fun c hc => List.mem_takeWhile_imp hc
  cases htail : cs.dropWhile isBlank with
  | nil =>
    left
    rwa [← cs.takeWhile_append_dropWhile (p := isBlank), htail, List.append_nil]
  | cons c tail =>
    right
    have hc := cs.head?_dropWhile_not isBlank
    rw [htail, List.head?_cons] at hc
    replace hc : isBlank c = false := hc
    refine ⟨_, (c :: tail).takeWhile (!isBlank ·), (c :: tail).dropWhile (!isBlank ·), ?_, hlead,
      ⟨?_, ?_⟩, ?_⟩
    · rw [List.append_assoc, List.takeWhile_append_dropWhile, ← htail,
        List.takeWhile_append_dropWhile]
    · simp [hc]
    · intro d hd
      simpa using List.mem_takeWhile_imp hd
    · intro d hd
      have hstop := (c :: tail).head?_dropWhile_not (!isBlank ·)
      rw [Option.mem_def.1 hd] at hstop
      simpa using hstop

theorem words_of_blanks {cs : List Char} (h : Blanks cs) (o : Nat) : words o cs = [] := by
  have hwords := words_append_of_blanks h o []
  rwa [List.append_nil] at hwords

theorem words_of_word {lead w rest : List Char} (hlead : Blanks lead) (hw : IsWord w)
    (hrest : Ends rest) (o : Nat) :
    words o (lead ++ w ++ rest) =
      ⟨o + byteLength lead, w⟩ :: words (o + byteLength lead + byteLength w) rest := by
  rw [List.append_assoc, words_append_of_blanks hlead, words_append_of_isWord hw hrest]

theorem Spelled.words_eq {o : Nat} {cs : List Char} {ws : List Word} (h : Spelled o cs ws) :
    words o cs = ws := by
  induction h with
  | blanks h => exact words_of_blanks h _
  | word hlead hw hrest _ ih => rw [words_of_word hlead hw hrest, ih]

/-- Every text is spelled by its words. -/
theorem spelled_words (o : Nat) (cs : List Char) : Spelled o cs (words o cs) := by
  induction hn : cs.length using Nat.strong_induction_on generalizing o cs with
  | _ n ih =>
    subst hn
    rcases blanks_or_word cs with hblanks | ⟨lead, w, rest, rfl, hlead, hw, hrest⟩
    · rw [words_of_blanks hblanks]
      exact .blanks hblanks
    · rw [words_of_word hlead hw hrest]
      refine .word hlead hw hrest (ih _ ?_ _ _ rfl)
      have hpos := List.length_pos_iff.2 hw.1
      simp only [List.length_append]
      omega

/-- The words of a text go up to a blank and on from there. -/
theorem words_append {before : List Char} (h : Closed before) (o : Nat) (cs : List Char) :
    words o (before ++ cs) = words o before ++ words (o + byteLength before) cs := by
  have hspelled := spelled_words o before
  generalize words o before = ws at hspelled
  induction hspelled with
  | blanks hblanks => exact words_append_of_blanks hblanks _ cs
  | @word o lead w rest ws hlead hw hrest _ ih =>
    have hne : rest ≠ [] := by
      rintro rfl
      rw [List.append_nil] at h
      exact hw.not_closed_append lead h
    have hends : Ends (rest ++ cs) := by
      intro c hc
      rw [List.head?_append_of_ne_nil _ hne] at hc
      exact hrest c hc
    rw [List.append_assoc, words_of_word hlead hw hends, ih (h.of_append hne)]
    simp only [List.cons_append, byteLength_append, Nat.add_assoc]

theorem mem_words {o : Nat} {cs : List Char} {w : Word} : w ∈ words o cs ↔ IsRun o cs w := by
  constructor
  · intro h
    have hspelled := spelled_words o cs
    generalize words o cs = ws at hspelled h
    induction hspelled with
    | blanks => exact nomatch h
    | @word o lead v rest ws hlead hv hrest _ ih =>
      rcases List.mem_cons.1 h with rfl | hmem
      · exact ⟨lead, rest, rfl, rfl, hlead.closed, hv, hrest⟩
      · obtain ⟨before, after, rfl, hoffset, hclosed, hw, hafter⟩ := ih hmem
        have hne : before ≠ [] := by
          rintro rfl
          exact hw.not_ends_append after hrest
        refine ⟨lead ++ v ++ before, after, by simp only [List.append_assoc], ?_,
          hclosed.append hne, hw, hafter⟩
        rw [hoffset]
        simp only [byteLength_append, Nat.add_assoc]
  · rintro ⟨before, after, rfl, hoffset, hclosed, hw, hafter⟩
    rw [List.append_assoc, words_append hclosed, words_append_of_isWord hw hafter, ← hoffset]
    exact List.mem_append_right _ List.mem_cons_self

/-- Between two words there is a blank at least. -/
theorem pairwise_words (o : Nat) (cs : List Char) :
    (words o cs).Pairwise fun v w => v.offset + byteLength v.chars < w.offset := by
  have hspelled := spelled_words o cs
  generalize hwords : words o cs = ws at hspelled
  clear hwords
  induction hspelled with
  | blanks => exact .nil
  | @word o lead v rest ws _ _ hrest hspelled ih =>
    exact .cons (fun w hw => lt_offset_of_mem hrest (hspelled.words_eq ▸ hw)) ih

/-- How far a scan has come: the bytes behind it and the characters ahead. -/
structure Cursor where
  offset : Nat
  ahead : List Char

/-- Passes the first character that `p` holds of, and tells where it stands. -/
def seek (p : Char → Bool) (offset : Nat) : List Char → Option (Nat × Cursor)
  | [] => none
  | c :: cs =>
    if p c then some (offset, ⟨offset + c.utf8Size, cs⟩) else seek p (offset + c.utf8Size) cs

/-- Where a word ends, and the cursor behind the blank that ends it. -/
def seekEnd (s : String) (inside : Cursor) : Nat × Cursor :=
  (seek isBlank inside.offset inside.ahead).getD (s.utf8ByteSize, ⟨s.utf8ByteSize, []⟩)

theorem length_lt_of_seek {p : Char → Bool} {o i : Nat} {cs : List Char} {behind : Cursor}
    (h : seek p o cs = some (i, behind)) : behind.ahead.length < cs.length := by
  induction cs generalizing o with
  | nil => exact nomatch h
  | cons c cs ih =>
    rw [seek] at h
    split_ifs at h with hc
    · obtain ⟨-, rfl⟩ := Prod.mk.inj (Option.some.inj h)
      exact Nat.lt_succ_self _
    · exact (ih h).trans (Nat.lt_succ_self _)

theorem length_seekEnd_le (s : String) (inside : Cursor) :
    (seekEnd s inside).2.ahead.length ≤ inside.ahead.length := by
  unfold seekEnd
  cases h : seek isBlank inside.offset inside.ahead with
  | none => exact Nat.zero_le _
  | some found => exact (length_lt_of_seek h).le

/-- The words ahead as they are cut out of the bytes of `s`. There is no result if a cut fails. -/
def scan (s : String) (here : Cursor) : Option (List (Nat × String)) :=
  match _ : seek (!isBlank ·) here.offset here.ahead with
  | none => some []
  | some (start, inside) => do
    let text ← cut? s start (seekEnd s inside).1
    let rest ← scan s (seekEnd s inside).2
    return (start, text) :: rest
termination_by here.ahead.length
decreasing_by exact (length_seekEnd_le s inside).trans_lt (length_lt_of_seek ‹_›)

theorem seek_append {p : Char → Bool} {cs : List Char} (hcs : ∀ c ∈ cs, p c = false) {c : Char}
    (hc : p c = true) (o : Nat) (ds : List Char) :
    seek p o (cs ++ c :: ds) =
      some (o + byteLength cs, ⟨o + byteLength cs + c.utf8Size, ds⟩) := by
  induction cs generalizing o with
  | nil => simp [seek, hc, byteLength]
  | cons d cs ih =>
    rw [List.cons_append, seek, if_neg (by simp [hcs d]), ih fun e he => hcs e (by simp [he])]
    simp only [byteLength, Nat.add_assoc]

theorem seek_eq_none {p : Char → Bool} {cs : List Char} (hcs : ∀ c ∈ cs, p c = false) (o : Nat) :
    seek p o cs = none := by
  induction cs generalizing o with
  | nil => rfl
  | cons d cs ih => rw [seek, if_neg (by simp [hcs d]), ih fun e he => hcs e (by simp [he])]

theorem scan_of_seek_none {o : Nat} {cs : List Char} (h : seek (!isBlank ·) o cs = none)
    (s : String) : scan s ⟨o, cs⟩ = some [] := by
  unfold scan
  split
  · rfl
  · rename_i heq
    exact nomatch h.symm.trans heq

theorem scan_of_seek_some {o start : Nat} {cs : List Char} {inside : Cursor}
    (h : seek (!isBlank ·) o cs = some (start, inside)) (s : String) :
    scan s ⟨o, cs⟩ = (cut? s start (seekEnd s inside).1).bind fun text =>
      (scan s (seekEnd s inside).2).map fun rest => (start, text) :: rest := by
  conv_lhs => unfold scan
  split
  · rename_i heq
    exact nomatch h.symm.trans heq
  · rename_i heq
    obtain ⟨rfl, rfl⟩ := Prod.mk.inj (Option.some.inj (h.symm.trans heq))
    simp only [Option.bind_eq_bind, Option.pure_def, Option.map_eq_bind, Function.comp_def]

theorem scan_blank {c : Char} (hc : isBlank c = true) (s : String) (o : Nat) (cs : List Char) :
    scan s ⟨o, c :: cs⟩ = scan s ⟨o + c.utf8Size, cs⟩ := by
  have hskip : seek (!isBlank ·) o (c :: cs) = seek (!isBlank ·) (o + c.utf8Size) cs := by
    simp [seek, hc]
  cases h : seek (!isBlank ·) (o + c.utf8Size) cs with
  | none => rw [scan_of_seek_none (hskip.trans h), scan_of_seek_none h]
  | some found => exact (scan_of_seek_some (hskip.trans h) s).trans (scan_of_seek_some h s).symm

/-- The blank that a word ends with is passed, which makes no difference to what comes next. -/
theorem seekEnd_append {w rest : List Char} (hw : ∀ c ∈ w, isBlank c = false) (hrest : Ends rest)
    {s : String} {o : Nat} (hs : s.utf8ByteSize = o + byteLength w + byteLength rest) :
    (seekEnd s ⟨o, w ++ rest⟩).1 = o + byteLength w ∧
      scan s (seekEnd s ⟨o, w ++ rest⟩).2 = scan s ⟨o + byteLength w, rest⟩ := by
  unfold seekEnd
  cases rest with
  | nil =>
    rw [List.append_nil, seek_eq_none hw]
    exact ⟨hs, by rw [Option.getD_none, hs]; rfl⟩
  | cons c rest =>
    have hc : isBlank c = true := hrest c rfl
    rw [seek_append hw hc]
    exact ⟨rfl, (scan_blank hc s _ rest).symm⟩

theorem scan_of_spelled {o : Nat} {cs : List Char} {ws : List Word} (h : Spelled o cs ws)
    (before : List Char) (ho : o = byteLength before) :
    scan (String.ofList (before ++ cs)) ⟨o, cs⟩ = some (ws.map fun w => (w.offset, w.text)) := by
  induction h generalizing before with
  | blanks h => exact scan_of_seek_none (seek_eq_none (fun c hc => by simp [h c hc]) _) _
  | @word o lead w rest ws hlead hw hrest _ ih =>
    subst ho
    obtain ⟨c, w, rfl⟩ := List.exists_cons_of_ne_nil hw.1
    have hstart : seek (!isBlank ·) (byteLength before) (lead ++ (c :: w) ++ rest) =
        some (byteLength before + byteLength lead,
          ⟨byteLength before + byteLength lead + c.utf8Size, w ++ rest⟩) := by
      rw [List.append_assoc]
      exact seek_append (fun d hd => by simp [hlead d hd]) (by simp [hw.2 c]) _ (w ++ rest)
    have hs : before ++ (lead ++ (c :: w) ++ rest) = before ++ lead ++ (c :: w) ++ rest := by
      simp only [List.append_assoc]
    have hsize : (String.ofList (before ++ lead ++ (c :: w) ++ rest)).utf8ByteSize =
        byteLength before + byteLength lead + c.utf8Size + byteLength w + byteLength rest := by
      simp only [utf8ByteSize_ofList, byteLength_append, byteLength, Nat.add_assoc]
    obtain ⟨hstop, hnext⟩ :=
      seekEnd_append (fun d hd => hw.2 d (List.mem_cons_of_mem c hd)) hrest hsize
    have hcut := cut?_append (before ++ lead) (c :: w) rest
    have hrec := ih (before ++ lead ++ (c :: w)) (by simp only [byteLength_append])
    rw [byteLength_append, byteLength, ← Nat.add_assoc] at hcut
    rw [byteLength, ← Nat.add_assoc] at hrec
    rw [hs, scan_of_seek_some hstart, hstop, hnext, hcut, hrec]
    rfl

/-- No cut of a scan fails, and it finds the words. -/
theorem scan_eq (formula : String) :
    scan formula ⟨0, formula.toList⟩ =
      some ((words 0 formula.toList).map fun w => (w.offset, w.text)) := by
  have hscan := scan_of_spelled (spelled_words 0 formula.toList) [] rfl
  rwa [List.nil_append, String.ofList_toList] at hscan

example : (words 0 "\tval  ü 7 ".toList).map (fun w => (w.offset, w.text)) =
    [(1, "val"), (6, "ü"), (9, "7")] := by decide +kernel

end Guide

/-- The text that a span covers, if it lies in the formula and on bounds of characters. -/
def Span.text? (s : Span) (formula : String) : Option String :=
  Guide.cut? formula s.offset (s.offset + s.length)

/-- The word that a fault reports. -/
def GuideFault.word? : GuideFault → Option String
  | .unsupportedOperator word | .invalidNumber word => some word
  | _ => none

/-- The span of an error covers a text of its formula: the word in question, if there is one. -/
def GuideError.Located (e : GuideError) : Prop :=
  ∃ text, e.span.text? e.formula = some text ∧ ∀ word ∈ e.fault.word?, text = word

namespace Guide

variable {α : Type} [Scalar α]

/-- What a formula of these words is read as. Of several faults the first one counts. -/
inductive Reads (name formula : String) : List Word → Except GuideError α → Prop
  | empty : Reads name formula [] (.error ⟨.empty, ⟨0, formula.utf8ByteSize⟩, name, formula⟩)
  | unsupportedOperator {op : Word} {rest : List Word} : op.text ≠ "val" →
      Reads name formula (op :: rest)
        (.error ⟨.unsupportedOperator op.text, op.span, name, formula⟩)
  | missingOperand {op : Word} : op.text = "val" →
      Reads name formula [op] (.error ⟨.missingOperand, op.span, name, formula⟩)
  | invalidNumber {op number : Word} {rest : List Word} : op.text = "val" →
      Numeral.value? (α := α) number.chars = none →
      Reads name formula (op :: number :: rest)
        (.error ⟨.invalidNumber number.text, number.span, name, formula⟩)
  | trailingInput {op number extra : Word} {rest : List Word} {v : α} : op.text = "val" →
      Numeral.value? number.chars = some v →
      Reads name formula (op :: number :: extra :: rest)
        (.error ⟨.trailingInput, ⟨extra.offset, formula.utf8ByteSize - extra.offset⟩, name,
          formula⟩)
  | number {op number : Word} {v : α} : op.text = "val" →
      Numeral.value? number.chars = some v → Reads name formula [op, number] (.ok v)

/-- The word `val` and a numeral of value `v`, with blanks between them and about them. -/
def Denotes (formula : String) (v : α) : Prop :=
  ∃ lead gap number trail, formula.toList = lead ++ ['v', 'a', 'l'] ++ (gap ++ number ++ trail) ∧
    Blanks lead ∧ Blanks gap ∧ gap ≠ [] ∧ IsWord number ∧ Blanks trail ∧
    Numeral.value? number = some v

theorem value_eq_iff_reads {name formula : String} {r : Except GuideError α} :
    value name formula = r ↔ Reads name formula (words 0 formula.toList) r := by
  constructor
  · rintro rfl
    unfold value
    cases words 0 formula.toList with
    | nil => exact .empty
    | cons op operands =>
      by_cases hop : op.text = "val"
      · simp only [hop, ne_eq, not_true_eq_false, if_false]
        cases operands with
        | nil => exact .missingOperand hop
        | cons number rest =>
          cases hnumber : Numeral.value? (α := α) number.chars with
          | none =>
            simp only [hnumber]
            exact .invalidNumber hop hnumber
          | some v =>
            simp only [hnumber]
            cases rest with
            | nil => exact .number hop hnumber
            | cons extra rest => exact .trailingInput hop hnumber
      · simp only [ne_eq, hop, not_false_eq_true, if_true]
        exact .unsupportedOperator hop
  · intro h
    unfold value
    generalize words 0 formula.toList = ws at h
    cases h with
    | empty => rfl
    | unsupportedOperator hop => simp only [if_pos hop]
    | missingOperand hop => simp only [hop, ne_eq, not_true_eq_false, if_false]
    | invalidNumber hop hnumber => simp only [hop, hnumber, ne_eq, not_true_eq_false, if_false]
    | trailingInput hop hnumber => simp only [hop, hnumber, ne_eq, not_true_eq_false, if_false]
    | number hop hnumber => simp only [hop, hnumber, ne_eq, not_true_eq_false, if_false]

theorem IsRun.text? {formula : String} {w : Word} (h : IsRun 0 formula.toList w) :
    w.span.text? formula = some w.text := by
  obtain ⟨before, after, hformula, hoffset, -⟩ := h
  have hcut := cut?_append before w.chars after
  rw [← hformula, String.ofList_toList] at hcut
  rw [Span.text?, Word.span, hoffset, Nat.zero_add, hcut]
  rfl

/-- From a word on a formula can be cut. -/
theorem IsRun.rest_text? {formula : String} {w : Word} (h : IsRun 0 formula.toList w) :
    ∃ text, Span.text? ⟨w.offset, formula.utf8ByteSize - w.offset⟩ formula = some text := by
  obtain ⟨before, after, hformula, hoffset, -⟩ := h
  rw [List.append_assoc] at hformula
  have hcut := cut?_append before (w.chars ++ after) []
  have hsize : formula.utf8ByteSize = byteLength before + byteLength (w.chars ++ after) := by
    rw [← byteLength_toList, hformula, byteLength_append]
  rw [List.append_nil, ← hformula, String.ofList_toList] at hcut
  refine ⟨String.ofList (w.chars ++ after), ?_⟩
  rw [Span.text?, hoffset, Nat.zero_add, hsize, Nat.add_sub_cancel_left]
  exact hcut

theorem whole_text? (formula : String) :
    Span.text? ⟨0, formula.utf8ByteSize⟩ formula = some formula := by
  have hcut := cut?_append [] formula.toList []
  rw [List.append_nil, List.nil_append, String.ofList_toList, byteLength_toList] at hcut
  exact hcut

theorem Reads.located {name formula : String} {e : GuideError}
    (h : Reads (α := α) name formula (words 0 formula.toList) (.error e)) : e.Located := by
  have hrun {w : Word} (hw : w ∈ words 0 formula.toList) := mem_words.1 hw
  generalize words 0 formula.toList = ws at h hrun
  cases h with
  | empty => exact ⟨_, whole_text? formula, by simp [GuideFault.word?]⟩
  | unsupportedOperator => exact ⟨_, (hrun (by simp)).text?, by simp [GuideFault.word?]⟩
  | missingOperand => exact ⟨_, (hrun (by simp)).text?, by simp [GuideFault.word?]⟩
  | invalidNumber => exact ⟨_, (hrun (by simp)).text?, by simp [GuideFault.word?]⟩
  | @trailingInput _ _ extra =>
    obtain ⟨text, htext⟩ := (hrun (w := extra) (by simp)).rest_text?
    exact ⟨text, htext, by simp [GuideFault.word?]⟩

/-- Two words are parted by blanks. -/
theorem Spelled.pair {o : Nat} {cs : List Char} {v w : Word} (h : Spelled o cs [v, w]) :
    ∃ lead gap trail, cs = lead ++ v.chars ++ (gap ++ w.chars ++ trail) ∧
      Blanks lead ∧ Blanks gap ∧ gap ≠ [] ∧ IsWord w.chars ∧ Blanks trail := by
  cases h with
  | @word _ lead _ _ _ hlead _ hends h =>
    cases h with
    | @word _ gap _ trail _ hgap hw _ h =>
      cases h with
      | blanks htrail =>
        refine ⟨lead, gap, trail, rfl, hlead, hgap, ?_, hw, htrail⟩
        rintro rfl
        rw [List.nil_append] at hends
        exact hw.not_ends_append trail hends

theorem value_eq_ok_iff {name formula : String} {v : α} :
    value name formula = .ok v ↔ Denotes formula v := by
  rw [value_eq_iff_reads]
  constructor
  · intro h
    have hspelled := spelled_words 0 formula.toList
    generalize words 0 formula.toList = ws at h hspelled
    cases h with
    | @number op number _ hop hnumber =>
      obtain ⟨lead, gap, trail, hformula, hlead, hgap, hne, hword, htrail⟩ := hspelled.pair
      rw [Word.text, ← String.toList_inj, String.toList_ofList] at hop
      rw [hop] at hformula
      exact ⟨lead, gap, number.chars, trail, hformula, hlead, hgap, hne, hword, htrail, hnumber⟩
  · rintro ⟨lead, gap, number, trail, hformula, hlead, hgap, hne, hnumber, htrail, hvalue⟩
    have hval : IsWord ['v', 'a', 'l'] := ⟨List.cons_ne_nil _ _, by simp [isBlank]⟩
    have hends : Ends trail := fun c hc => htrail c (List.mem_of_head? hc)
    have hgapEnds : Ends (gap ++ number ++ trail) := by
      intro c hc
      rw [List.append_assoc, List.head?_append_of_ne_nil _ hne] at hc
      exact hgap c (List.mem_of_head? hc)
    rw [hformula, words_of_word hlead hval hgapEnds, words_of_word hgap hnumber hends,
      words_of_blanks htrail]
    exact .number rfl hvalue

/-- The words of a formula are its maximal runs without blanks in their order, each behind a blank,
and a scan cuts all of them out. They alone decide what the formula is read as: a value where it is
`val` and a numeral, and else an error whose span covers text of the formula, namely the word that
the error reports if it reports one. -/
theorem value_reads_words (name formula : String) :
    let ws := words 0 formula.toList
    ((∀ w, w ∈ ws ↔ IsRun 0 formula.toList w) ∧
      ws.Pairwise fun v w => v.offset + v.span.length < w.offset) ∧
    scan formula ⟨0, formula.toList⟩ = some (ws.map fun w => (w.offset, w.text)) ∧
    (∀ r : Except GuideError α, value name formula = r ↔ Reads name formula ws r) ∧
    (∀ v : α, value name formula = .ok v ↔ Denotes formula v) ∧
    ∀ e : GuideError, (value name formula : Except GuideError α) = .error e → e.Located :=
  ⟨⟨fun _ => mem_words, pairwise_words 0 _⟩, scan_eq formula, fun _ => value_eq_iff_reads,
    fun _ => value_eq_ok_iff, fun _ h => (value_eq_iff_reads.1 h).located⟩

end Guide

end ShapeOutline
