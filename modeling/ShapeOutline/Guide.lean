import ShapeOutline.Adjustments
import ShapeOutline.Numeral

/-!
Guide formulas of adjustment lists: the word `val` and one numeral, separated by blanks. A formula
that is anything else is refused with the bytes at fault.
-/

namespace ShapeOutline

/-- A run of bytes of a formula. -/
structure Span where
  offset : Nat
  length : Nat

inductive GuideFault where
  | empty
  | unsupportedOperator (word : String)
  | missingOperand
  | invalidNumber (word : String)
  | trailingInput

structure GuideError where
  fault : GuideFault
  span : Span
  name : String
  formula : String

namespace GuideError

def message (e : GuideError) : String :=
  match e.fault with
  | .empty => "empty guide formula"
  | .unsupportedOperator word => "unsupported guide operator: " ++ word
  | .missingOperand => "missing operand"
  | .invalidNumber word => "invalid number: " ++ word
  | .trailingInput => "unexpected trailing input"

def code (e : GuideError) : String :=
  "prstgeom::guide::" ++
    match e.fault with
    | .empty => "empty"
    | .unsupportedOperator _ => "unsupported_operator"
    | .missingOperand => "missing_operand"
    | .invalidNumber _ => "invalid_number"
    | .trailingInput => "trailing_input"

def help? (e : GuideError) : Option String :=
  match e.fault with
  | .empty => some "adjustment guides are written as `val <integer>`"
  | .unsupportedOperator _ => some "only `val` is accepted for adjustment values"
  | _ => none

/-- What is said of the bytes at fault. -/
def label (e : GuideError) : String :=
  match e.fault with
  | .empty => "nothing here"
  | .unsupportedOperator _ => "expected `val`"
  | .missingOperand => "`val` needs a number after it"
  | .invalidNumber _ => "not a finite number"
  | .trailingInput => "remove this"

end GuideError

namespace Guide

/-- The blanks that separate words: space, tab, line feed, form feed and carriage return. -/
def isBlank (c : Char) : Bool :=
  c == ' ' || c == '\t' || c == '\n' || c == '\x0c' || c == '\r'

def byteLength : List Char → Nat
  | [] => 0
  | c :: cs => c.utf8Size + byteLength cs

structure Word where
  offset : Nat
  chars : List Char

namespace Word

def text (w : Word) : String := String.ofList w.chars

def span (w : Word) : Span := ⟨w.offset, byteLength w.chars⟩

end Word

/-- The maximal runs of characters that are not blanks, at their byte offsets. A character joins the
word that begins right after it. -/
def words (offset : Nat) : List Char → List Word
  | [] => []
  | c :: cs =>
    let next := offset + c.utf8Size
    let rest := words next cs
    if isBlank c then rest
    else
      match rest with
      | [] => [⟨offset, [c]⟩]
      | w :: ws =>
        if w.offset = next then ⟨offset, c :: w.chars⟩ :: ws else ⟨offset, [c]⟩ :: w :: ws

variable {α : Type} [Scalar α]

def value (name formula : String) : Except GuideError α :=
  let refuse (fault : GuideFault) (span : Span) : Except GuideError α :=
    .error { fault, span, name, formula }
  match words 0 formula.toList with
  | [] => refuse .empty ⟨0, formula.utf8ByteSize⟩
  | op :: operands =>
    if op.text ≠ "val" then refuse (.unsupportedOperator op.text) op.span
    else
      match operands with
      | [] => refuse .missingOperand op.span
      | number :: rest =>
        match Numeral.value? number.chars with
        | none => refuse (.invalidNumber number.text) number.span
        | some v =>
          match rest with
          | [] => .ok v
          | extra :: _ => refuse .trailingInput ⟨extra.offset, formula.utf8ByteSize - extra.offset⟩

end Guide

variable {α : Type} [Scalar α]

/-- The set that a list of named formulas describes, or the error of the first bad formula. -/
def Adjustments.ofGuides (guides : List (String × String)) : Except GuideError (Adjustments α) :=
  guides.foldlM (fun a g => (Guide.value g.1 g.2).map (a.insert g.1)) Adjustments.empty

end ShapeOutline
