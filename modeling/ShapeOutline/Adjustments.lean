import ShapeOutline.Scalar

/-!
Adjustment sets: a finite value for each of some guide names, kept in the order of the names' code
points.
-/

namespace ShapeOutline

structure Adjustments (α : Type) where
  entries : List (String × α) := []

open Scalar

variable {α : Type} [Scalar α]

namespace Adjustments

def empty : Adjustments α := {}

/-- The entries with `name` set to `v`, in order if they were. -/
def put (name : String) (v : α) : List (String × α) → List (String × α)
  | [] => [(name, v)]
  | (key, u) :: rest =>
    if name < key then (name, v) :: (key, u) :: rest
    else if name = key then (name, v) :: rest
    else (key, u) :: put name v rest

/-- A value that is not finite leaves the set as it is. -/
def insert (a : Adjustments α) (name : String) (v : α) : Adjustments α :=
  if isFinite v then ⟨put name v a.entries⟩ else a

def get? (a : Adjustments α) (name : String) : Option α := a.entries.lookup name

def getD (a : Adjustments α) (name : String) (default : α) : α := (a.get? name).getD default

def isEmpty (a : Adjustments α) : Bool := a.entries.isEmpty

/-- Pairs inserted in order, so that the last finite value of a name stays. -/
def ofList (ps : List (String × α)) : Adjustments α :=
  ps.foldl (fun a p => a.insert p.1 p.2) empty

end Adjustments

end ShapeOutline
