/-!
# Positions in an array

The entries of an array of a given shape stand in row-major order: the last
index runs fastest. `positions` lists all index tuples in this order, `tuple` is
the one at a place, and `offset` finds the place of one of them. Two shapes are
compatible when, aligned at their last dimensions, each pair of dimensions
agrees or one of the two is one; a dimension of one is then repeated.
-/

namespace ControlHierarchy.Index

def volume (shape : List Nat) : Nat := shape.foldr (· * ·) 1

@[simp] theorem volume_nil : volume [] = 1 := rfl

@[simp] theorem volume_cons (d : Nat) (shape : List Nat) : volume (d :: shape) = d * volume shape :=
  rfl

/-- The index tuple at a place in row-major order. -/
def tuple : (shape : List Nat) → (place : Nat) → List Nat
  | [], _ => []
  | _ :: shape, place => place / volume shape :: tuple shape (place % volume shape)

/-- All index tuples of a shape, in row-major order. -/
def positions (shape : List Nat) : List (List Nat) := (List.range (volume shape)).map (tuple shape)

theorem length_positions (shape : List Nat) : (positions shape).length = volume shape :=
  by simp [positions]

/-- The place of an index tuple in row-major order. -/
def offset (shape position : List Nat) : Nat :=
  (shape.zip position).foldl (fun place p => place * p.1 + p.2) 0

/-- The common shape of two compatible shapes, dimensions listed from the last one. -/
def joinReversed : List Nat → List Nat → Option (List Nat)
  | [], t => some t
  | s, [] => some s
  | d :: s, e :: t =>
    if d = e || e = 1 then (joinReversed s t).map (d :: ·)
    else if d = 1 then (joinReversed s t).map (e :: ·)
    else none

/-- The common shape of two compatible shapes. -/
def join (s t : List Nat) : Option (List Nat) := (joinReversed s.reverse t.reverse).map List.reverse

/-- The index tuple of an array of shape `shape` that stands at `position` of a
compatible shape. -/
def align (shape position : List Nat) : List Nat :=
  List.zipWith (fun d i => if d = 1 then 0 else i) shape
    (position.drop (position.length - shape.length))

end ControlHierarchy.Index
