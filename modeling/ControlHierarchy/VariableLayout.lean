import ControlHierarchy.AffineMap

/-!
# Layouts of the decision vector

A layout places named variables one after the other inside a flat decision
vector. The offset of a variable is the sum of the sizes before it; nothing else
is stored than the names and sizes in order, and no name occurs twice.
-/

namespace ControlHierarchy

/-- Named segments of a decision vector, in order. -/
structure VariableLayout where
  segments : List (String × Nat)
  distinct : (segments.map Prod.fst).Nodup

namespace VariableLayout

def empty : VariableLayout := ⟨[], by simp⟩

def names (l : VariableLayout) : List String := l.segments.map Prod.fst

def size (l : VariableLayout) : Nat := l.segments.foldr (fun segment total => segment.2 + total) 0

def contains (l : VariableLayout) (name : String) : Bool := l.names.contains name

def add (l : VariableLayout) (name : String) (size : Int) : Except Error VariableLayout :=
  if fresh : name ∈ l.names then .error (.duplicateVariable name)
  else if size < 0 then .error (.negativeVariable name size)
  else .ok ⟨l.segments ++ [(name, size.toNat)], by
    have h := l.distinct
    rw [List.map_append, List.nodup_append]
    refine ⟨h, by simp, ?_⟩
    intro a ha b hb
    simp only [List.map_cons, List.map_nil, List.mem_singleton] at hb
    rintro rfl
    exact fresh (hb ▸ ha)⟩

def ofPairs (pairs : List (String × Int)) : Except Error VariableLayout :=
  pairs.foldlM (fun l p => l.add p.1 p.2) empty

/-- The offset and the size of a variable among the given ones, if it is there. -/
def locate? (name : String) : (offset : Nat) → List (String × Nat) → Option (Nat × Nat)
  | _, [] => none
  | offset, (other, size) :: rest =>
    if other = name then some (offset, size) else locate? name (offset + size) rest

def locate (l : VariableLayout) (name : String) : Except Error (Nat × Nat) :=
  match locate? name 0 l.segments with
  | some segment => .ok segment
  | none => .error (.variableNotFound name l.names)

def offset (l : VariableLayout) (name : String) : Except Error Nat := return (← l.locate name).1

def variableSize (l : VariableLayout) (name : String) : Except Error Nat :=
  return (← l.locate name).2

def select {α : Type} [Zero α] [One α] (l : VariableLayout) (name : String) :
    Except Error (AffineMap α) := do
  let (start, length) ← l.locate name
  return .linear (RowMatrix.ofFn length l.size fun i j => if j = start + i then 1 else 0)

/-- The segment of a decision vector that holds a variable. -/
def extract {α : Type} [Zero α] [One α] [Add α] [Mul α] (l : VariableLayout) (name : String)
    (x : ArrayData α) : Except Error (Tensor α) := do
  let x ← x.read
  if x.shape ≠ [l.size] then throw (.decisionShape l.size x.shape)
  (← l.select name).value x

end VariableLayout

end ControlHierarchy
