import ControlHierarchy.Tensor.Basic

/-!
# Piling

Piling puts the rows of one matrix above those of another, or one vector behind
another. It is the one way in which merged arrays grow. Ranks are compared first
and the numbers of columns second, also between blocks without rows, so that no
wrong width hides behind an empty block.
-/

namespace ControlHierarchy.Tensor

variable {α : Type}

/-- Two blocks behind each other along the first dimension; all other dimensions
have to agree. -/
def appendBlocks (b c : Block α) : Except Error (Tensor α) :=
  if b.height ≠ c.height then .error (.pileColumns b.height c.height)
  else if same : b.height = c.height ∧ b.width = c.width ∧ b.inner = c.inner then
    .ok (.block ⟨b.depth + c.depth, b.height, b.width, b.inner, b.entries ++ c.entries, by
      obtain ⟨height, width, inner⟩ := same
      rw [List.length_append, b.length_entries, c.length_entries]
      simp [Index.volume_cons, height, width, inner, Nat.add_mul]⟩)
  else .error (.fault .badValue)

def pile (top bottom : Tensor α) : Except Error (Tensor α) :=
  if top.rank ≠ bottom.rank then .error (.pileRanks top.shape bottom.shape)
  else
    match top, bottom with
    | vector u, vector v => .ok (vector (u ++ v))
    | matrix m, matrix k =>
      if width : m.width = k.width then .ok (matrix (m.append k width))
        else .error (.pileColumns m.width k.width)
    | block b, block c => appendBlocks b c
    | _, _ => .error (.fault .badIndex)

@[simp] theorem pile_vector (u v : List α) :
    (vector u).pile (vector v) = .ok (vector (u ++ v)) := by
  simp [pile, rank, shape]

theorem pile_matrix {m k : RowMatrix α} (width : m.width = k.width) :
    (matrix m).pile (matrix k) = .ok (matrix (m.append k width)) := by
  simp [pile, rank, shape, width]

/-- Also a matrix without rows is refused when its width is wrong. -/
theorem pile_matrix_of_ne {m k : RowMatrix α} (width : m.width ≠ k.width) :
    (matrix m).pile (matrix k) = .error (.pileColumns m.width k.width) := by
  simp [pile, rank, shape, width]

/-- Blocks on top of each other, from a matrix without rows downwards. -/
def pileAll (columns : Int) (blocks : List (Tensor α)) : Except Error (Tensor α) := do
  blocks.foldlM pile (.matrix (← RowMatrix.withoutRows columns))

end ControlHierarchy.Tensor
