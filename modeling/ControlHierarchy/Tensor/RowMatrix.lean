import ControlHierarchy.Tensor.Pieces

/-!
# Matrices in row-major order

A matrix is a height, a width, and as many entries as they ask for, row after
row; so a matrix without entries still knows how many rows and columns it has,
however many there are. `rows` is the view of a matrix that statements use:
stacking two matrices of one width appends their rows, and products are sums of
products of rows and columns, taken from the left and started at zero. A result
without entries is written down as such, without a look at its rows.
-/

namespace ControlHierarchy

structure RowMatrix (α : Type) where
  height : Nat
  width : Nat
  /-- The entries in row-major order. -/
  entries : List α
  length_entries : entries.length = height * width

namespace RowMatrix

variable {α : Type}

def rows (m : RowMatrix α) : List (List α) := pieces m.width m.height m.entries

@[simp] theorem length_rows (m : RowMatrix α) : m.rows.length = m.height := length_pieces _ _ _

theorem length_of_mem_rows (m : RowMatrix α) : ∀ r ∈ m.rows, r.length = m.width :=
  length_of_mem_pieces m.length_entries

theorem flatten_rows (m : RowMatrix α) : m.rows.flatten = m.entries :=
  flatten_pieces m.length_entries

@[ext] theorem ext {m k : RowMatrix α} (width : m.width = k.width) (rows : m.rows = k.rows) :
    m = k := by
  have height : m.height = k.height := by rw [← length_rows, rows, length_rows]
  have entries : m.entries = k.entries := by rw [← flatten_rows, rows, flatten_rows]
  cases m; cases k; simp_all

def ofRows (width : Nat) (rows : List (List α)) (rectangular : ∀ r ∈ rows, r.length = width) :
    RowMatrix α :=
  ⟨rows.length, width, rows.flatten, length_flatten rectangular⟩

@[simp] theorem rows_ofRows (width : Nat) (rows : List (List α))
    (rectangular : ∀ r ∈ rows, r.length = width) :
    (ofRows width rows rectangular).rows = rows := pieces_flatten rectangular

def empty (width : Nat) : RowMatrix α := ⟨0, width, [], by simp⟩

/-- The matrix with the entry `f i j` in row `i` and column `j`. -/
def ofFn (height width : Nat) (f : Nat → Nat → α) : RowMatrix α where
  height := height
  width := width
  entries := (List.range (height * width)).map fun place => f (place / width) (place % width)
  length_entries := by simp

def zero [Zero α] (height width : Nat) : RowMatrix α := ofFn height width fun _ _ => 0

def identity [Zero α] [One α] (n : Nat) : RowMatrix α := ofFn n n fun i j => if i = j then 1 else 0

/-- The square matrix with the given diagonal and zeros elsewhere. -/
def diagonal [Zero α] (v : List α) : RowMatrix α :=
  ofFn v.length v.length fun i j => if i = j then v.getD i 0 else 0

/-- The entry in row `i` and column `j`; outside of the matrix it reads as zero. -/
def entry [Zero α] (m : RowMatrix α) (i j : Nat) : α :=
  if j < m.width then m.entries.getD (i * m.width + j) 0 else 0

def mainDiagonal [Zero α] (m : RowMatrix α) : List α :=
  (List.range (min m.height m.width)).map fun i => m.entry i i

/-- Applies a function to every entry. -/
def map {β : Type} (f : α → β) (m : RowMatrix α) : RowMatrix β where
  height := m.height
  width := m.width
  entries := m.entries.map f
  length_entries := by simpa using m.length_entries

/-- Combines the entries of two matrices of one width, row by row. -/
def zipWith (f : α → α → α) (m k : RowMatrix α) (width : m.width = k.width) : RowMatrix α where
  height := min m.height k.height
  width := m.width
  entries := List.zipWith f m.entries k.entries
  length_entries := by
    rw [List.length_zipWith, m.length_entries, k.length_entries, ← width, Nat.mul_min_mul_right]

/-- The rows of the first matrix above those of the second. -/
def append (m k : RowMatrix α) (width : m.width = k.width) : RowMatrix α where
  height := m.height + k.height
  width := m.width
  entries := m.entries ++ k.entries
  length_entries := by
    rw [List.length_append, m.length_entries, k.length_entries, ← width, Nat.add_mul]

def keepRows {β : Type} (m : RowMatrix α) (tags : List β) (keep : β → Bool) : RowMatrix α :=
  ofRows m.width (((m.rows.zip tags).filter fun p => keep p.2).map Prod.fst) <| by
    intro r hr
    obtain ⟨p, hp, rfl⟩ := List.mem_map.1 hr
    exact m.length_of_mem_rows p.1 (List.of_mem_zip (List.mem_filter.1 hp).1).1

def columns [Zero α] (m : RowMatrix α) : List (List α) :=
  (List.range m.width).map fun j => m.rows.map (·.getD j 0)

@[simp] theorem length_columns [Zero α] (m : RowMatrix α) : m.columns.length = m.width :=
  by simp [columns]

theorem length_of_mem_columns [Zero α] (m : RowMatrix α) : ∀ c ∈ m.columns, c.length = m.height :=
  by simp [columns]

/-- The matrix with `height` rows that a computation gives; without entries
there is nothing to compute. -/
def computed (height width : Nat) (rows : Unit → List (List α)) (count : (rows ()).length = height)
    (rectangular : ∀ r ∈ rows (), r.length = width) : RowMatrix α where
  height := height
  width := width
  entries := if height = 0 || width = 0 then [] else (rows ()).flatten
  length_entries := by
    split
    · next none => grind
    · rw [length_flatten rectangular, count]

@[simp] theorem rows_computed (height width : Nat) (rows : Unit → List (List α))
    (count : (rows ()).length = height) (rectangular : ∀ r ∈ rows (), r.length = width) :
    (computed height width rows count rectangular).rows = rows () := by
  have whole : (computed height width rows count rectangular).entries = (rows ()).flatten := by
    have size := length_flatten rectangular
    simp only [computed]
    split
    · next none =>
      rw [count] at size
      exact (List.eq_nil_of_length_eq_zero (by grind)).symm
    · rfl
  rw [RowMatrix.rows, whole]
  simpa [computed, count] using pieces_flatten rectangular

def transpose [Zero α] (m : RowMatrix α) : RowMatrix α :=
  computed m.width m.height (fun _ => m.columns) m.length_columns m.length_of_mem_columns

/-- The sum of the products of corresponding entries. -/
def dot [Zero α] [Add α] [Mul α] (u v : List α) : α := (List.zipWith (· * ·) u v).foldl (· + ·) 0

def mulVec [Zero α] [Add α] [Mul α] (m : RowMatrix α) (v : List α) : List α := m.rows.map (dot · v)

@[simp] theorem length_mulVec [Zero α] [Add α] [Mul α] (m : RowMatrix α) (v : List α) :
    (m.mulVec v).length = m.height := by
  simp [mulVec]

def vecMul [Zero α] [Add α] [Mul α] (v : List α) (m : RowMatrix α) : List α := m.columns.map (dot v)

def products [Zero α] [Add α] [Mul α] (rows columns : List (List α)) : List (List α) :=
  rows.map fun r => columns.map (dot r)

/-- The matrix product; the width of the first matrix is the height of the second. -/
def mul [Zero α] [Add α] [Mul α] (m k : RowMatrix α) : RowMatrix α :=
  computed m.height k.width (fun _ => products m.rows k.columns) (by simp [products])
    (by simp [products])

@[simp] theorem rows_empty (width : Nat) : (empty width : RowMatrix α).rows = [] := rfl

@[simp] theorem width_empty (width : Nat) : (empty width : RowMatrix α).width = width := rfl

@[simp] theorem rows_map {β : Type} (f : α → β) (m : RowMatrix α) :
    (m.map f).rows = m.rows.map (·.map f) :=
  pieces_map f m.width m.height m.entries

@[simp] theorem width_map {β : Type} (f : α → β) (m : RowMatrix α) : (m.map f).width = m.width :=
  rfl

@[simp] theorem rows_append (m k : RowMatrix α) (h : m.width = k.width) :
    (m.append k h).rows = m.rows ++ k.rows := by
  simp only [rows, append, ← h]
  exact pieces_append m.length_entries

@[simp] theorem rows_zipWith (f : α → α → α) (m k : RowMatrix α) (h : m.width = k.width) :
    (m.zipWith f k h).rows = List.zipWith (List.zipWith f) m.rows k.rows := by
  simp only [rows, zipWith, ← h]
  exact pieces_zipWith f m.width m.height k.height m.entries k.entries

@[simp] theorem width_append (m k : RowMatrix α) (h : m.width = k.width) :
    (m.append k h).width = m.width :=
  rfl

@[simp] theorem width_transpose [Zero α] (m : RowMatrix α) : m.transpose.width = m.height := rfl

@[simp] theorem rows_transpose [Zero α] (m : RowMatrix α) : m.transpose.rows = m.columns :=
  rows_computed _ _ _ _ _

@[simp] theorem width_mul [Zero α] [Add α] [Mul α] (m k : RowMatrix α) :
    (m.mul k).width = k.width :=
  rfl

@[simp] theorem rows_mul [Zero α] [Add α] [Mul α] (m k : RowMatrix α) :
    (m.mul k).rows = products m.rows k.columns :=
  rows_computed _ _ _ _ _

theorem empty_append (m : RowMatrix α) : (empty m.width).append m (width_empty m.width) = m :=
  ext rfl ((rows_append _ _ _).trans (List.nil_append _))

theorem append_empty (m : RowMatrix α) : m.append (empty m.width) (width_empty m.width).symm = m :=
  ext rfl ((rows_append _ _ _).trans (List.append_nil _))

theorem append_assoc (m k l : RowMatrix α) (h : m.width = k.width) (h' : k.width = l.width) :
    (m.append k h).append l ((width_append m k h).trans (h.trans h')) =
      m.append (k.append l h') (h.trans (width_append k l h').symm) :=
  ext rfl (by rw [rows_append, rows_append, rows_append, rows_append, List.append_assoc])

/-- Inside of its bounds a matrix has the entries it was made of. -/
theorem entry_ofFn [Zero α] {height width i j : Nat} (f : Nat → Nat → α) (hi : i < height)
    (hj : j < width) :
    (ofFn height width f).entry i j = f i j := by
  have inside : i * width + j < height * width := by
    calc i * width + j < i * width + width := by omega
      _ = (i + 1) * width := by rw [Nat.succ_mul]
      _ ≤ height * width := Nat.mul_le_mul_right width hi
  have row : (i * width + j) / width = i := by
    rw [Nat.mul_comm, Nat.mul_add_div (by omega), Nat.div_eq_of_lt hj, Nat.add_zero]
  have column : (i * width + j) % width = j := by
    rw [Nat.mul_comm, Nat.mul_add_mod, Nat.mod_eq_of_lt hj]
  simp [entry, ofFn, hj, inside, row, column]

@[simp] theorem height_empty (width : Nat) : (empty width : RowMatrix α).height = 0 := rfl

@[simp] theorem height_map {β : Type} (f : α → β) (m : RowMatrix α) : (m.map f).height = m.height :=
  rfl

@[simp] theorem height_zipWith (f : α → α → α) (m k : RowMatrix α) (h : m.width = k.width) :
    (m.zipWith f k h).height = min m.height k.height := rfl

@[simp] theorem height_append (m k : RowMatrix α) (h : m.width = k.width) :
    (m.append k h).height = m.height + k.height := rfl

@[simp] theorem height_ofFn (height width : Nat) (f : Nat → Nat → α) :
    (ofFn height width f).height = height :=
  rfl

@[simp] theorem height_transpose [Zero α] (m : RowMatrix α) : m.transpose.height = m.width := rfl

@[simp] theorem height_mul [Zero α] [Add α] [Mul α] (m k : RowMatrix α) :
    (m.mul k).height = m.height :=
  rfl

end RowMatrix

end ControlHierarchy
