import ControlHierarchy.Proofs.Tensor.Refusal

/-!
# Piling stacks rows

An array is cut along its first dimension into rows (`Tensor.rows`); an entry of
a vector is a row by itself. Arrays that agree in all other dimensions are over
one row shape (`Tensor.Over`), and such an array is known by its rows. Piling is
defined between arrays over one row shape and puts their rows behind each other,
so that what holds of lists under `++` holds of arrays under piling
(`Tensor.piles_freely`). A sequence of blocks is piled from a matrix without
rows downwards; the first block that is no matrix of the right width is
refused, and if no matrix can be that wide there is none to start with.
-/

namespace ControlHierarchy

variable {α : Type}

theorem Index.addressable_rowless {n : Nat} : Index.addressable [0, n] = true ↔ n < 2 ^ 60 := by
  by_cases none : n = 0 <;> simp [Index.addressable, none]

theorem pieces_one (l : List α) : pieces 1 l.length l = l.map fun a => [a] := by
  induction l with
  | nil => rfl
  | cons a l ih => exact congrArg ([a] :: ·) ih

/-- There is a matrix without rows for every width that an array can have. -/
theorem RowMatrix.withoutRows_eq (n : Nat) :
    (RowMatrix.withoutRows n : Except Error (RowMatrix α)) =
      if n < 2 ^ 60 then .ok (RowMatrix.empty n) else .error (.fault .badValue) := by
  have nonnegative : ¬(n : Int) < 0 := by omega
  by_cases room : n < 2 ^ 60
  · have fits := Index.addressable_rowless.2 room
    simp only [RowMatrix.withoutRows, Int.toNat_natCast, nonnegative, fits, if_pos room]
    rfl
  · have wide := Bool.eq_false_iff.2 (mt Index.addressable_rowless.1 room)
    simp only [RowMatrix.withoutRows, Int.toNat_natCast, nonnegative, wide, if_neg room]
    rfl

namespace Tensor

variable {t u v r : Tensor α} {inner : List Nat} {m k n : Nat}

/-- An array is known by its shape and its entries. -/
theorem eq_of_entries (shape : t.shape = u.shape) (entries : t.entries = u.entries) : t = u := by
  cases t with
  | scalar a => cases u <;> simp_all [Tensor.shape, Tensor.entries, Block.shape]
  | vector v => cases u <;> simp_all [Tensor.shape, Tensor.entries, Block.shape]
  | matrix m =>
    cases u with
    | matrix k =>
      cases m; cases k
      simp_all [Tensor.shape, Tensor.entries]
    | _ => simp [Tensor.shape, Block.shape] at shape
  | block b =>
    cases u with
    | block c =>
      cases b; cases c
      simp_all [Tensor.shape, Tensor.entries, Block.shape]
    | _ => simp [Tensor.shape, Block.shape] at shape

/-- The rows of an array, its pieces along the first dimension. An entry of a
vector is a row by itself. -/
def rows : Tensor α → List (List α)
  | scalar _ => []
  | vector v => v.map fun a => [a]
  | matrix m => m.rows
  | block b => pieces (Index.volume (b.height :: b.width :: b.inner)) b.depth b.entries

/-- The array consists of rows of a given shape. -/
def Over (inner : List Nat) (t : Tensor α) : Prop := ∃ count, t.shape = count :: inner

theorem rows_of_shape (h : t.shape = m :: inner) :
    t.rows = pieces (Index.volume inner) m t.entries := by
  cases t with
  | scalar a => cases h
  | vector v =>
    cases h
    exact (pieces_one v).symm
  | matrix k =>
    cases h
    rw [Index.volume_cons, Index.volume_nil, Nat.mul_one]
    rfl
  | block b =>
    cases h
    rfl

theorem length_rows (h : t.shape = m :: inner) : t.rows.length = m := by
  rw [rows_of_shape h, length_pieces]

theorem length_entries_of_shape (h : t.shape = m :: inner) :
    t.entries.length = m * Index.volume inner := by
  rw [length_entries, size, h, Index.volume_cons]

theorem flatten_rows (ht : t.Over inner) : t.rows.flatten = t.entries := by
  obtain ⟨m, shape⟩ := ht
  rw [rows_of_shape shape, flatten_pieces (length_entries_of_shape shape)]

/-- An array over a given row shape is known by its rows. -/
theorem Over.eq_of_rows (ht : t.Over inner) (hu : u.Over inner) (same : t.rows = u.rows) :
    t = u := by
  obtain ⟨m, shape⟩ := ht
  obtain ⟨k, shape'⟩ := hu
  have count : m = k := by rw [← length_rows shape, same, length_rows shape']
  refine eq_of_entries (by rw [shape, shape', count]) ?_
  rw [← flatten_rows ⟨m, shape⟩, same, flatten_rows ⟨k, shape'⟩]

/-- Arrays over one row shape can be piled. -/
theorem exists_pile (ht : t.shape = m :: inner) (hu : u.shape = k :: inner) :
    ∃ r, t.pile u = .ok r ∧ r.shape = (m + k) :: inner ∧ r.entries = t.entries ++ u.entries := by
  match inner with
  | [] =>
    obtain ⟨v, rfl, rfl⟩ := exists_vector_of_shape ht
    obtain ⟨w, rfl, rfl⟩ := exists_vector_of_shape hu
    exact ⟨_, pile_vector v w, by simp [shape], rfl⟩
  | [n] =>
    obtain ⟨a, rfl, rfl, rfl⟩ := exists_matrix_of_shape ht
    obtain ⟨b, rfl, rfl, width⟩ := exists_matrix_of_shape hu
    exact ⟨_, pile_matrix width.symm, rfl, rfl⟩
  | height :: width :: inner =>
    obtain ⟨b, rfl, shape⟩ := exists_block_of_shape ht
    obtain ⟨c, rfl, shape'⟩ := exists_block_of_shape hu
    simp only [Block.shape, List.cons.injEq] at shape shape'
    obtain ⟨rfl, rfl, rfl, rfl⟩ := shape
    obtain ⟨rfl, height, width, rest⟩ := shape'
    simp [pile, rank, Tensor.shape, Block.shape, appendBlocks, height, width, rest,
      Tensor.entries]

/-- One step of piling: the rows of the second array come behind those of the first. -/
theorem Over.pile (ht : t.Over inner) (hu : u.Over inner) :
    ∃ r, t.pile u = .ok r ∧ r.Over inner ∧ r.rows = t.rows ++ u.rows := by
  obtain ⟨m, shape⟩ := ht
  obtain ⟨k, shape'⟩ := hu
  obtain ⟨r, piled, counts, entries⟩ := exists_pile shape shape'
  refine ⟨r, piled, ⟨m + k, counts⟩, ?_⟩
  rw [rows_of_shape shape, rows_of_shape shape', rows_of_shape counts, entries,
    pieces_append (length_entries_of_shape shape)]

/-- The index law of piling. -/
theorem exists_pile_getElem? (ht : t.shape = m :: inner) (hu : u.shape = k :: inner) :
    ∃ r, t.pile u = .ok r ∧ r.shape = (m + k) :: inner ∧
      ∀ i, r.rows[i]? = if i < m then t.rows[i]? else u.rows[i - m]? := by
  obtain ⟨r, piled, counts, -⟩ := exists_pile ht hu
  obtain ⟨r', piled', -, rows⟩ := Over.pile ⟨m, ht⟩ ⟨k, hu⟩
  cases piled.symm.trans piled'
  refine ⟨r, piled, counts, fun i => ?_⟩
  rw [rows, List.getElem?_append, length_rows ht]

theorem Over.pile_assoc (ht : t.Over inner) (hu : u.Over inner) (hv : v.Over inner) :
    ∃ r, (t.pile u >>= fun top => top.pile v) = .ok r ∧
      (u.pile v >>= fun bottom => t.pile bottom) = .ok r := by
  obtain ⟨top, piled, fit, rows⟩ := ht.pile hu
  obtain ⟨bottom, piled', fit', rows'⟩ := hu.pile hv
  obtain ⟨r, left, fitLeft, rowsLeft⟩ := fit.pile hv
  obtain ⟨r', right, fitRight, rowsRight⟩ := ht.pile fit'
  have same : r = r' := fitLeft.eq_of_rows fitRight <| by
    rw [rowsLeft, rowsRight, rows, rows', List.append_assoc]
  exact ⟨r, by rw [piled, ok_bind, left], by rw [piled', ok_bind, right, same]⟩

theorem rowless_pile (none : t.shape = 0 :: inner) (hu : u.Over inner) : t.pile u = .ok u := by
  obtain ⟨r, piled, fit, rows⟩ := Over.pile ⟨0, none⟩ hu
  rw [List.length_eq_zero_iff.1 (length_rows none), List.nil_append] at rows
  rw [piled, fit.eq_of_rows hu rows]

theorem pile_rowless (ht : t.Over inner) (none : u.shape = 0 :: inner) : t.pile u = .ok t := by
  obtain ⟨r, piled, fit, rows⟩ := ht.pile ⟨0, none⟩
  rw [List.length_eq_zero_iff.1 (length_rows none), List.append_nil] at rows
  rw [piled, fit.eq_of_rows ht rows]

theorem over_of_pile (ht : t.Over inner) (piled : t.pile u = .ok r) : u.Over inner := by
  obtain ⟨d, shape⟩ := ht
  obtain ⟨m, k, inner', shape', shape''⟩ := shapes_of_pile piled
  cases shape.symm.trans shape'
  exact ⟨k, shape''⟩

/-- What is piled on an array over a row shape, one block after another, has to
be over it as well; the rows come out in the order of the blocks. -/
theorem Over.foldlM_pile {blocks : List (Tensor α)} (ht : t.Over inner)
    (hb : ∀ b ∈ blocks, b.Over inner) :
    ∃ r, blocks.foldlM Tensor.pile t = .ok r ∧ r.Over inner ∧
      r.rows = t.rows ++ blocks.flatMap rows := by
  induction blocks generalizing t with
  | nil => exact ⟨t, rfl, ht, (List.append_nil _).symm⟩
  | cons b blocks ih =>
    rw [List.forall_mem_cons] at hb
    obtain ⟨s, piled, fit, rows⟩ := ht.pile hb.1
    obtain ⟨r, run, fit', rows'⟩ := ih fit hb.2
    refine ⟨r, ?_, fit', ?_⟩
    · rw [List.foldlM_cons, piled, ok_bind, run]
    · rw [rows', rows, List.flatMap_cons, List.append_assoc]

/-- On a matrix, the first block of another width or rank is refused by name. -/
theorem foldlM_pile_refused {blocks : List (Tensor α)} (ht : t.Over [n])
    (misfit : ¬∀ b ∈ blocks, b.Over [n]) :
    ∃ e, blocks.foldlM Tensor.pile t = .error e ∧ e.kind = some .dimensionMismatch := by
  obtain ⟨b, ready, more, rfl, before, lacks⟩ := exists_firstWithout misfit
  obtain ⟨s, run, fit, -⟩ := ht.foldlM_pile before
  obtain ⟨height, shape⟩ := fit
  have two : s.rank = 2 := congrArg List.length shape
  cases refused : s.pile b with
  | ok r => exact absurd (over_of_pile ⟨height, shape⟩ refused) lacks
  | error e =>
    refine ⟨e, ?_, kind_of_pile_of_rank refused (by omega) (by omega)⟩
    rw [List.foldlM_append, run, ok_bind, List.foldlM_cons, refused, error_bind]

/-! ### Sequences of blocks -/

section Sequences

variable {blocks xs ys : List (Tensor α)}

theorem rowless_over (n : Nat) : (matrix (.empty n) : Tensor α).Over [n] := ⟨0, rfl⟩

theorem pileAll_eq (room : n < 2 ^ 60) :
    pileAll n blocks = blocks.foldlM pile (.matrix (.empty n)) := by
  rw [pileAll, RowMatrix.withoutRows_eq, if_pos room, ok_bind]

theorem pileAll_tooWide (wide : ¬n < 2 ^ 60) : pileAll n blocks = .error (.fault .badValue) := by
  rw [pileAll, RowMatrix.withoutRows_eq, if_neg wide, error_bind]

/-- Blocks that fit end up as one matrix with all their rows. -/
theorem pileAll_stacks (room : n < 2 ^ 60) (fits : ∀ b ∈ blocks, b.Over [n]) :
    ∃ r, pileAll n blocks = .ok r ∧ r.Over [n] ∧ r.rows = blocks.flatMap rows := by
  obtain ⟨r, run, fit, rows⟩ := (rowless_over n).foldlM_pile fits
  exact ⟨r, (pileAll_eq room).trans run, fit, rows⟩

theorem pileAll_refused (room : n < 2 ^ 60) (misfit : ¬∀ b ∈ blocks, b.Over [n]) :
    ∃ e, pileAll n blocks = .error e ∧ e.kind = some .dimensionMismatch := by
  rw [pileAll_eq room]
  exact foldlM_pile_refused (rowless_over n) misfit

theorem pileAll_succeeds_iff :
    (∃ r, pileAll n blocks = .ok r) ↔ n < 2 ^ 60 ∧ ∀ b ∈ blocks, b.Over [n] := by
  constructor
  · rintro ⟨r, run⟩
    by_cases room : n < 2 ^ 60
    · by_contra misfit
      obtain ⟨e, refused, -⟩ := pileAll_refused room fun fits => misfit ⟨room, fits⟩
      cases run.symm.trans refused
    · cases run.symm.trans (pileAll_tooWide room)
  · rintro ⟨room, fits⟩
    obtain ⟨r, run, -⟩ := pileAll_stacks room fits
    exact ⟨r, run⟩

theorem kind_of_pileAll {e : Error} (room : n < 2 ^ 60) (failed : pileAll n blocks = .error e) :
    e.kind = some .dimensionMismatch := by
  obtain ⟨e', refused, kind⟩ := pileAll_refused room fun fits => by
    obtain ⟨r, run⟩ := pileAll_succeeds_iff.2 ⟨room, fits⟩
    cases run.symm.trans failed
  cases failed.symm.trans refused
  exact kind

/-- A sequence that is cut in two is piled as the piles of its halves. The text
of a refusal names the heights of the pile so far, which a half does not know;
so refusals are compared by their families. -/
theorem pileAll_append :
    (pileAll n (xs ++ ys)).mapError Error.kind =
      (pileAll n xs >>= fun top => pileAll n ys >>= top.pile).mapError Error.kind := by
  -- a misfit in one half is one of the whole sequence, and is refused by the same name
  by_cases room : n < 2 ^ 60
  · by_cases top : ∀ b ∈ xs, b.Over [n]
    · obtain ⟨t, run, fit, rows⟩ := pileAll_stacks room top
      by_cases bottom : ∀ b ∈ ys, b.Over [n]
      · obtain ⟨u, run', fit', rows'⟩ := pileAll_stacks room bottom
        obtain ⟨r, piled, fitAll, rowsAll⟩ := fit.pile fit'
        obtain ⟨w, whole, fitWhole, rowsWhole⟩ :=
          pileAll_stacks room (List.forall_mem_append.2 ⟨top, bottom⟩)
        have same : w = r := fitWhole.eq_of_rows fitAll <| by
          rw [rowsWhole, rowsAll, rows, rows', List.flatMap_append]
        rw [whole, run, ok_bind, run', ok_bind, piled, same]
      · obtain ⟨e, refused, kind⟩ := pileAll_refused room bottom
        obtain ⟨e', refused', kind'⟩ : ∃ e', pileAll n (xs ++ ys) = .error e' ∧ _ :=
          pileAll_refused room fun all => bottom (List.forall_mem_append.1 all).2
        rw [refused', run, ok_bind, refused, error_bind, Except.mapError, Except.mapError, kind,
          kind']
    · obtain ⟨e, refused, kind⟩ := pileAll_refused room top
      obtain ⟨e', refused', kind'⟩ : ∃ e', pileAll n (xs ++ ys) = .error e' ∧ _ :=
        pileAll_refused room fun all => top (List.forall_mem_append.1 all).1
      rw [refused', refused, error_bind, Except.mapError, Except.mapError, kind, kind']
  · rw [pileAll_tooWide room, pileAll_tooWide room, error_bind]

/-- Piling stacks rows freely. Arrays that agree in all but their first
dimension, such as matrices of one width and all vectors, can be piled; the rows
of the second one follow those of the first, piling is associative, and an array
without rows is neutral. A sequence of blocks can be piled just when all of them
are matrices of the given width, which has to be one that an array can have; a
block of another kind is refused by name; and a sequence may be cut in two. -/
theorem piles_freely (inner : List Nat) (n : Nat) :
    (∀ (t u : Tensor α) m k, t.shape = m :: inner → u.shape = k :: inner →
      ∃ r, t.pile u = .ok r ∧ r.shape = (m + k) :: inner ∧
        ∀ i, r.rows[i]? = if i < m then t.rows[i]? else u.rows[i - m]?) ∧
    (∀ t u v : Tensor α, t.Over inner → u.Over inner → v.Over inner →
      ∃ r, (t.pile u >>= fun top => top.pile v) = .ok r ∧
        (u.pile v >>= fun bottom => t.pile bottom) = .ok r) ∧
    (∀ t e : Tensor α, t.Over inner → e.shape = 0 :: inner →
      e.pile t = .ok t ∧ t.pile e = .ok t) ∧
    (∀ blocks : List (Tensor α),
      ((∃ r, pileAll n blocks = .ok r) ↔ n < 2 ^ 60 ∧ ∀ b ∈ blocks, ∃ m, b.shape = [m, n]) ∧
      (n < 2 ^ 60 → ∀ e, pileAll n blocks = .error e → e.kind = some .dimensionMismatch) ∧
      (2 ^ 60 ≤ n → pileAll n blocks = .error (.fault .badValue))) ∧
    ∀ xs ys : List (Tensor α), (pileAll n (xs ++ ys)).mapError Error.kind =
      (pileAll n xs >>= fun top => pileAll n ys >>= fun bottom => top.pile bottom).mapError
        Error.kind := by
  refine ⟨fun t u m k => exists_pile_getElem?, fun t u v => Over.pile_assoc,
    fun t e ht none => ⟨rowless_pile none ht, pile_rowless ht none⟩, fun blocks => ?_,
    fun xs ys => pileAll_append⟩
  exact ⟨pileAll_succeeds_iff, fun room e => kind_of_pileAll room,
    fun wide => pileAll_tooWide (by omega)⟩

def singleRow : Tensor Int := .matrix (.ofRows 2 [[1, 2]] (by decide))

def twoRows : Tensor Int := .matrix (.ofRows 2 [[3, 4], [5, 6]] (by decide))

/-- The last row of the pile is the last one of the second block, also with a
matrix without rows in between; a vector and a narrow matrix are refused behind them. -/
theorem unevenBlocks_pile :
    (∃ r, singleRow.pile twoRows = .ok r ∧ r.shape = [3, 2] ∧ r.rows[2]? = some [5, 6] ∧
      (twoRows.pile (.matrix (.empty 2)) >>= fun bottom => singleRow.pile bottom) = .ok r) ∧
    (∃ r, pileAll 2 [singleRow, twoRows] = .ok r) ∧
    (∀ e, pileAll 2 [singleRow, twoRows, .vector [7, 8]] = .error e →
      e.kind = some .dimensionMismatch) ∧
    ¬∃ r, pileAll 2 [singleRow, twoRows, .matrix (.empty 1)] = .ok r := by
  obtain ⟨stacked, -, neutral, sequence, -⟩ := piles_freely (α := Int) [2] 2
  refine ⟨?_, (sequence _).1.2 ⟨by decide, ?_⟩, (sequence _).2.1 (by decide), ?_⟩
  · obtain ⟨r, piled, shape, row⟩ := stacked singleRow twoRows 1 2 rfl rfl
    refine ⟨r, piled, shape, row 2, ?_⟩
    rw [(neutral twoRows (.matrix (.empty 2)) ⟨2, rfl⟩ rfl).2, ok_bind, piled]
  · simp only [List.forall_mem_cons]
    exact ⟨⟨1, rfl⟩, ⟨2, rfl⟩, List.forall_mem_nil _⟩
  · intro run
    obtain ⟨-, fits⟩ := (sequence _).1.1 run
    obtain ⟨m, narrow⟩ := fits (.matrix (.empty 1)) (by simp)
    cases narrow

/-- A matrix cannot be so wide that a row has no address, not even without rows. -/
theorem noBlocks_tooWide : ¬((∃ r, pileAll (2 ^ 60) ([] : List (Tensor Float)) = .ok r) ↔
    ∀ b ∈ ([] : List (Tensor Float)), ∃ m, b.shape = [m, 2 ^ 60]) := by
  intro claimed
  obtain ⟨r, run⟩ := claimed.2 (List.forall_mem_nil _)
  have wide : pileAll (2 ^ 60 : Nat) ([] : List (Tensor Float)) = .error (.fault .badValue) :=
    pileAll_tooWide (Nat.lt_irrefl _)
  cases run.symm.trans wide

end Sequences

end Tensor

end ControlHierarchy
