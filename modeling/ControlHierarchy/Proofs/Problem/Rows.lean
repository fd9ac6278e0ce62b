import ControlHierarchy.Proofs.Constraint.Presented
import ControlHierarchy.Problem

/-!
# The rows of a quadratic program

Leaving out the rows of a merged system that are not restricted is a filter on the
pairs of a row and its right-hand side (`tabulates_restrictingRows`), and a
program is made from the system face by face (`states_ofSystem`). So a program
says what was merged, but for those rows (`Problem.States`).
-/

namespace ControlHierarchy

variable {α : Type} {n : Nat}

namespace Problem

open BoundScalar (restricts)

/-- The inequalities of a program are these rows with their right-hand sides; they
are absent when there are none. -/
def HasRows (p : Problem α) (n : Nat) (pairs : List (List α × α)) : Prop :=
  match p.inequalities with
  | none => pairs = []
  | some rows => pairs ≠ [] ∧ Tabulates n pairs rows.matrix rows.upper

def HasEquations (p : Problem α) (n : Nat) (pairs : List (List α × α)) : Prop :=
  match p.equalities with
  | none => pairs = []
  | some e => pairs ≠ [] ∧ Tabulates n pairs e.1 e.2

/-- A program has this objective and says what merged faces say, but for the rows
that are not restricted. -/
structure States [BoundScalar α] (p : Problem α) (n : Nat) (objective : Objective α)
    (f : Faces α) : Prop where
  objective : p.objective = objective
  rows : p.HasRows n f.restrictedRows
  equations : p.HasEquations n f.equations
  box : p.box = f.box.map fun b => (.vector b.1, .vector b.2)

/-- The rows that are kept are those that are restricted, in order and with the
right-hand sides that they had. -/
theorem tabulates_restrictingRows [BoundScalar α] {rows : UnilateralRows α}
    {pairs : List (List α × α)} (h : Tabulates n pairs rows.matrix rows.upper) :
    match restrictingRows rows with
    | none => pairs.filter (restricts ·.2) = []
    | some kept => pairs.filter (restricts ·.2) ≠ [] ∧
        Tabulates n (pairs.filter (restricts ·.2)) kept.matrix kept.upper := by
  obtain ⟨matrix, upper⟩ := rows
  obtain ⟨m, rfl, width, coefficients⟩ := h.matrix
  obtain rfl := h.sides
  have zipped : m.rows.zip (pairs.map Prod.snd) = pairs := h.eq_zip.2.symm
  have tested : (pairs.map Prod.snd).any restricts = pairs.any (restricts ·.2) := by
    rw [List.any_map]
    rfl
  rw [restrictingRows, tested]
  by_cases some : pairs.any (restricts ·.2)
  · rw [if_pos some]
    refine ⟨?_, ⟨_, rfl, width, ?_⟩, ?_⟩
    · obtain ⟨p, hp, restricted⟩ := List.any_eq_true.1 some
      exact List.ne_nil_of_mem (List.mem_filter.2 ⟨hp, restricted⟩)
    · exact (RowMatrix.rows_ofRows _ _ _).trans (by rw [zipped])
    · rw [List.filter_map]
      rfl
  · rw [if_neg some, List.filter_eq_nil_iff]
    exact fun p hp restricted => some (List.any_eq_true.2 ⟨p, hp, restricted⟩)

variable {s : LinearSystem α} {f : Faces α} {o : Objective α} {p : Problem α}

/-- There are rows to tabulate when the matrix is not empty. -/
theorem height_pos_iff {pairs : List (List α × α)} {m : RowMatrix α}
    (rows : m.rows = pairs.map Prod.fst) :
    m.height > 0 ↔ pairs ≠ [] := by
  rw [← RowMatrix.length_rows, rows, List.length_map, gt_iff_lt, List.length_pos_iff]

theorem box_eq (h : s.Presents n f) :
    (if s.hasBox then some (s.boxLower, s.boxUpper) else none) =
      f.box.map fun b => (.vector b.1, .vector b.2) := by
  rw [LinearSystem.hasBox, h.boxLower, h.boxUpper]
  cases box : f.box with
  | none => rfl
  | some b =>
    obtain ⟨nonempty, lower, -⟩ := h.boxLength b box
    simp [lower, nonempty]

/-- The program of a merged system has the restricted rows, the equations and the
box of what was merged. -/
theorem states_ofSystem [BoundScalar α] {o' : Objective α} (linear : withLinearVector o = .ok o')
    (h : s.Presents n f) (normal : f.Normal .plain) :
    ∃ p, ofSystem o s = .ok p ∧ p.States n o' f := by
  have rows := h.tabulates_rows normal.upper
  have equations := h.tabulates_equations
  obtain ⟨k, matrix, -, coefficients⟩ := rows.matrix
  obtain ⟨e, matrix', -, left⟩ := equations.matrix
  rw [ofSystem, matrix, matrix', Tensor.leading_matrix, Tensor.leading_matrix, ok_bind, ok_bind,
    linear, ok_bind, ← matrix, ← matrix', box_eq h]
  refine ⟨_, rfl, rfl, ?_, ?_, rfl⟩
  · by_cases some : f.upperRows = []
    · have empty := mt (height_pos_iff coefficients).1 (not_not.2 some)
      simp only [HasRows, if_neg empty, Faces.restrictedRows, some, List.filter_nil]
    · simp only [HasRows, if_pos ((height_pos_iff coefficients).2 some)]
      exact tabulates_restrictingRows rows
  · by_cases some : f.equations = []
    · have empty := mt (height_pos_iff left).1 (not_not.2 some)
      simp only [HasEquations, if_neg empty, some]
    · simp only [HasEquations, if_pos ((height_pos_iff left).2 some)]
      exact ⟨some, equations⟩

/-- Whatever a merged system is made into, it is that program. -/
theorem states_of_ofSystem [BoundScalar α] (h : s.Presents n f) (normal : f.Normal .plain)
    (made : ofSystem o s = .ok p) :
    ∃ o', withLinearVector o = .ok o' ∧ p.States n o' f := by
  cases linear : withLinearVector o with
  | ok o' =>
    obtain ⟨p', made', states⟩ := states_ofSystem linear h normal
    cases made.symm.trans made'
    exact ⟨o', rfl, states⟩
  | error e =>
    obtain ⟨k, -, made⟩ := bind_eq_ok.1 made
    obtain ⟨m, -, made⟩ := bind_eq_ok.1 made
    rw [linear] at made
    cases made

/-- Two programs differ at most in the order of their inequality rows. -/
structure SameButOrder (p q : Problem α) : Prop where
  objective : p.objective = q.objective
  equalities : p.equalities = q.equalities
  box : p.box = q.box
  rows : ∃ n pairs pairs', p.HasRows n pairs ∧ q.HasRows n pairs' ∧ pairs.Perm pairs'

theorem HasEquations.unique {q : Problem α} {pairs : List (List α × α)}
    (h : p.HasEquations n pairs) (h' : q.HasEquations n pairs) : p.equalities = q.equalities := by
  unfold HasEquations at h h'
  cases left : p.equalities with
  | none =>
    cases right : q.equalities with
    | none => rfl
    | some e =>
      rw [left] at h
      rw [right] at h'
      exact absurd h h'.1
  | some e =>
    rw [left] at h
    cases right : q.equalities with
    | none =>
      rw [right] at h'
      exact absurd h' h.1
    | some e' =>
      rw [right] at h'
      obtain ⟨matrix, sides⟩ := h.2.unique h'.2
      rw [show e = e' from Prod.ext matrix sides]

theorem States.sameButOrder [BoundScalar α] {q : Problem α} {g : Faces α} (h : p.States n o f)
    (h' : q.States n o g) (box : f.box = g.box) (equations : f.equations = g.equations)
    (rows : f.restrictedRows.Perm g.restrictedRows) : p.SameButOrder q where
  objective := h.objective.trans h'.objective.symm
  equalities := h.equations.unique (equations ▸ h'.equations)
  box := by rw [h.box, h'.box, box]
  rows := ⟨n, _, _, h.rows, h'.rows, rows⟩

end Problem

end ControlHierarchy
