import ControlHierarchy.Problem
import ControlHierarchy.Proofs.Constraint.Feasibility

/-!
# Which vectors a quadratic program admits

A program leaves out the rows whose right-hand side restricts nothing. Such a
row is never violated by a vector whose products are in reach, provided that its
right-hand side is a number, so the program admits the same vectors as the
merged system that it is made of.
-/

namespace ControlHierarchy

open Double (AtMost AtLeast At)

/-- A vector respects the constraints of a program; a part that is absent
imposes nothing. -/
structure Problem.Admits (p : Problem Float) (x : List ℚ) : Prop where
  inequalities : ∀ rows ∈ p.inequalities,
    List.Forall₂ AtMost (rows.matrix.exactProducts x) rows.upper.entries
  equalities : ∀ e ∈ p.equalities, List.Forall₂ At (e.1.exactProducts x) e.2.entries
  box : ∀ b ∈ p.box, List.Forall₂ AtLeast x b.1.entries ∧ List.Forall₂ AtMost x b.2.entries

variable {x : List ℚ}

/-! ### Bounds that are numbers -/

/-- No row bound is a NaN. -/
def LinearSystem.BoundsAreNumbers (s : LinearSystem Float) : Prop :=
  ∀ a ∈ s.rowLower.entries ++ s.rowUpper.entries, ¬a.isNaN

/-- No bound of a row is a NaN. -/
structure BoundedRow.Numeric (r : BoundedRow Float) : Prop where
  lower : ∀ l ∈ r.lower, Double.place l ≠ none
  upper : ∀ u ∈ r.upper, Double.place u ≠ none

theorem Tensor.mem_boundList {t : Tensor Float} {count : Nat} {a : Float}
    (h : some a ∈ t.boundList count) : a ∈ t.entries := by
  unfold boundList at h
  split at h
  · cases List.eq_of_mem_replicate h
  · obtain ⟨b, hb, same⟩ := List.mem_map.1 h
    cases same
    exact hb

theorem LinearSystem.BoundsAreNumbers.rows {s : LinearSystem Float} (h : s.BoundsAreNumbers) :
    ∀ r ∈ s.faces.rows, r.Numeric := by
  intro r hr
  obtain ⟨-, lower, upper⟩ := BoundedRow.mem_zip hr
  refine ⟨?_, ?_⟩
  · intro l hl
    rw [Option.mem_def.1 hl] at lower
    exact fun nan => h l (List.mem_append_left _ (Tensor.mem_boundList lower))
      (Double.isNaN_iff.2 nan)
  · intro u hu
    rw [Option.mem_def.1 hu] at upper
    exact fun nan => h u (List.mem_append_right _ (Tensor.mem_boundList upper))
      (Double.isNaN_iff.2 nan)

/-- Flipping a bound does not make it a NaN. -/
theorem BoundedRow.numeric_unilateral {rows : List (BoundedRow Float)} (h : ∀ r ∈ rows, r.Numeric) :
    ∀ r ∈ rows.filterMap BoundedRow.below ++ rows.filterMap BoundedRow.above, r.Numeric := by
  intro t ht
  rcases List.mem_append.1 ht with ht | ht
  · obtain ⟨r, hr, ht⟩ := List.mem_filterMap.1 ht
    obtain ⟨u, hu, rfl⟩ := Option.map_eq_some_iff.1 ht
    exact ⟨by rintro _ ⟨⟩, by rintro _ ⟨⟩; exact (h r hr).upper u hu⟩
  · obtain ⟨r, hr, ht⟩ := List.mem_filterMap.1 ht
    obtain ⟨l, hl, rfl⟩ := Option.map_eq_some_iff.1 ht
    refine ⟨by rintro _ ⟨⟩, ?_⟩
    rintro _ ⟨⟩ nan
    exact (h r hr).lower l hl (Double.place_neg_eq_none.1 nan)

theorem Faces.numeric_merge (parts : List (Faces Float))
    (h : ∀ g ∈ parts, ∀ r ∈ g.rows, r.Numeric) :
    ∀ r ∈ (Faces.merge .plain parts).rows, r.Numeric := by
  rw [Faces.rows_merge]
  intro r hr
  obtain ⟨g, hg, hr⟩ := List.mem_flatMap.1 hr
  exact BoundedRow.numeric_unilateral (h g hg) r hr

/-! ### Rows that are left out -/

/-- Rows with their right-hand sides, one by one or all together. -/
theorem forall₂_pairs {pairs : List (List Float × Float)} :
    List.Forall₂ AtMost ((pairs.map Prod.fst).map (exactProduct · x)) (pairs.map Prod.snd) ↔
      ∀ p ∈ pairs, AtMost (exactProduct p.1 x) p.2 := by
  rw [List.map_map, List.forall₂_map_left_iff, List.forall₂_map_right_iff, List.forall₂_same]
  rfl

namespace Problem

open BoundScalar (restricts)

/-- A right-hand side that does not restrict its row is respected by all
products in reach. -/
theorem atMost_of_not_restricts {row : List Float} {h : Float} (number : Double.place h ≠ none)
    (unrestricted : ¬restricts h) (reach : InReach row x) : AtMost (exactProduct row x) h :=
  Double.atMost_of_not_lt_largest number (fun less => unrestricted (decide_eq_true less))
    (abs_le.1 reach).2

theorem restrictingRows_vector (m : RowMatrix Float) (h : List Float) :
    restrictingRows ⟨.matrix m, .vector h⟩ =
      if h.any restricts then some ⟨.matrix (m.keepRows h restricts), .vector (h.filter restricts)⟩
      else none :=
  rfl

/-- Leaving out the rows that are not restricted excludes nothing and admits nothing new. -/
theorem admits_restrictingRows {m : RowMatrix Float} {h : List Float}
    (length : m.rows.length = h.length) (numbers : ∀ a ∈ h, Double.place a ≠ none)
    (reach : ∀ r ∈ m.rows, InReach r x) :
    (∀ rows ∈ restrictingRows ⟨.matrix m, .vector h⟩,
      List.Forall₂ AtMost (rows.matrix.exactProducts x) rows.upper.entries) ↔
      List.Forall₂ AtMost (m.rows.map (exactProduct · x)) h := by
  have left : (m.rows.zip h).map Prod.fst = m.rows := List.map_fst_zip (Nat.le_of_eq length)
  have right : (m.rows.zip h).map Prod.snd = h := List.map_snd_zip (Nat.le_of_eq length.symm)
  have all : List.Forall₂ AtMost (m.rows.map (exactProduct · x)) h ↔
      ∀ p ∈ m.rows.zip h, AtMost (exactProduct p.1 x) p.2 := by
    rw [← forall₂_pairs, left, right]
  have free : ∀ p ∈ m.rows.zip h, ¬restricts p.2 → AtMost (exactProduct p.1 x) p.2 := by
    intro p hp unrestricted
    obtain ⟨row, side⟩ := List.of_mem_zip hp
    exact atMost_of_not_restricts (numbers p.2 side) unrestricted (reach p.1 row)
  rw [all, restrictingRows_vector]
  by_cases some : h.any restricts
  · rw [if_pos some]
    have kept : (m.keepRows h restricts).rows =
        ((m.rows.zip h).filter fun p => restricts p.2).map Prod.fst :=
      RowMatrix.rows_ofRows _ _ _
    have sides :
        h.filter restricts = ((m.rows.zip h).filter fun p => restricts p.2).map Prod.snd := by
      conv_lhs => rw [← right, List.filter_map]
      rfl
    simp only [Option.mem_some_iff, forall_eq', Tensor.exactProducts, Tensor.rowList,
      Tensor.entries]
    rw [kept, sides, forall₂_pairs]
    constructor
    · intro all p hp
      by_cases restricted : restricts p.2
      · exact all p (List.mem_filter.2 ⟨hp, restricted⟩)
      · exact free p hp restricted
    · intro all p hp
      exact all p (List.mem_filter.1 hp).1
  · rw [if_neg some]
    refine iff_of_true (fun _ absent => (Option.not_mem_none _ absent).elim) fun p hp =>
      free p hp fun restricted => some ?_
    exact List.any_eq_true.2 ⟨p.2, (List.of_mem_zip hp).2, restricted⟩

variable {s : LinearSystem Float} {f : Faces Float} {n : Nat}

/-- The inequalities of a program say what the merged rows say. -/
theorem admits_inequalities (h : s.Presents n f) (normal : f.Normal .plain)
    (numbers : ∀ r ∈ f.rows, r.Numeric) (reach : f.WithinReach x) {k : RowMatrix Float}
    (matrix : s.rowMatrix = .matrix k) :
    (∀ rows ∈ (if k.height > 0 then restrictingRows ⟨.matrix k, s.rowUpper⟩ else none),
        List.Forall₂ AtMost (rows.matrix.exactProducts x) rows.upper.entries) ↔
      (s.rowUpper.size ≠ 0 →
        List.Forall₂ AtMost (s.rowMatrix.exactProducts x) s.rowUpper.entries) := by
  obtain ⟨k', matrix', -, coefficients⟩ := h.rowMatrix
  cases matrix.symm.trans matrix'
  have height : k.height = (f.rows.filterMap BoundedRow.upper).length := by
    rw [List.filterMap_length_eq_length.2 normal.upper,
      ← List.length_map (f := BoundedRow.coefficients), ← coefficients, RowMatrix.length_rows]
  rw [h.rowUpper, Tensor.size_vector, ← height, matrix]
  by_cases empty : k.height = 0
  · rw [if_neg (by omega)]
    exact iff_of_true (fun _ absent => (Option.not_mem_none _ absent).elim) fun some =>
      absurd empty some
  · rw [if_pos (Nat.pos_of_ne_zero empty), admits_restrictingRows (k.length_rows.trans height)]
    · exact ⟨fun all _ => all, fun all => all empty⟩
    · intro a ha
      obtain ⟨r, hr, upper⟩ := List.mem_filterMap.1 ha
      exact (numbers r hr).upper a upper
    · rw [coefficients]
      exact List.forall_mem_map.2 reach.rows

theorem admits_equations (h : s.Presents n f) {e : RowMatrix Float}
    (matrix : s.equalityMatrix = .matrix e) :
    (∀ pair ∈ (if e.height > 0 then some (s.equalityMatrix, s.equalityRhs) else none),
        List.Forall₂ At (pair.1.exactProducts x) pair.2.entries) ↔
      List.Forall₂ At (s.equalityMatrix.exactProducts x) s.equalityRhs.entries := by
  obtain ⟨e', matrix', -, left⟩ := h.equalityMatrix
  cases matrix.symm.trans matrix'
  by_cases empty : e.height = 0
  · have none : f.equations = [] := by
      rw [← List.length_eq_zero_iff, ← List.length_map (f := Prod.fst), ← left,
        RowMatrix.length_rows, empty]
    rw [if_neg (by omega), matrix, h.equalityRhs, Tensor.exactProducts, Tensor.rowList, left, none]
    exact iff_of_true (fun _ absent => (Option.not_mem_none _ absent).elim) .nil
  · rw [if_pos (Nat.pos_of_ne_zero empty)]
    exact ⟨fun all => all _ rfl, fun holds pair same => by cases same; exact holds⟩

/-- The program of a merged system admits just the vectors that the system admits. -/
theorem ofSystem_ok {o o' : Objective Float} (linear : withLinearVector o = .ok o')
    (h : s.Presents n f) (normal : f.Normal .plain) (numbers : ∀ r ∈ f.rows, r.Numeric)
    (reach : f.WithinReach x) :
    ∃ p, ofSystem o s = .ok p ∧ p.objective = o' ∧ (p.Admits x ↔ s.Admits x) := by
  obtain ⟨e, equalityMatrix, -⟩ := h.equalityMatrix
  obtain ⟨k, rowMatrix, -⟩ := h.rowMatrix
  have inequalities := admits_inequalities h normal numbers reach rowMatrix
  have equations := admits_equations (x := x) h equalityMatrix
  have noLower : s.rowLower.size = 0 := by
    have missing : ∀ r ∈ f.rows, r.lower = none :=
      fun r hr => by simpa [Policy.plain] using normal.lower r hr
    rw [h.rowLower, Tensor.size_vector, List.filterMap_eq_nil_iff.2 missing, List.length_nil]
  rw [ofSystem, rowMatrix, equalityMatrix, Tensor.leading_matrix, Tensor.leading_matrix, ok_bind,
    ok_bind, linear, ok_bind]
  refine ⟨_, rfl, rfl, ?_⟩
  constructor
  · rintro ⟨rows, pairs, box⟩
    refine ⟨fun present => ?_, equations.1 (equalityMatrix ▸ pairs),
      fun some => absurd noLower some, inequalities.1 rows⟩
    exact box (s.boxLower, s.boxUpper) (if_pos present)
  · rintro ⟨box, equalities, -, upper⟩
    refine ⟨inequalities.2 upper, equalityMatrix ▸ equations.2 equalities, fun b hb => ?_⟩
    obtain ⟨present, same⟩ := Option.mem_ite_none_right.1 hb
    cases same
    exact box present

end Problem

end ControlHierarchy
