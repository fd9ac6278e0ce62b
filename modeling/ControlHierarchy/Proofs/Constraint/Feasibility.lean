import ControlHierarchy.Proofs.Constraint.Merging
import ControlHierarchy.Proofs.Double.Bound
import Mathlib.Data.List.Forall2

/-!
# Which vectors a constraint admits

Products of rows with a vector of exact numbers are exact, and a vector respects
a bound or it does not (`LinearSystem.Admits`). The form in which a merge leaves
its rows does not matter to a vector that the sentinels do not exclude, one
whose products with the rows reach no further than the largest double
(`LinearSystem.WithinReach`). So what is merged admits just the vectors that all
parts admit.
-/

namespace ControlHierarchy

open Double (AtMost AtLeast At)

/-- The exact product of a row with a vector; entries that are no finite numbers
count as zero. -/
def exactProduct (row : List Float) (x : List ℚ) : ℚ :=
  (List.zipWith (fun a t => Double.number a * t) row x).sum

/-- A product reaches no further than the largest double. -/
def InReach (row : List Float) (x : List ℚ) : Prop :=
  |exactProduct row x| ≤ Double.number Double.largest

def Tensor.exactProducts (t : Tensor Float) (x : List ℚ) : List ℚ :=
  t.rowList.map (exactProduct · x)

/-- A vector respects the arrays of a system: its box if there is one, its
equalities, and each bound of its rows that is not missing. -/
structure LinearSystem.Admits (s : LinearSystem Float) (x : List ℚ) : Prop where
  box : s.hasBox → List.Forall₂ AtLeast x s.boxLower.entries ∧
    List.Forall₂ AtMost x s.boxUpper.entries
  equalities : List.Forall₂ At (s.equalityMatrix.exactProducts x) s.equalityRhs.entries
  lower : s.rowLower.size ≠ 0 →
    List.Forall₂ AtLeast (s.rowMatrix.exactProducts x) s.rowLower.entries
  upper : s.rowUpper.size ≠ 0 → List.Forall₂ AtMost (s.rowMatrix.exactProducts x) s.rowUpper.entries

/-- The products of a vector with all rows of a system are in reach. -/
def LinearSystem.WithinReach (s : LinearSystem Float) (x : List ℚ) : Prop :=
  ∀ r ∈ s.equalityMatrix.rowList ++ s.rowMatrix.rowList, InReach r x

instance (s : LinearSystem Float) (x : List ℚ) : Decidable (s.Admits x) :=
  decidable_of_iff
    ((s.hasBox → List.Forall₂ AtLeast x s.boxLower.entries ∧
      List.Forall₂ AtMost x s.boxUpper.entries) ∧
      List.Forall₂ At (s.equalityMatrix.exactProducts x) s.equalityRhs.entries ∧
      (s.rowLower.size ≠ 0 →
        List.Forall₂ AtLeast (s.rowMatrix.exactProducts x) s.rowLower.entries) ∧
      (s.rowUpper.size ≠ 0 → List.Forall₂ AtMost (s.rowMatrix.exactProducts x) s.rowUpper.entries))
    ⟨fun ⟨b, e, l, u⟩ => ⟨b, e, l, u⟩, fun ⟨b, e, l, u⟩ => ⟨b, e, l, u⟩⟩

/-- Small products are in reach. -/
theorem LinearSystem.withinReach_of_small {s : LinearSystem Float} {x : List ℚ}
    (small : ∀ r ∈ s.equalityMatrix.rowList ++ s.rowMatrix.rowList, |exactProduct r x| ≤
      9007199254740991) :
    s.WithinReach x :=
  fun r hr => Double.le_number_largest (small r hr)

structure BoundedRow.Admits (r : BoundedRow Float) (x : List ℚ) : Prop where
  lower : ∀ l ∈ r.lower, AtLeast (exactProduct r.coefficients x) l
  upper : ∀ u ∈ r.upper, AtMost (exactProduct r.coefficients x) u

def InBox (b : List Float × List Float) (x : List ℚ) : Prop :=
  List.Forall₂ AtLeast x b.1 ∧ List.Forall₂ AtMost x b.2

/-- A vector respects all that is said. -/
structure Faces.Admits (f : Faces Float) (x : List ℚ) : Prop where
  box : ∀ b ∈ f.box, InBox b x
  equations : ∀ e ∈ f.equations, At (exactProduct e.1 x) e.2
  rows : ∀ r ∈ f.rows, r.Admits x

/-- The form of what is said does not matter to a vector: its products are in
reach, and a box has its size. -/
structure Faces.WithinReach (f : Faces Float) (x : List ℚ) : Prop where
  box : ∀ b ∈ f.box, b.1.length = x.length ∧ b.2.length = x.length
  equations : ∀ e ∈ f.equations, InReach e.1 x
  rows : ∀ r ∈ f.rows, InReach r.coefficients x

variable {x : List ℚ}

theorem exactProduct_neg (row : List Float) (x : List ℚ) :
    exactProduct (row.map (-·)) x = -exactProduct row x := by
  unfold exactProduct
  induction row generalizing x with
  | nil => simp
  | cons a row ih =>
    cases x with
    | nil => simp
    | cons t x =>
      rw [List.map_cons, List.zipWith_cons_cons, List.zipWith_cons_cons, List.sum_cons,
        List.sum_cons, ih, Double.number_neg]
      ring

theorem inReach_neg {row : List Float} : InReach (row.map (-·)) x ↔ InReach row x := by
  rw [InReach, exactProduct_neg, abs_neg, InReach]

/-! ### Rows -/

namespace BoundedRow

variable {r : BoundedRow Float} {rows : List (BoundedRow Float)}

theorem admits_ofEquation {e : List Float × Float} :
    (ofEquation e).Admits x ↔ At (exactProduct e.1 x) e.2 := by
  rw [Double.at_iff]
  constructor
  · intro h
    exact ⟨h.upper _ rfl, h.lower _ rfl⟩
  · rintro ⟨upper, lower⟩
    exact ⟨by rintro _ ⟨⟩; exact lower, by rintro _ ⟨⟩; exact upper⟩

/-- The sentinels exclude nothing that is in reach. -/
theorem admits_fill (reach : InReach r.coefficients x) : r.fill.Admits x ↔ r.Admits x := by
  obtain ⟨coefficients, lower, upper⟩ := r
  have below : AtLeast (exactProduct coefficients x) (-Double.largest) :=
    Double.atLeast_neg_largest.2 (abs_le.1 reach).1
  have above : AtMost (exactProduct coefficients x) Double.infinity := Double.atMost_infinity _
  constructor
  · rintro ⟨hl, hu⟩
    refine ⟨?_, ?_⟩
    · rintro l ⟨⟩
      exact hl l rfl
    · rintro u ⟨⟩
      exact hu u rfl
  · rintro ⟨hl, hu⟩
    refine ⟨?_, ?_⟩
    · rintro l ⟨⟩
      cases lower with
      | none => exact below
      | some l => exact hl l rfl
    · rintro u ⟨⟩
      cases upper with
      | none => exact above
      | some u => exact hu u rfl

/-- A row says what its upper bound and its flipped lower bound say. -/
theorem admits_below_above :
    (∀ t ∈ r.below, t.Admits x) ∧ (∀ t ∈ r.above, t.Admits x) ↔ r.Admits x := by
  obtain ⟨coefficients, lower, upper⟩ := r
  constructor
  · rintro ⟨hb, ha⟩
    refine ⟨?_, ?_⟩
    · rintro l ⟨⟩
      have flipped := (ha _ rfl).upper _ rfl
      rw [exactProduct_neg] at flipped
      exact Double.atMost_neg.1 flipped
    · rintro u ⟨⟩
      exact (hb _ rfl).upper _ rfl
  · rintro ⟨hl, hu⟩
    refine ⟨?_, ?_⟩
    · intro t ht
      obtain ⟨u, hu', rfl⟩ := Option.map_eq_some_iff.1 ht
      exact ⟨by rintro _ ⟨⟩, by rintro _ ⟨⟩; exact hu u hu'⟩
    · intro t ht
      obtain ⟨l, hl', rfl⟩ := Option.map_eq_some_iff.1 ht
      refine ⟨by rintro _ ⟨⟩, ?_⟩
      rintro _ ⟨⟩
      rw [exactProduct_neg]
      exact Double.atMost_neg.2 (hl l hl')

/-- The form of rows in reach does not matter. -/
theorem admits_normalize (policy : Policy) (reach : ∀ r ∈ rows, InReach r.coefficients x) :
    (∀ r ∈ normalize policy rows, r.Admits x) ↔ ∀ r ∈ rows, r.Admits x := by
  unfold normalize
  split
  · rw [List.forall_mem_map]
    exact forall₂_congr fun r hr => admits_fill (reach r hr)
  · constructor
    · intro h r hr
      refine admits_below_above.1 ⟨fun t ht => h t ?_, fun t ht => h t ?_⟩
      · exact List.mem_append_left _ (List.mem_filterMap.2 ⟨r, hr, ht⟩)
      · exact List.mem_append_right _ (List.mem_filterMap.2 ⟨r, hr, ht⟩)
    · intro h t ht
      rcases List.mem_append.1 ht with ht | ht
      · obtain ⟨r, hr, ht⟩ := List.mem_filterMap.1 ht
        exact (admits_below_above.2 (h r hr)).1 t ht
      · obtain ⟨r, hr, ht⟩ := List.mem_filterMap.1 ht
        exact (admits_below_above.2 (h r hr)).2 t ht

theorem inReach_normalize (policy : Policy) (reach : ∀ r ∈ rows, InReach r.coefficients x) :
    ∀ r ∈ normalize policy rows, InReach r.coefficients x := by
  unfold normalize
  split
  · rw [List.forall_mem_map]
    exact reach
  · intro t ht
    rcases List.mem_append.1 ht with ht | ht
    · obtain ⟨r, hr, ht⟩ := List.mem_filterMap.1 ht
      obtain ⟨u, -, rfl⟩ := Option.map_eq_some_iff.1 ht
      exact reach r hr
    · obtain ⟨r, hr, ht⟩ := List.mem_filterMap.1 ht
      obtain ⟨l, -, rfl⟩ := Option.map_eq_some_iff.1 ht
      exact inReach_neg.2 (reach r hr)

end BoundedRow

/-! ### Boxes -/

/-- A vector lies in the intersection of two boxes when it lies in both. -/
theorem forall₂_zipWith {R : ℚ → Float → Prop} {combine : Float → Float → Float}
    (both : ∀ t a b, R t (combine a b) ↔ R t a ∧ R t b) {u v : List Float}
    (hu : u.length = x.length) (hv : v.length = x.length) :
    List.Forall₂ R x (List.zipWith combine u v) ↔ List.Forall₂ R x u ∧ List.Forall₂ R x v := by
  induction x generalizing u v with
  | nil =>
    cases List.eq_nil_of_length_eq_zero hu
    cases List.eq_nil_of_length_eq_zero hv
    simp
  | cons t x ih =>
    obtain ⟨a, u, rfl⟩ := List.exists_cons_of_length_eq_add_one hu
    obtain ⟨b, v, rfl⟩ := List.exists_cons_of_length_eq_add_one hv
    rw [List.zipWith_cons_cons, List.forall₂_cons, List.forall₂_cons, List.forall₂_cons, both,
      ih (by simpa using hu) (by simpa using hv)]
    tauto

theorem inBox_meet {b c : Option (List Float × List Float)}
    (hb : ∀ d ∈ b, d.1.length = x.length ∧ d.2.length = x.length)
    (hc : ∀ d ∈ c, d.1.length = x.length ∧ d.2.length = x.length) :
    (∀ d ∈ Faces.meet b c, InBox d x) ↔ (∀ d ∈ b, InBox d x) ∧ ∀ d ∈ c, InBox d x := by
  cases b with
  | none => simp [Faces.meet]
  | some b =>
    cases c with
    | none => simp [Faces.meet]
    | some c =>
      obtain ⟨bl, bu⟩ := hb b rfl
      obtain ⟨cl, cu⟩ := hc c rfl
      have lower := forall₂_zipWith (fun t _ _ => Double.atLeast_larger (x := t)) bl cl
      have upper := forall₂_zipWith (fun t _ _ => Double.atMost_smaller (x := t)) bu cu
      simp only [Faces.meet, Option.mem_some_iff, forall_eq', InBox, BoundScalar.larger,
        BoundScalar.smaller]
      rw [lower, upper]
      tauto

theorem length_meet {b c : Option (List Float × List Float)}
    (hb : ∀ d ∈ b, d.1.length = x.length ∧ d.2.length = x.length)
    (hc : ∀ d ∈ c, d.1.length = x.length ∧ d.2.length = x.length) :
    ∀ d ∈ Faces.meet b c, d.1.length = x.length ∧ d.2.length = x.length := by
  cases b with
  | none => exact hc
  | some b =>
    cases c with
    | none => exact hb
    | some c =>
      rintro d ⟨⟩
      simp [hb b rfl, hc c rfl]

/-! ### Merges -/

namespace Faces

variable {f g : Faces Float}

theorem withinReach_free : free.WithinReach x := ⟨by simp [free], by simp [free], by simp [free]⟩

theorem admits_free : free.Admits x := ⟨by simp [free], by simp [free], by simp [free]⟩

theorem WithinReach.normalize (policy : Policy) (h : g.WithinReach x) :
    (g.normalize policy).WithinReach x := by
  refine ⟨h.box, ?_, List.forall_mem_append.2 ⟨?_, BoundedRow.inReach_normalize policy h.rows⟩⟩
  · unfold Faces.normalize kept
    split
    · simp
    · exact h.equations
  · unfold folded
    split
    · exact BoundedRow.inReach_normalize policy (List.forall_mem_map.2 h.equations)
    · simp

theorem admits_kept_folded (policy : Policy) {equations : List (List Float × Float)}
    (reach : ∀ e ∈ equations, InReach e.1 x) :
    (∀ e ∈ kept policy equations, At (exactProduct e.1 x) e.2) ∧
    (∀ r ∈ folded policy equations, r.Admits x) ↔
      ∀ e ∈ equations, At (exactProduct e.1 x) e.2 := by
  have within : ∀ r ∈ equations.map BoundedRow.ofEquation, InReach r.coefficients x :=
    List.forall_mem_map.2 reach
  unfold kept folded
  split
  · rw [BoundedRow.admits_normalize policy within, List.forall_mem_map]
    simp only [BoundedRow.admits_ofEquation]
    exact and_iff_right (List.forall_mem_nil _)
  · exact and_iff_left (List.forall_mem_nil _)

/-- The form of what is said does not matter to a vector in reach. -/
theorem admits_normalize (policy : Policy) (reach : g.WithinReach x) :
    (g.normalize policy).Admits x ↔ g.Admits x := by
  have equations := admits_kept_folded policy reach.equations
  have rows := BoundedRow.admits_normalize policy reach.rows
  constructor
  · rintro ⟨box, kept, all⟩
    obtain ⟨folded, normalized⟩ := List.forall_mem_append.1 all
    exact ⟨box, equations.1 ⟨kept, folded⟩, rows.1 normalized⟩
  · rintro ⟨box, stated, given⟩
    obtain ⟨kept, folded⟩ := equations.2 stated
    exact ⟨box, kept, List.forall_mem_append.2 ⟨folded, rows.2 given⟩⟩

theorem WithinReach.add (hf : f.WithinReach x) (hg : g.WithinReach x) : (f.add g).WithinReach x :=
  ⟨length_meet hf.box hg.box, List.forall_mem_append.2 ⟨hf.equations, hg.equations⟩,
    List.forall_mem_append.2 ⟨hf.rows, hg.rows⟩⟩

theorem admits_add (hf : f.WithinReach x) (hg : g.WithinReach x) :
    (f.add g).Admits x ↔ f.Admits x ∧ g.Admits x := by
  have box := inBox_meet hf.box hg.box
  constructor
  · rintro ⟨b, e, r⟩
    rw [add, List.forall_mem_append] at e r
    obtain ⟨bf, bg⟩ := box.1 b
    exact ⟨⟨bf, e.1, r.1⟩, ⟨bg, e.2, r.2⟩⟩
  · rintro ⟨⟨bf, ef, rf⟩, ⟨bg, eg, rg⟩⟩
    exact ⟨box.2 ⟨bf, bg⟩, List.forall_mem_append.2 ⟨ef, eg⟩, List.forall_mem_append.2 ⟨rf, rg⟩⟩

theorem admits_foldl (policy : Policy) {parts : List (Faces Float)} (hf : f.WithinReach x)
    (reach : ∀ g ∈ parts, g.WithinReach x) :
    (parts.foldl (fun f g => f.add (g.normalize policy)) f).WithinReach x ∧
      ((parts.foldl (fun f g => f.add (g.normalize policy)) f).Admits x ↔ f.Admits x ∧
        ∀ g ∈ parts, g.Admits x) := by
  induction parts generalizing f with
  | nil => simpa using hf
  | cons g parts ih =>
    have hg := reach g List.mem_cons_self
    obtain ⟨within, admits⟩ :=
      ih (hf.add (hg.normalize policy)) fun g hg => reach g (List.mem_cons_of_mem _ hg)
    refine ⟨within, ?_⟩
    rw [List.foldl_cons, admits, admits_add hf (hg.normalize policy), admits_normalize policy hg,
      List.forall_mem_cons, and_assoc]

theorem admits_merge (policy : Policy) {parts : List (Faces Float)}
    (reach : ∀ g ∈ parts, g.WithinReach x) :
    (merge policy parts).WithinReach x ∧
    ((merge policy parts).Admits x ↔ ∀ g ∈ parts, g.Admits x) := by
  obtain ⟨within, admits⟩ := admits_foldl policy withinReach_free reach
  exact ⟨within, admits.trans (and_iff_right admits_free)⟩

end Faces

/-! ### Arrays -/

namespace LinearSystem

variable {s : LinearSystem Float} {n : Nat}

/-- The bounds of rows on one side, one by one or all together. -/
theorem forall_bound_iff {R : ℚ → Float → Prop} {bound : BoundedRow Float → Option Float}
    {rows : List (BoundedRow Float)} {v : List Float} (present : rows.map bound = v.map some) :
    (∀ r ∈ rows, ∀ a ∈ bound r, R (exactProduct r.coefficients x) a) ↔
      List.Forall₂ R ((rows.map BoundedRow.coefficients).map (exactProduct · x)) v := by
  induction rows generalizing v with
  | nil =>
    cases List.map_eq_nil_iff.1 present.symm
    simp
  | cons r rows ih =>
    obtain ⟨a, v, rfl, head, tail⟩ := List.map_eq_cons_iff.1 present.symm
    rw [List.forall_mem_cons, ih tail.symm, ← head, List.map_cons, List.map_cons, List.forall₂_cons]
    simp

theorem admits_bound {R : ℚ → Float → Prop} {bound : BoundedRow Float → Option Float}
    {t : Tensor Float} {m : Nat} {rows : List (BoundedRow Float)}
    (fits : t.size = 0 ∨ t.shape = [m]) (bounds : rows.map bound = t.boundList m) :
    (∀ r ∈ rows, ∀ a ∈ bound r, R (exactProduct r.coefficients x) a) ↔
      (t.size ≠ 0 →
        List.Forall₂ R ((rows.map BoundedRow.coefficients).map (exactProduct · x)) t.entries) := by
  rcases Tensor.bound_cases fits with ⟨noBound, missing⟩ | ⟨hasBound, v, rfl, -, present⟩
  · have none := Sidedness.eq_none_of_missing (bounds.trans missing)
    refine iff_of_true (fun r hr a ha => ?_) (absurd noBound)
    rw [none r hr] at ha
    cases ha
  · rw [forall_bound_iff (bounds.trans present)]
    exact ⟨fun h _ => h, fun h => h hasBound⟩

theorem admits_box : (s.hasBox → List.Forall₂ AtLeast x s.boxLower.entries ∧
    List.Forall₂ AtMost x s.boxUpper.entries) ↔
    ∀ b ∈ s.faces.box, InBox b x := by
  unfold faces
  by_cases box : s.hasBox
  · simp [box, InBox]
  · simp [box]

theorem admits_equalities (fits : s.EqualitiesFit n) :
    List.Forall₂ At (s.equalityMatrix.exactProducts x) s.equalityRhs.entries ↔
      ∀ e ∈ s.faces.equations, At (exactProduct e.1 x) e.2 := by
  have count : s.equalityMatrix.rowList.length = s.equalityRhs.entries.length := by
    rcases fits with ⟨noRows, noEntries⟩ | ⟨m, shape, shape'⟩
    · rw [Tensor.rowList_of_leading_zero noRows, Tensor.length_entries, noEntries, List.length_nil]
    · obtain ⟨k, matrix, rfl, -⟩ := Tensor.exists_matrix_of_shape shape
      obtain ⟨v, vector, length⟩ := Tensor.exists_vector_of_shape shape'
      rw [matrix, vector, Tensor.rowList, Tensor.entries, RowMatrix.length_rows, length]
  rw [Tensor.exactProducts, List.forall₂_map_left_iff, List.forall₂_iff_zip, faces, Prod.forall]
  exact and_iff_right count

theorem admits_rows (fits : s.InequalitiesFit n) :
    ((s.rowLower.size ≠ 0 → List.Forall₂ AtLeast (s.rowMatrix.exactProducts x) s.rowLower.entries) ∧
      (s.rowUpper.size ≠ 0 →
        List.Forall₂ AtMost (s.rowMatrix.exactProducts x) s.rowUpper.entries)) ↔
      ∀ r ∈ s.faces.rows, r.Admits x := by
  have split : (∀ r ∈ s.faces.rows, r.Admits x) ↔
      (∀ r ∈ s.faces.rows, ∀ l ∈ r.lower, AtLeast (exactProduct r.coefficients x) l) ∧
        ∀ r ∈ s.faces.rows, ∀ u ∈ r.upper, AtMost (exactProduct r.coefficients x) u := by
    constructor
    · intro h
      exact ⟨fun r hr => (h r hr).lower, fun r hr => (h r hr).upper⟩
    · rintro ⟨lower, upper⟩ r hr
      exact ⟨lower r hr, upper r hr⟩
  rw [split]
  rcases fits with ⟨noRows, noLower, noUpper⟩ | ⟨m, -, shape, fitsLower, fitsUpper, -⟩
  · have none : s.faces.rows = [] := by
      rw [faces, Tensor.rowList_of_leading_zero noRows]
      rfl
    simp [none, noLower, noUpper]
  · obtain ⟨k, matrix, -, -, coefficients, lowers, uppers⟩ := rows_of_fits shape fitsLower fitsUpper
    rw [admits_bound fitsLower lowers, admits_bound fitsUpper uppers, coefficients,
      Tensor.exactProducts, matrix, Tensor.rowList]

/-- Arrays that fit together admit just the vectors that what they say admits. -/
theorem admits_iff_faces (fits : s.Fits n) : s.Admits x ↔ s.faces.Admits x := by
  have rows := admits_rows (x := x) fits.inequalities
  constructor
  · rintro ⟨box, equalities, lower, upper⟩
    exact ⟨admits_box.1 box, (admits_equalities fits.equalities).1 equalities,
      rows.1 ⟨lower, upper⟩⟩
  · rintro ⟨box, equations, all⟩
    obtain ⟨lower, upper⟩ := rows.2 all
    exact ⟨admits_box.2 box, (admits_equalities fits.equalities).2 equations, lower, upper⟩

theorem withinReach_faces (h : s.WithinReach x) (fits : s.Fits n) (size : x.length = n) :
    s.faces.WithinReach x := by
  obtain ⟨equalities, inequalities⟩ := List.forall_mem_append.1 h
  refine ⟨?_, ?_, ?_⟩
  · intro b hb
    have sides : s.boxLower.shape = [n] ∧ s.boxUpper.shape = [n] := by
      refine fits.box.shapes ?_
      by_contra missing
      rw [faces, if_neg missing] at hb
      cases hb
    obtain ⟨l, lower, length⟩ := Tensor.exists_vector_of_shape sides.1
    obtain ⟨u, upper, length'⟩ := Tensor.exists_vector_of_shape sides.2
    have box : b = (l, u) := by
      rw [faces, lower, upper] at hb
      exact (Option.some_inj.1 (Option.mem_ite_none_right.1 hb).2).symm
    rw [box, size]
    exact ⟨length, length'⟩
  · intro e he
    exact equalities e.1 (List.of_mem_zip he).1
  · intro r hr
    rcases fits.inequalities with ⟨noRows, -⟩ | ⟨m, -, shape, fitsLower, fitsUpper, -⟩
    · rw [faces, Tensor.rowList_of_leading_zero noRows] at hr
      cases hr
    · obtain ⟨k, matrix, -, -, coefficients, -⟩ := rows_of_fits shape fitsLower fitsUpper
      refine inequalities r.coefficients ?_
      rw [matrix, Tensor.rowList, ← coefficients]
      exact List.mem_map_of_mem hr

/-- What is merged admits just the vectors that all parts admit. -/
theorem admits_of_merge {policy : Policy} {name : String} {size : Int} {parts : List (Part Float)}
    (merged : merge policy name size parts = .ok s)
    (reach : ∀ p ∈ parts, p.system.faces.WithinReach x) :
    s.faces.WithinReach x ∧ (s.Admits x ↔ ∀ p ∈ parts, p.system.Admits x) := by
  obtain ⟨n, -, fits, presents⟩ := presents_of_merge merged
  have normal := Faces.normal_merge policy (parts.map (·.system.faces))
  have read := presents.faces_eq normal
  obtain ⟨within, admits⟩ := Faces.admits_merge policy (List.forall_mem_map.2 reach)
  rw [admits_iff_faces (presents.fits normal), read]
  refine ⟨within, admits.trans ?_⟩
  rw [List.forall_mem_map]
  exact forall₂_congr fun p hp => (admits_iff_faces (fits p hp)).symm

end LinearSystem

end ControlHierarchy
