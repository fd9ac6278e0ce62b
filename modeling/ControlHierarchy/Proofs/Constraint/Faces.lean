import ControlHierarchy.Constraint.Merge
import ControlHierarchy.Proofs.Outcome
import Mathlib.Data.List.Basic

/-!
# What the arrays of a constraint say

The arrays of a constraint are read as lists: a box, equations, and rows with
the bounds that they have. On these lists a merge is easy to say: bring the rows
of each part into the form of the policy (`Faces.normalize`), intersect the
boxes and put the rows behind each other (`Faces.add`). Which arrays can be read
this way, and hence merged, is a matter of their shapes alone
(`LinearSystem.Fits`), and merged arrays are the ones that list what they say
(`LinearSystem.Presents`).
-/

namespace ControlHierarchy

structure BoundedRow (α : Type) where
  coefficients : List α
  lower : Option α
  upper : Option α

/-- What the arrays of a constraint say. -/
structure Faces (α : Type) where
  /-- The lower and the upper side. -/
  box : Option (List α × List α)
  /-- Rows with their right-hand sides. -/
  equations : List (List α × α)
  rows : List (BoundedRow α)

variable {α : Type}

namespace Tensor

def rowList : Tensor α → List (List α)
  | .matrix m => m.rows
  | _ => []

/-- The bounds of a number of rows. They are missing when the array has no entries. -/
def boundList (t : Tensor α) (count : Nat) : List (Option α) :=
  if t.size = 0 then List.replicate count none else t.entries.map some

end Tensor

def BoundedRow.zip : List (List α) → List (Option α) → List (Option α) → List (BoundedRow α)
  | r :: rows, l :: lower, u :: upper => ⟨r, l, u⟩ :: BoundedRow.zip rows lower upper
  | _, _, _ => []

def LinearSystem.faces (s : LinearSystem α) : Faces α where
  box := if s.hasBox then some (s.boxLower.entries, s.boxUpper.entries) else none
  equations := s.equalityMatrix.rowList.zip s.equalityRhs.entries
  rows := BoundedRow.zip s.rowMatrix.rowList (s.rowLower.boundList s.rowMatrix.rowList.length)
    (s.rowUpper.boundList s.rowMatrix.rowList.length)

/-! ### Shapes -/

namespace LinearSystem

/-- There is no box, or both of its sides have one entry for each variable. -/
def BoxFits (n : Nat) (s : LinearSystem α) : Prop :=
  (s.boxLower.size = 0 ∧ s.boxUpper.size = 0) ∨ (s.boxLower.shape = [n] ∧ s.boxUpper.shape = [n])

/-- There are no equalities, or there is one right-hand side for each row of the
right width. -/
def EqualitiesFit (n : Nat) (s : LinearSystem α) : Prop :=
  (s.equalityMatrix.leading = .ok 0 ∧ s.equalityRhs.size = 0) ∨
    ∃ m, s.equalityMatrix.shape = [m, n] ∧ s.equalityRhs.shape = [m]

/-- There are no inequalities, or there are rows of the right width with a
bound, and each bound that is not missing has one entry for each row. -/
def InequalitiesFit (n : Nat) (s : LinearSystem α) : Prop :=
  (s.rowMatrix.leading = .ok 0 ∧ s.rowLower.size = 0 ∧ s.rowUpper.size = 0) ∨
    ∃ m, m ≠ 0 ∧ s.rowMatrix.shape = [m, n] ∧ (s.rowLower.size = 0 ∨ s.rowLower.shape = [m]) ∧
      (s.rowUpper.size = 0 ∨ s.rowUpper.shape = [m]) ∧ ¬(s.rowLower.size = 0 ∧ s.rowUpper.size = 0)

/-- The arrays of a system have shapes that fit together, over `n` variables. -/
structure Fits (n : Nat) (s : LinearSystem α) : Prop where
  box : s.BoxFits n
  equalities : s.EqualitiesFit n
  inequalities : s.InequalitiesFit n

/-- The arrays of a system are lists of what it says, over `n` variables. -/
structure Presents (n : Nat) (s : LinearSystem α) (f : Faces α) : Prop where
  boxLower : s.boxLower = .vector (f.box.elim [] Prod.fst)
  boxUpper : s.boxUpper = .vector (f.box.elim [] Prod.snd)
  boxLength : ∀ b ∈ f.box, n ≠ 0 ∧ b.1.length = n ∧ b.2.length = n
  equalityMatrix : ∃ m, s.equalityMatrix = .matrix m ∧ m.width = n ∧
    m.rows = f.equations.map Prod.fst
  equalityRhs : s.equalityRhs = .vector (f.equations.map Prod.snd)
  rowMatrix : ∃ m, s.rowMatrix = .matrix m ∧ m.width = n ∧
    m.rows = f.rows.map BoundedRow.coefficients
  rowLower : s.rowLower = .vector (f.rows.filterMap BoundedRow.lower)
  rowUpper : s.rowUpper = .vector (f.rows.filterMap BoundedRow.upper)

end LinearSystem

/-! ### Normal forms -/

namespace BoundedRow

def ofEquation (e : List α × α) : BoundedRow α := ⟨e.1, some e.2, some e.2⟩

def fill [BoundScalar α] (r : BoundedRow α) : BoundedRow α :=
  ⟨r.coefficients, some (r.lower.getD BoundScalar.unboundedBelow),
    some (r.upper.getD BoundScalar.unboundedAbove)⟩

def below (r : BoundedRow α) : Option (BoundedRow α) :=
  r.upper.map fun u => ⟨r.coefficients, none, some u⟩

/-- The lower bound of a row, as an upper bound of the flipped row. -/
def above [Neg α] (r : BoundedRow α) : Option (BoundedRow α) :=
  r.lower.map fun l => ⟨r.coefficients.map (-·), none, some (-l)⟩

/-- Rows in the form of a policy: with both bounds, or with upper bounds only. -/
def normalize [Neg α] [BoundScalar α] (policy : Policy) (rows : List (BoundedRow α)) :
    List (BoundedRow α) :=
  if policy.bilateral then rows.map fill else rows.filterMap below ++ rows.filterMap above

section Zip

variable {coefficients : List (List α)} {l u : List (Option α)}

theorem map_zip (hl : coefficients.length = l.length) (hu : coefficients.length = u.length) :
    (zip coefficients l u).map BoundedRow.coefficients = coefficients ∧
    (zip coefficients l u).map BoundedRow.lower = l ∧
      (zip coefficients l u).map BoundedRow.upper = u := by
  induction coefficients generalizing l u with
  | nil => simp_all [zip, List.length_eq_zero_iff, eq_comm]
  | cons r coefficients ih =>
    obtain ⟨a, l, rfl⟩ := List.exists_cons_of_length_eq_add_one hl.symm
    obtain ⟨b, u, rfl⟩ := List.exists_cons_of_length_eq_add_one hu.symm
    simpa [zip] using ih (by simpa using hl) (by simpa using hu)

theorem mem_zip {rows : List (List α)} {r : BoundedRow α} (h : r ∈ zip rows l u) :
    r.coefficients ∈ rows ∧ r.lower ∈ l ∧ r.upper ∈ u := by
  induction rows generalizing l u with
  | nil => cases h
  | cons c rows ih =>
    cases l with
    | nil => cases h
    | cons a l =>
      cases u with
      | nil => cases h
      | cons b u =>
        rcases List.mem_cons.1 h with rfl | h
        · exact ⟨List.mem_cons_self, List.mem_cons_self, List.mem_cons_self⟩
        · obtain ⟨hc, hl, hu⟩ := ih h
          exact ⟨List.mem_cons_of_mem _ hc, List.mem_cons_of_mem _ hl, List.mem_cons_of_mem _ hu⟩

theorem zip_map (rows : List (BoundedRow α)) :
    zip (rows.map BoundedRow.coefficients) (rows.map BoundedRow.lower)
      (rows.map BoundedRow.upper) = rows := by
  induction rows with
  | nil => rfl
  | cons r rows ih => rw [List.map_cons, List.map_cons, List.map_cons, zip, ih]

end Zip

section Lists

variable {rows : List (BoundedRow α)}

theorem filterMap_upper_below :
    (rows.filterMap below).filterMap BoundedRow.upper = rows.filterMap BoundedRow.upper := by
  rw [List.filterMap_filterMap]
  refine List.filterMap_congr fun r _ => ?_
  cases h : r.upper <;> simp [below, h]

theorem filterMap_upper_above [Neg α] :
    (rows.filterMap above).filterMap BoundedRow.upper =
    (rows.filterMap BoundedRow.lower).map (-·) := by
  rw [List.filterMap_filterMap, List.map_filterMap]
  refine List.filterMap_congr fun r _ => ?_
  cases h : r.lower <;> simp [above, h]

theorem map_coefficients_below (present : ∀ r ∈ rows, r.upper.isSome) :
    (rows.filterMap below).map BoundedRow.coefficients = rows.map BoundedRow.coefficients := by
  rw [List.map_filterMap, ← List.filterMap_eq_map]
  refine List.filterMap_congr fun r hr => ?_
  obtain ⟨u, hu⟩ := Option.isSome_iff_exists.1 (present r hr)
  simp [below, hu]

theorem map_coefficients_above [Neg α] (present : ∀ r ∈ rows, r.lower.isSome) :
    (rows.filterMap above).map BoundedRow.coefficients =
    (rows.map BoundedRow.coefficients).map (·.map (-·)) := by
  rw [List.map_filterMap, List.map_map, ← List.filterMap_eq_map]
  refine List.filterMap_congr fun r hr => ?_
  obtain ⟨l, hl⟩ := Option.isSome_iff_exists.1 (present r hr)
  simp [above, hl]

theorem map_coefficients_fill [BoundScalar α] :
    (rows.map fill).map BoundedRow.coefficients = rows.map BoundedRow.coefficients := by
  rw [List.map_map]
  rfl

theorem filterMap_lower_fill [BoundScalar α] :
    (rows.map fill).filterMap BoundedRow.lower =
    (rows.map BoundedRow.lower).map (·.getD BoundScalar.unboundedBelow) := by
  rw [List.filterMap_map, List.map_map, ← List.filterMap_eq_map]
  rfl

theorem filterMap_upper_fill [BoundScalar α] :
    (rows.map fill).filterMap BoundedRow.upper =
    (rows.map BoundedRow.upper).map (·.getD BoundScalar.unboundedAbove) := by
  rw [List.filterMap_map, List.map_map, ← List.filterMap_eq_map]
  rfl

theorem lower_of_mem_below {r : BoundedRow α} (h : r ∈ rows.filterMap below) : r.lower = none := by
  obtain ⟨t, -, ht⟩ := List.mem_filterMap.1 h
  obtain ⟨u, -, rfl⟩ := Option.map_eq_some_iff.1 ht
  rfl

theorem lower_of_mem_above [Neg α] {r : BoundedRow α} (h : r ∈ rows.filterMap above) :
    r.lower = none := by
  obtain ⟨t, -, ht⟩ := List.mem_filterMap.1 h
  obtain ⟨l, -, rfl⟩ := Option.map_eq_some_iff.1 ht
  rfl

theorem lower_of_mem [Neg α] :
    ∀ r ∈ rows.filterMap below ++ rows.filterMap above, r.lower = none := by
  intro r hr
  rcases List.mem_append.1 hr with hr | hr
  · exact lower_of_mem_below hr
  · exact lower_of_mem_above hr

theorem upper_of_mem_below {r : BoundedRow α} (h : r ∈ rows.filterMap below) : r.upper.isSome := by
  obtain ⟨t, -, ht⟩ := List.mem_filterMap.1 h
  obtain ⟨u, -, rfl⟩ := Option.map_eq_some_iff.1 ht
  rfl

theorem upper_of_mem_above [Neg α] {r : BoundedRow α} (h : r ∈ rows.filterMap above) :
    r.upper.isSome := by
  obtain ⟨t, -, ht⟩ := List.mem_filterMap.1 h
  obtain ⟨l, -, rfl⟩ := Option.map_eq_some_iff.1 ht
  rfl

theorem upper_of_mem [Neg α] :
    ∀ r ∈ rows.filterMap below ++ rows.filterMap above, r.upper.isSome := by
  intro r hr
  rcases List.mem_append.1 hr with hr | hr
  · exact upper_of_mem_below hr
  · exact upper_of_mem_above hr

theorem filterMap_below_eq_nil (missing : ∀ r ∈ rows, r.upper = none) : rows.filterMap below = [] :=
  List.filterMap_eq_nil_iff.2 fun r hr => by simp [below, missing r hr]

theorem filterMap_above_eq_nil [Neg α] (missing : ∀ r ∈ rows, r.lower = none) :
    rows.filterMap above = [] :=
  List.filterMap_eq_nil_iff.2 fun r hr => by simp [above, missing r hr]

end Lists

end BoundedRow

namespace Faces

def free : Faces α := ⟨none, [], []⟩

/-- The equations that a policy leaves as such. -/
def kept (policy : Policy) (equations : List (List α × α)) : List (List α × α) :=
  if policy.foldsEqualities then [] else equations

/-- The equations that a policy turns into rows. -/
def folded [Neg α] [BoundScalar α] (policy : Policy) (equations : List (List α × α)) :
    List (BoundedRow α) :=
  if policy.foldsEqualities then
    BoundedRow.normalize policy (equations.map BoundedRow.ofEquation)
  else []

def normalize [Neg α] [BoundScalar α] (policy : Policy) (f : Faces α) : Faces α where
  box := f.box
  equations := kept policy f.equations
  rows := folded policy f.equations ++ BoundedRow.normalize policy f.rows

/-- The intersection of two boxes, of which any may be missing. -/
def meet [BoundScalar α] :
    Option (List α × List α) → Option (List α × List α) → Option (List α × List α)
  | none, b => b
  | b, none => b
  | some b, some c =>
    some (List.zipWith BoundScalar.larger b.1 c.1, List.zipWith BoundScalar.smaller b.2 c.2)

@[simp] theorem meet_none [BoundScalar α] (b : Option (List α × List α)) : meet b none = b := by
  cases b <;> rfl

def add [BoundScalar α] (f g : Faces α) : Faces α where
  box := meet f.box g.box
  equations := f.equations ++ g.equations
  rows := f.rows ++ g.rows

/-- What several constraints say together, in the form that a policy asks for. -/
def merge [Neg α] [BoundScalar α] (policy : Policy) (parts : List (Faces α)) : Faces α :=
  parts.foldl (fun f g => f.add (g.normalize policy)) free

/-- Equations and rows are in the form that a policy asks for. -/
structure Normal (policy : Policy) (f : Faces α) : Prop where
  equations : policy.foldsEqualities → f.equations = []
  lower : ∀ r ∈ f.rows, r.lower.isSome = policy.bilateral
  upper : ∀ r ∈ f.rows, r.upper.isSome

theorem Normal.lowers {policy : Policy} {f : Faces α} (h : f.Normal policy) :
    (∀ r ∈ f.rows, r.lower.isSome) ∨ ∀ r ∈ f.rows, r.lower = none := by
  cases bilateral : policy.bilateral with
  | true => exact .inl fun r hr => (h.lower r hr).trans bilateral
  | false => exact .inr fun r hr => by simpa [bilateral] using h.lower r hr

theorem normal_free (policy : Policy) : (free : Faces α).Normal policy where
  equations := fun _ => rfl
  lower := by simp [free]
  upper := by simp [free]

theorem Normal.add [BoundScalar α] {policy : Policy} {f g : Faces α} (hf : f.Normal policy)
    (hg : g.Normal policy) :
    (f.add g).Normal policy where
  equations :=
    fun folds => by rw [Faces.add, hf.equations folds, hg.equations folds, List.append_nil]
  lower := List.forall_mem_append.2 ⟨hf.lower, hg.lower⟩
  upper := List.forall_mem_append.2 ⟨hf.upper, hg.upper⟩

theorem normalize_bounds [Neg α] [BoundScalar α] (policy : Policy) (rows : List (BoundedRow α)) :
    ∀ r ∈ BoundedRow.normalize policy rows, r.lower.isSome = policy.bilateral ∧ r.upper.isSome := by
  intro r hr
  unfold BoundedRow.normalize at hr
  split at hr
  · next bilateral =>
    obtain ⟨t, -, rfl⟩ := List.mem_map.1 hr
    exact ⟨bilateral.symm, rfl⟩
  · next unilateral =>
    refine ⟨?_, BoundedRow.upper_of_mem r hr⟩
    rw [BoundedRow.lower_of_mem r hr, Bool.eq_false_iff.2 unilateral]
    rfl

theorem normal_normalize [Neg α] [BoundScalar α] (policy : Policy) (f : Faces α) :
    (f.normalize policy).Normal policy := by
  have bounds :
      ∀ r ∈ (f.normalize policy).rows, r.lower.isSome = policy.bilateral ∧ r.upper.isSome := by
    intro r hr
    rcases List.mem_append.1 hr with folded | kept
    · unfold Faces.folded at folded
      split at folded
      · exact normalize_bounds policy _ r folded
      · cases folded
    · exact normalize_bounds policy _ r kept
  exact ⟨fun folds => if_pos folds, fun r hr => (bounds r hr).1, fun r hr => (bounds r hr).2⟩

theorem rows_foldl [Neg α] [BoundScalar α] (policy : Policy) (parts : List (Faces α))
    (f : Faces α) :
    (parts.foldl (fun f g => f.add (g.normalize policy)) f).rows =
      f.rows ++ parts.flatMap fun g => (g.normalize policy).rows := by
  induction parts generalizing f with
  | nil => simp
  | cons g parts ih => rw [List.foldl_cons, ih, List.flatMap_cons, ← List.append_assoc, add]

theorem rows_merge [Neg α] [BoundScalar α] (policy : Policy) (parts : List (Faces α)) :
    (merge policy parts).rows = parts.flatMap fun g => (g.normalize policy).rows :=
  rows_foldl policy parts free

theorem normal_foldl [Neg α] [BoundScalar α] {policy : Policy} {parts : List (Faces α)}
    {f : Faces α} (h : f.Normal policy) :
    (parts.foldl (fun f g => f.add (g.normalize policy)) f).Normal policy := by
  induction parts generalizing f with
  | nil => exact h
  | cons g parts ih => exact ih (h.add (normal_normalize policy g))

theorem normal_merge [Neg α] [BoundScalar α] (policy : Policy) (parts : List (Faces α)) :
    (merge policy parts).Normal policy :=
  normal_foldl (normal_free policy)

end Faces

end ControlHierarchy
