import ControlHierarchy.Proofs.Constraint.Nesting
import ControlHierarchy.Proofs.Constraint.Presented

/-!
# The shapes of merged arrays

Whatever is merged, the arrays of a successful merge have shapes that belong
together (`LinearSystem.Shaped`): which ones depends on the policy and on the
number of variables, and not on the parts. They do so as soon as the run over the
parts has come to its end. So the check of the whole never refuses anything, and
a merge is this run alone (`LinearSystem.merge_eq_mergeParts`).
-/

namespace ControlHierarchy

variable {α : Type}

/-- Arrays have the shapes that a merge over `n` variables gives under a policy. -/
structure LinearSystem.Shaped (policy : Policy) (n : Nat) (s : LinearSystem α) : Prop where
  box : (s.boxLower.size = 0 ∧ s.boxUpper.size = 0) ∨
    (s.boxLower.shape = [n] ∧ s.boxUpper.shape = [n])
  equalities : ∃ m, s.equalityMatrix.shape = [m, n] ∧ s.equalityRhs.shape = [m] ∧
    (policy.foldsEqualities → m = 0)
  rows : ∃ k, s.rowMatrix.shape = [k, n] ∧ s.rowUpper.shape = [k] ∧
    s.rowLower.shape = [if policy.bilateral then k else 0]

/-- An aggregate has the arrays of a merge over its variables, under its policy. -/
def MergedConstraint.Shaped (c : MergedConstraint α) : Prop :=
  ∃ n : Nat, c.size = n ∧ c.system.Shaped (Policy.ofWord c.policy) n

namespace LinearSystem

variable {n : Nat} {s : LinearSystem α} {f : Faces α} {policy : Policy}

/-- What lists something in the form of a policy has the shapes that go with it. -/
theorem Presents.shaped (h : s.Presents n f) (normal : f.Normal policy) : s.Shaped policy n where
  box := (h.fits normal).box
  equalities := by
    obtain ⟨m, matrix, width, rows⟩ := h.equalityMatrix
    have height : m.height = f.equations.length := by
      rw [← m.length_rows, rows, List.length_map]
    refine ⟨f.equations.length, ?_, ?_, fun folds => ?_⟩
    · rw [matrix, Tensor.shape, height, width]
    · rw [h.equalityRhs, Tensor.shape, List.length_map]
    · rw [normal.equations folds, List.length_nil]
  rows := by
    obtain ⟨k, matrix, width, rows⟩ := h.rowMatrix
    have height : k.height = f.rows.length := by
      rw [← k.length_rows, rows, List.length_map]
    refine ⟨f.rows.length, ?_, ?_, ?_⟩
    · rw [matrix, Tensor.shape, height, width]
    · rw [h.rowUpper, Tensor.shape, List.filterMap_length_eq_length.2 normal.upper]
    · rw [h.rowLower, Tensor.shape]
      cases bilateral : policy.bilateral with
      | true =>
        have present : ∀ r ∈ f.rows, r.lower.isSome := fun r hr =>
          (normal.lower r hr).trans bilateral
        rw [List.filterMap_length_eq_length.2 present, if_pos rfl]
      | false =>
        have missing : ∀ r ∈ f.rows, r.lower = none := fun r hr => by
          simpa [bilateral] using normal.lower r hr
        rw [List.filterMap_eq_nil_iff.2 missing, List.length_nil, if_neg Bool.false_ne_true]

theorem shaped_of_merge [Zero α] [Neg α] [BoundScalar α] {name : String} {size : Int}
    {parts : List (Part α)} (h : merge policy name size parts = .ok s) :
    ∃ n : Nat, size = n ∧ s.Shaped policy n := by
  obtain ⟨n, count, -, presents⟩ := presents_of_merge h
  exact ⟨n, count, presents.shaped (Faces.normal_merge policy _)⟩

section Check

variable [Zero α] [Neg α] [BoundScalar α] {size : Int} {parts : List (Part α)}

/-- Arrays that a run over all parts has made pass the check of the whole. -/
theorem checkMerged_of_mergeParts (name : String) (run : mergeParts policy size parts = .ok s) :
    s.checkMerged policy name size = .ok () := by
  obtain ⟨n, rfl, -, presents⟩ := presents_of_mergeParts run
  exact presents.checkMerged_ok (Faces.normal_merge policy _)

theorem merge_eq_mergeParts (policy : Policy) (name : String) (size : Int)
    (parts : List (Part α)) : merge policy name size parts = mergeParts policy size parts := by
  unfold merge
  cases run : mergeParts policy size parts with
  | error e => rfl
  | ok s => rw [ok_bind, checkMerged_of_mergeParts name run]; rfl

end Check

end LinearSystem

/-- A merge of anything replaces the arrays of an aggregate, and nothing else of
it, by ones that belong together. -/
theorem MergedConstraint.shaped_of_regenerate [Zero α] [Neg α] [BoundScalar α]
    {c d : MergedConstraint α} {parts : List (Part α)} (h : c.regenerate parts = .ok d) :
    d = { c with system := d.system } ∧ d.Shaped := by
  obtain ⟨system, merged, rfl⟩ := regenerate_eq_ok.1 h
  exact ⟨rfl, LinearSystem.shaped_of_merge merged⟩

/-- The check of the whole is never what refuses a merge. Under whatever policy
and of whatever parts, malformed ones included, arrays that were made by a run
over all parts pass it; and an aggregate gets just the arrays of such a run, or
is refused as the run is. -/
theorem MergedConstraint.check_passes [Zero α] [Neg α] [BoundScalar α] (c : MergedConstraint α)
    (parts : List (Part α)) :
    (∀ s, LinearSystem.mergeParts (Policy.ofWord c.policy) c.size parts = .ok s →
      s.checkMerged (Policy.ofWord c.policy) c.name c.size = .ok ()) ∧
    c.regenerate parts =
      (LinearSystem.mergeParts (Policy.ofWord c.policy) c.size parts).map
        fun s => { c with system := s } := by
  refine ⟨fun s run => LinearSystem.checkMerged_of_mergeParts c.name run, ?_⟩
  rw [regenerate, LinearSystem.merge_eq_mergeParts]
  cases LinearSystem.mergeParts (Policy.ofWord c.policy) c.size parts with
  | error e => rfl
  | ok s => rfl

/-- Two parts over two variables: a box with an equality, and a row that is
bounded from below only. -/
def boxAndRow : List (Part Float) :=
  [⟨"box", .vector [0, 0], .vector [1, 1], .matrix (.ofRows 2 [[1, 1]] (by decide)), .vector [1],
      .matrix (.empty 2), .vector [], .vector []⟩,
    ⟨"row", .vector [], .vector [], .matrix (.empty 2), .vector [],
      .matrix (.ofRows 2 [[1, -1]] (by decide)), .vector [0], .vector []⟩]

/-- An aggregate that folds equalities and keeps both bounds of its rows. -/
def foldingPair : MergedConstraint Float :=
  ⟨"pair", 2, ⟨.vector [], .vector [], .matrix (.empty 2), .vector [], .matrix (.empty 2),
    .vector [], .vector []⟩, 3⟩

/-- The arrays of a merge pass the check, and it does refuse the same arrays
without the upper bounds of the rows. -/
theorem foldingPair_passes : ∃ s,
    LinearSystem.mergeParts (Policy.ofWord 3) 2 boxAndRow = .ok s ∧
    s.checkMerged (Policy.ofWord 3) "pair" 2 = .ok () ∧
    foldingPair.regenerate boxAndRow = .ok { foldingPair with system := s } ∧
    { s with rowUpper := .vector [] }.checkMerged (Policy.ofWord 3) "pair" 2 =
      .error (.mergedInequalities "pair" [2, 2] [0]) := by
  obtain ⟨passes, made⟩ := MergedConstraint.check_passes foldingPair boxAndRow
  obtain ⟨s, run⟩ : ∃ s, LinearSystem.mergeParts (Policy.ofWord 3) 2 boxAndRow = .ok s := ⟨_, rfl⟩
  refine ⟨s, run, passes s run, made.trans (congrArg (Except.map _) run), ?_⟩
  cases run
  rfl

end ControlHierarchy
