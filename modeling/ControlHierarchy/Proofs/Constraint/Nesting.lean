import ControlHierarchy.Proofs.Constraint.Feasibility
import ControlHierarchy.Proofs.Store.Action
import ControlHierarchy.Store.Merging

/-!
# Trees of merged constraints

Aggregates merge aggregates, each under a policy of its own. A tree is up to
date when every aggregate in it has the arrays that a merge of its parts, as
they are now, would give it (`Store.JustMerged`); a merge of an aggregate whose
parts are up to date brings it there (`Store.justMerged_of_mergeConstraint`).
However deep the tree is and however its policies are mixed, what the merged
arrays admit is decided by the leaves alone.
-/

namespace ControlHierarchy

mutual

/-- The cells of the leaves below a constraint, from left to right. -/
def ConstraintRef.leaves : ConstraintRef → List Nat
  | .leaf i => [i]
  | .merged _ parts => ConstraintRef.leavesAll parts

def ConstraintRef.leavesAll : List ConstraintRef → List Nat
  | [] => []
  | c :: rest => c.leaves ++ ConstraintRef.leavesAll rest

end

theorem ConstraintRef.leavesAll_eq_flatMap (cs : List ConstraintRef) :
    ConstraintRef.leavesAll cs = cs.flatMap ConstraintRef.leaves := by
  induction cs with
  | nil => rfl
  | cons c cs ih => rw [ConstraintRef.leavesAll, ih, List.flatMap_cons]

mutual

/-- The cells of a constraint and all below it that are merged. -/
def ConstraintRef.aggregates : ConstraintRef → List Nat
  | .leaf _ => []
  | .merged i parts => i :: ConstraintRef.aggregatesAll parts

def ConstraintRef.aggregatesAll : List ConstraintRef → List Nat
  | [] => []
  | c :: rest => c.aggregates ++ ConstraintRef.aggregatesAll rest

end

theorem ConstraintRef.aggregatesAll_eq_flatMap (cs : List ConstraintRef) :
    ConstraintRef.aggregatesAll cs = cs.flatMap ConstraintRef.aggregates := by
  induction cs with
  | nil => rfl
  | cons c cs ih => rw [ConstraintRef.aggregatesAll, ih, List.flatMap_cons]

section Merges

variable {α : Type} [Zero α] [Neg α] [BoundScalar α] {parts : List (Part α)}
    {c d : MergedConstraint α}

/-- A successful merge replaces the arrays by those of the merge, and nothing else. -/
theorem MergedConstraint.regenerate_eq_ok :
    c.regenerate parts = .ok d ↔
      ∃ system, LinearSystem.merge (Policy.ofWord c.policy) c.name c.size parts = .ok system ∧
      d = { c with system := system } := by
  unfold regenerate
  rw [bind_eq_ok]
  exact exists_congr fun system => and_congr_right fun _ => pure_eq_ok.trans eq_comm

/-- An aggregate that a merge does not change has the arrays of the merge. -/
theorem MergedConstraint.merge_of_regenerate (h : c.regenerate parts = .ok c) :
    LinearSystem.merge (Policy.ofWord c.policy) c.name c.size parts = .ok c.system := by
  obtain ⟨system, merged, kept⟩ := regenerate_eq_ok.1 h
  rw [merged, kept]

/-- Merging again what was just merged changes nothing. -/
theorem MergedConstraint.regenerate_regenerate (h : c.regenerate parts = .ok d) :
    d.regenerate parts = .ok d := by
  obtain ⟨system, merged, rfl⟩ := regenerate_eq_ok.1 h
  exact regenerate_eq_ok.2 ⟨system, merged, rfl⟩

namespace Store

/-- Every aggregate of a tree over `n` variables has the arrays that a merge of
its parts gives. -/
inductive JustMerged (s : Store α) (n : Int) : ConstraintRef → Prop
  | leaf (i : Nat) (size : (s.leafConstraints.read i).size = n) : JustMerged s n (.leaf i)
  | merged (i : Nat) (parts : List ConstraintRef) (below : ∀ p ∈ parts, JustMerged s n p)
      (size : (s.mergedConstraints.read i).size = n)
      (merged : (s.mergedConstraints.read i).regenerate (parts.map s.part) =
        .ok (s.mergedConstraints.read i)) :
      JustMerged s n (.merged i parts)

variable {s t : Store α} {n : Int} {c : ConstraintRef}

omit [Zero α] [Neg α] [BoundScalar α] in
theorem part_congr (leaves : t.leafConstraints = s.leafConstraints)
    (aggregates : ∀ i ∈ c.aggregates, t.mergedConstraints.read i = s.mergedConstraints.read i) :
    t.part c = s.part c := by
  cases c with
  | leaf i =>
    rw [part, part, constraintName, constraintName, constraintSystem, constraintSystem, leaves]
  | merged i parts =>
    have read := aggregates i (by simp [ConstraintRef.aggregates])
    rw [part, part, constraintName, constraintName, constraintSystem, constraintSystem, read]

/-- Whether a tree is up to date depends on its own cells only. -/
theorem JustMerged.congr (h : s.JustMerged n c) (leaves : t.leafConstraints = s.leafConstraints)
    (aggregates : ∀ i ∈ c.aggregates, t.mergedConstraints.read i = s.mergedConstraints.read i) :
    t.JustMerged n c := by
  induction h with
  | leaf i size => exact .leaf i (leaves ▸ size)
  | merged i parts below size merged ih =>
    have inside : ∀ p ∈ parts, ∀ j ∈ p.aggregates,
        t.mergedConstraints.read j = s.mergedConstraints.read j := by
      intro p hp j hj
      refine aggregates j ?_
      rw [ConstraintRef.aggregates, ConstraintRef.aggregatesAll_eq_flatMap]
      exact List.mem_cons_of_mem i (List.mem_flatMap.2 ⟨p, hp, hj⟩)
    have parts_eq : parts.map t.part = parts.map s.part :=
      List.map_congr_left fun p hp => part_congr leaves (inside p hp)
    have read := aggregates i (by simp [ConstraintRef.aggregates])
    refine .merged i parts (fun p hp => ih p hp (inside p hp)) ?_ ?_
    · rw [read, size]
    · rw [read, parts_eq, merged]

/-- A merge in the store is a merge of the parts as they are. -/
theorem regenerate_of_remerged {lost : Operation → Bool} {c d : MergedConstraint α}
    {parts : List ConstraintRef} (h : s.remerged lost c parts = .ok d) :
    c.regenerate (parts.map s.part) = .ok d := by
  unfold remerged at h
  rw [then_eq_ok] at h
  obtain ⟨-, h⟩ := h
  split at h
  · obtain ⟨_, -, h⟩ := bind_eq_ok.1 h
    cases h
  · exact h

/-- A merge of an aggregate writes what its parts give together to its cell. -/
theorem exec_mergeConstraint {i : Nat} {parts : List ConstraintRef}
    (listed : s.constraintParts (.merged i parts) = .ok parts) :
    (Build.mergeConstraint i parts).exec s = (.ok (), t) ↔
      (∃ blank : LinearSystem α,
        LinearSystem.free (s.mergedConstraints.read i).size = .ok blank) ∧
      ∃ d, s.remerged (s.isReplaced (.constraint (.merged i parts))) (s.mergedConstraints.read i)
          parts = .ok d ∧
        t = { s with mergedConstraints := s.mergedConstraints.write i d } := by
  unfold Build.mergeConstraint
  rw [Build.exec_bind_ok Build.exec_get, Build.exec_lift_bind_eq_ok, Build.exec_lift_ok listed,
    Build.exec_lift_bind_eq_ok, exists_and_right]
  exact and_congr_right fun _ => exists_congr fun d => and_congr_right fun _ => Build.exec_set_eq_ok

/-- A merge brings an aggregate up to date, if its parts are and if it is not
one of them. -/
theorem justMerged_of_mergeConstraint {i : Nat} {parts : List ConstraintRef}
    (below : ∀ p ∈ parts, s.JustMerged n p) (apart : ∀ p ∈ parts, i ∉ p.aggregates)
    (size : (s.mergedConstraints.read i).size = n)
    (listed : s.constraintParts (.merged i parts) = .ok parts)
    (run : (Build.mergeConstraint i parts).exec s = (.ok (), t)) :
    t.JustMerged n (.merged i parts) := by
  obtain ⟨-, d, remerged, rest⟩ := (exec_mergeConstraint listed).1 run
  have regenerated := regenerate_of_remerged remerged
  obtain ⟨system, -, kept⟩ := MergedConstraint.regenerate_eq_ok.1 regenerated
  have leaves : t.leafConstraints = s.leafConstraints := by rw [rest]
  have written : t.mergedConstraints = s.mergedConstraints.write i d := by rw [rest]
  have inside : ∀ p ∈ parts, ∀ j ∈ p.aggregates,
      t.mergedConstraints.read j = s.mergedConstraints.read j := by
    intro p hp j hj
    rw [written]
    exact Cells.read_write_of_ne _ _ fun same => apart p hp (same ▸ hj)
  have parts_eq : parts.map t.part = parts.map s.part :=
    List.map_congr_left fun p hp => part_congr leaves (inside p hp)
  refine .merged i parts (fun p hp => (below p hp).congr leaves (inside p hp)) ?_ ?_
  · rw [written, Cells.read_write_self, kept]
    exact size
  · rw [written, Cells.read_write_self, parts_eq]
    exact MergedConstraint.regenerate_regenerate regenerated

end Store

end Merges

namespace Store

variable {s : Store Float} {n : Int} {c : ConstraintRef} {x : List ℚ}

/-- What holds below carries over a merge: the products with the merged rows are
in reach, and the merged arrays admit a vector just when all leaves do. -/
theorem JustMerged.admits (h : s.JustMerged n c) (size : x.length = n)
    (fits : (s.constraintSystem c).Fits x.length)
    (reach : ∀ i ∈ c.leaves, (s.leafConstraints.read i).system.WithinReach x) :
    (s.constraintSystem c).faces.WithinReach x ∧
      ((s.constraintSystem c).Admits x ↔
        ∀ i ∈ c.leaves, (s.leafConstraints.read i).system.Admits x) := by
  induction h with
  | leaf i _ =>
    refine ⟨LinearSystem.withinReach_faces (reach i List.mem_cons_self) fits rfl, ?_⟩
    rw [ConstraintRef.leaves, List.forall_mem_singleton]
    rfl
  | merged i parts _ same merged ih =>
    rw [ConstraintRef.leaves, ConstraintRef.leavesAll_eq_flatMap,
      List.forall_mem_flatMap] at reach ⊢
    have merge := MergedConstraint.merge_of_regenerate merged
    obtain ⟨k, count, partsFit, -⟩ := LinearSystem.presents_of_merge merge
    have width : k = x.length := by omega
    -- Flipped and filled rows of a part are in reach as well, which is what
    -- lets the part be merged once more.
    have below : ∀ p ∈ parts, (s.constraintSystem p).faces.WithinReach x ∧
        ((s.constraintSystem p).Admits x ↔
          ∀ j ∈ p.leaves, (s.leafConstraints.read j).system.Admits x) :=
      fun p hp => ih p hp (width ▸ partsFit (s.part p) (List.mem_map_of_mem hp)) (reach p hp)
    obtain ⟨within, admits⟩ :=
      LinearSystem.admits_of_merge merge (List.forall_mem_map.2 fun p hp => (below p hp).1)
    refine ⟨within, admits.trans ?_⟩
    rw [List.forall_mem_map]
    exact forall₂_congr fun p hp => (below p hp).2

/-- In an aggregate that is up to date each row has an upper bound, and a vector
respects the merged arrays just when it respects the arrays of every leaf. -/
theorem JustMerged.admits_iff_leaves {i : Nat} {parts : List ConstraintRef}
    (h : s.JustMerged n (.merged i parts)) (size : x.length = n)
    (reach : ∀ j ∈ (ConstraintRef.merged i parts).leaves,
      (s.leafConstraints.read j).system.WithinReach x) :
    (s.constraintSystem (.merged i parts)).rowUpper.entries.length =
        (s.constraintSystem (.merged i parts)).rowMatrix.rowList.length ∧
      ((s.constraintSystem (.merged i parts)).Admits x ↔
        ∀ j ∈ (ConstraintRef.merged i parts).leaves,
          (s.leafConstraints.read j).system.Admits x) := by
  cases id h with
  | merged _ _ _ same merged =>
    obtain ⟨k, count, -, presents⟩ :=
      LinearSystem.presents_of_merge (MergedConstraint.merge_of_regenerate merged)
    have width : k = x.length := by omega
    have normal := Faces.normal_merge (Policy.ofWord (s.mergedConstraints.read i).policy)
      ((parts.map s.part).map (·.system.faces))
    have fits : (s.constraintSystem (.merged i parts)).Fits x.length := by
      rw [← width]
      exact presents.fits normal
    exact ⟨presents.length_rowUpper normal, (h.admits size fits reach).2⟩

/-! ### Two levels of aggregates -/

/-- A row bounded below, in a box that is open above. -/
def halfOpen : LeafConstraint Float where
  name := "half open"
  size := 2
  system := ⟨.vector [0, 0], .vector [10, Double.infinity], .matrix (.empty 2), .vector [],
    .matrix ⟨1, 2, [1, 0], rfl⟩, .vector [1], .vector []⟩
  rule := .validated
  numbers := []

def balanced : LeafConstraint Float where
  name := "balanced"
  size := 2
  system := ⟨.vector [], .vector [], .matrix ⟨1, 2, [1, 1], rfl⟩, .vector [3], .matrix (.empty 2),
    .vector [], .vector []⟩
  rule := .validated
  numbers := []

/-- Both leaves, merged into rows with two bounds. -/
def innerMerge : MergedConstraint Float where
  name := "half open+balanced"
  size := 2
  system := ⟨.vector [0, 0], .vector [10, Double.infinity], .matrix (.empty 2), .vector [],
    .matrix ⟨2, 2, [1, 0, 1, 1], rfl⟩, .vector [1, 3], .vector [Double.infinity, 3]⟩
  policy := Policy.standard.word

/-- The merge and the equality, merged with upper bounds only. -/
def outerMerge : MergedConstraint Float where
  name := "half open+balanced+balanced"
  size := 2
  system := ⟨.vector [0, 0], .vector [10, Double.infinity], .matrix ⟨1, 2, [1, 1], rfl⟩,
    .vector [3], .matrix ⟨4, 2, [1, 0, 1, 1, -1, -0.0, -1, -1], rfl⟩, .vector [],
    .vector [Double.infinity, 3, -1, -3]⟩
  policy := Policy.plain.word

/-- A store in which the merges are up to date. -/
def twoLevels : Store Float :=
  { (Store.empty : Store Float) with
    leafConstraints := ⟨halfOpen, #[halfOpen, balanced]⟩
    mergedConstraints := ⟨innerMerge, #[innerMerge, outerMerge]⟩ }

theorem twoLevels_justMerged :
    twoLevels.JustMerged 2 (.merged 1 [.merged 0 [.leaf 0, .leaf 1], .leaf 1]) := by
  have inner : twoLevels.JustMerged 2 (.merged 0 [.leaf 0, .leaf 1]) := by
    refine .merged 0 _ ?_ rfl rfl
    simpa only [List.forall_mem_cons] using ⟨.leaf 0 rfl, .leaf 1 rfl, List.forall_mem_nil _⟩
  refine .merged 1 _ ?_ rfl rfl
  simpa only [List.forall_mem_cons] using ⟨inner, .leaf 1 rfl, List.forall_mem_nil _⟩

theorem twoLevels_withinReach :
    ∀ i ∈ [0, 1, 1], (twoLevels.leafConstraints.read i).system.WithinReach [1, 2] := by
  have small : ∀ i ∈ [0, 1, 1], ∀ r ∈
      (twoLevels.leafConstraints.read i).system.equalityMatrix.rowList ++
        (twoLevels.leafConstraints.read i).system.rowMatrix.rowList,
      |exactProduct r [1, 2]| ≤ 9007199254740991 := by
    decide +kernel
  exact fun i hi => LinearSystem.withinReach_of_small (small i hi)

/-- The merge of merges admits a vector because its leaves do. -/
theorem twoLevels_admits :
    (twoLevels.constraintSystem
      (.merged 1 [.merged 0 [.leaf 0, .leaf 1], .leaf 1])).Admits [1, 2] :=
  (twoLevels_justMerged.admits_iff_leaves rfl twoLevels_withinReach).2.2 (by decide +kernel)

end Store

end ControlHierarchy
