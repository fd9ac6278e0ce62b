import ControlHierarchy.Proofs.Constraint.Nesting
import ControlHierarchy.Proofs.Constraint.Presented
import ControlHierarchy.Proofs.Double.Extremes

/-!
# Groups of constraints under one policy

Under one policy it does not matter how the parts of a merge are grouped. What a
merge lists is in the form of the policy, and bringing it into this form once
more changes nothing (`Faces.normalize_of_normal`); intersecting boxes and
putting rows behind each other is associative (`Faces.add_assoc`). So the parts
of a group can be merged in the place of the group (`Faces.merge_group`), at any
depth (`Store.Grouped.faces_eq`), and the arrays of the merge are the same
(`Store.Grouped.regenerate_iff`).
-/

namespace ControlHierarchy

section Normal

variable {α : Type}

theorem BoundedRow.fill_of_present [BoundScalar α] {r : BoundedRow α} (lower : r.lower.isSome)
    (upper : r.upper.isSome) : r.fill = r := by
  obtain ⟨coefficients, l | l, u | u⟩ := r
  all_goals simp_all [fill]

theorem BoundedRow.below_of_present {r : BoundedRow α} (lower : r.lower = none)
    (upper : r.upper.isSome) : r.below = some r := by
  obtain ⟨coefficients, l | l, u | u⟩ := r
  all_goals simp_all [below]

theorem Faces.free_add [BoundScalar α] (f : Faces α) : free.add f = f := rfl

theorem Faces.add_free [BoundScalar α] (f : Faces α) : f.add free = f := by
  simp [add, free]

variable [Neg α] [BoundScalar α] {policy : Policy}

theorem BoundedRow.normalize_of_normal {rows : List (BoundedRow α)}
    (lower : ∀ r ∈ rows, r.lower.isSome = policy.bilateral) (upper : ∀ r ∈ rows, r.upper.isSome) :
    normalize policy rows = rows := by
  unfold normalize
  split
  · next bilateral =>
    have same : ∀ r ∈ rows, r.fill = r := fun r hr =>
      fill_of_present ((lower r hr).trans bilateral) (upper r hr)
    rw [List.map_congr_left same, List.map_id']
  · next unilateral =>
    have missing : ∀ r ∈ rows, r.lower = none := fun r hr => by
      simpa [unilateral] using lower r hr
    have same : ∀ r ∈ rows, r.below = some r := fun r hr =>
      below_of_present (missing r hr) (upper r hr)
    rw [filterMap_above_eq_nil missing, List.append_nil, List.filterMap_congr same,
      List.filterMap_some]

/-- What is in the form of a policy is left as it is. -/
theorem Faces.normalize_of_normal {f : Faces α} (h : f.Normal policy) : f.normalize policy = f := by
  obtain ⟨box, equations, rows⟩ := f
  have same : BoundedRow.normalize policy rows = rows :=
    BoundedRow.normalize_of_normal h.lower h.upper
  unfold normalize kept folded
  by_cases folds : policy.foldsEqualities
  · obtain rfl : equations = [] := h.equations folds
    have none : BoundedRow.normalize policy ([] : List (BoundedRow α)) = [] := by
      simp [BoundedRow.normalize]
    rw [if_pos folds, if_pos folds, List.map_nil, none, same, List.nil_append]
  · rw [if_neg folds, if_neg folds, same, List.nil_append]

end Normal

namespace Faces

variable {policy : Policy}

theorem zipWith_assoc {g : Float → Float → Float} (assoc : ∀ a b c, g (g a b) c = g a (g b c))
    (u v w : List Float) :
    List.zipWith g (List.zipWith g u v) w = List.zipWith g u (List.zipWith g v w) := by
  induction u generalizing v w with
  | nil => rfl
  | cons a u ih =>
    cases v with
    | nil => rfl
    | cons b v =>
      cases w with
      | nil => rfl
      | cons c w => simp [assoc, ih]

theorem meet_assoc (b c d : Option (List Float × List Float)) :
    meet (meet b c) d = meet b (meet c d) := by
  cases b with
  | none => rfl
  | some b =>
    cases c with
    | none => rfl
    | some c =>
      cases d with
      | none => rfl
      | some d =>
        exact congrArg some (Prod.ext (zipWith_assoc Double.larger_assoc b.1 c.1 d.1)
          (zipWith_assoc Double.smaller_assoc b.2 c.2 d.2))

theorem add_assoc (f g h : Faces Float) : (f.add g).add h = f.add (g.add h) := by
  simp [add, meet_assoc]

theorem foldl_add (f : Faces Float) (parts : List (Faces Float)) :
    parts.foldl (fun f g => f.add (g.normalize policy)) f = f.add (merge policy parts) := by
  induction parts generalizing f with
  | nil => exact (add_free f).symm
  | cons g parts ih => rw [merge, List.foldl_cons, List.foldl_cons, ih, ih, free_add, add_assoc]

theorem merge_cons (g : Faces Float) (parts : List (Faces Float)) :
    merge policy (g :: parts) = (g.normalize policy).add (merge policy parts) := by
  rw [merge, List.foldl_cons, foldl_add, free_add]

theorem merge_append (parts rest : List (Faces Float)) :
    merge policy (parts ++ rest) = (merge policy parts).add (merge policy rest) := by
  rw [merge, List.foldl_append, foldl_add]
  rfl

/-- The merge of a group is one more part, or its parts are. -/
theorem merge_group (group rest : List (Faces Float)) :
    merge policy (merge policy group :: rest) = merge policy (group ++ rest) := by
  rw [merge_cons, normalize_of_normal (normal_merge policy group), merge_append]

end Faces

namespace Store

/-- An aggregate over `n` variables that merges under a policy and has the arrays
of a merge of its parts. -/
structure IsGroup (s : Store Float) (n : Int) (policy : Policy) (i : Nat)
    (parts : List ConstraintRef) : Prop where
  size : (s.mergedConstraints.read i).size = n
  policy : Policy.ofWord (s.mergedConstraints.read i).policy = policy
  merged : (s.mergedConstraints.read i).regenerate (parts.map s.part) =
    .ok (s.mergedConstraints.read i)

/-- A list of constraints, in order, grouped into aggregates of one policy that
are up to date, to any depth. -/
inductive Grouped (s : Store Float) (n : Int) (policy : Policy) :
    List ConstraintRef → List ConstraintRef → Prop
  | nil : Grouped s n policy [] []
  | child (c : ConstraintRef) {children parts : List ConstraintRef}
      (rest : Grouped s n policy children parts) :
      Grouped s n policy (c :: children) (c :: parts)
  | group (i : Nat) {inner groups children parts : List ConstraintRef}
      (below : Grouped s n policy inner groups) (group : s.IsGroup n policy i groups)
      (rest : Grouped s n policy children parts) :
      Grouped s n policy (inner ++ children) (.merged i groups :: parts)

variable {s : Store Float} {n : Nat} {policy : Policy} {children parts : List ConstraintRef}

theorem IsGroup.presents {i : Nat} (h : s.IsGroup n policy i parts) :
    (∀ c ∈ parts, (s.constraintSystem c).Fits n) ∧
      (s.constraintSystem (.merged i parts)).Presents n
        (Faces.merge policy (parts.map fun c => (s.constraintSystem c).faces)) := by
  have merge := MergedConstraint.merge_of_regenerate h.merged
  rw [h.policy, h.size] at merge
  obtain ⟨k, count, fits, presents⟩ := LinearSystem.presents_of_merge merge
  obtain rfl := Int.ofNat_inj.1 count
  rw [List.map_map] at presents
  exact ⟨fun c hc => fits (s.part c) (List.mem_map_of_mem hc), presents⟩

/-- Grouping changes neither what can be merged nor what the merge says. -/
theorem Grouped.merge_eq (h : s.Grouped n policy children parts) :
    ((∀ c ∈ parts, (s.constraintSystem c).Fits n) ↔
        ∀ c ∈ children, (s.constraintSystem c).Fits n) ∧
      Faces.merge policy (parts.map fun c => (s.constraintSystem c).faces) =
        Faces.merge policy (children.map fun c => (s.constraintSystem c).faces) := by
  induction h with
  | nil => exact ⟨.rfl, rfl⟩
  | child c _ ih =>
    obtain ⟨fits, merge⟩ := ih
    rw [List.forall_mem_cons, List.forall_mem_cons, fits, List.map_cons, List.map_cons,
      Faces.merge_cons, Faces.merge_cons, merge]
    exact ⟨.rfl, rfl⟩
  | @group i inner groups children parts _ group _ below rest =>
    obtain ⟨innerFits, innerMerge⟩ := below
    obtain ⟨fits, merge⟩ := rest
    obtain ⟨groupFits, presents⟩ := group.presents
    have normal := Faces.normal_merge policy (groups.map fun c => (s.constraintSystem c).faces)
    constructor
    · rw [List.forall_mem_cons, List.forall_mem_append, fits]
      exact and_congr_left fun _ => iff_of_true (presents.fits normal) (innerFits.1 groupFits)
    · rw [List.map_cons, presents.faces_eq normal, innerMerge, Faces.merge_group, List.map_append,
        Faces.merge_append, Faces.merge_append, merge]

end Store

/-- A merge gives an aggregate these arrays when the merge of the parts does. -/
theorem MergedConstraint.regenerate_eq_ok_with {c : MergedConstraint Float}
    {parts : List (Part Float)} {system : LinearSystem Float} :
    c.regenerate parts = .ok { c with system := system } ↔
      LinearSystem.merge (Policy.ofWord c.policy) c.name c.size parts = .ok system := by
  rw [regenerate_eq_ok]
  constructor
  · rintro ⟨system', merged, same⟩
    rw [merged, (MergedConstraint.mk.inj same).2.2.1]
  · exact fun merged => ⟨system, merged, rfl⟩

/-- What was merged under a policy is left as it is by one more merge under it. -/
theorem LinearSystem.merge_again {policy : Policy} {name : String} {size : Int}
    {parts : List (Part Float)} {system : LinearSystem Float}
    (h : merge policy name size parts = .ok system) (name' name'' : String) :
    merge policy name' size [⟨name'', system⟩] = .ok system := by
  obtain ⟨n, count, start, -, presents⟩ := merge_eq_ok_iff.1 h
  have normal := Faces.normal_merge policy (parts.map (·.system.faces))
  refine merge_eq_ok_iff.2 ⟨n, count, start, ?_, ?_⟩
  · simpa using presents.fits normal
  · rw [List.map_singleton, presents.faces_eq normal, Faces.merge_group, List.append_nil]
    exact presents

namespace Store

variable {s : Store Float} {n : Int} {policy : Policy} {children parts : List ConstraintRef}

theorem Grouped.merge_iff {name name' : String} {system : LinearSystem Float}
    (h : s.Grouped n policy children parts) :
    LinearSystem.merge policy name n (parts.map s.part) = .ok system ↔
      LinearSystem.merge policy name' n (children.map s.part) = .ok system := by
  rw [LinearSystem.merge_eq_ok_iff, LinearSystem.merge_eq_ok_iff]
  refine exists_congr fun k => and_congr_right fun count => and_congr_right fun _ => ?_
  rw [count] at h
  obtain ⟨fits, merge⟩ := h.merge_eq
  rw [List.forall_mem_map, List.forall_mem_map, List.map_map, List.map_map]
  exact and_congr fits (iff_of_eq (congrArg (system.Presents k) merge))

/-- However a list of constraints is grouped into aggregates of one policy, an
aggregate of the groups is accepted just when one of the whole list is, and it
has the same arrays. Merging these arrays once more under the policy leaves them
as they are. -/
theorem Grouped.regenerate_iff {c d : MergedConstraint Float}
    (h : s.Grouped n policy children parts) (sizes : c.size = n ∧ d.size = n)
    (policies : Policy.ofWord c.policy = policy ∧ Policy.ofWord d.policy = policy)
    (system : LinearSystem Float) :
    (c.regenerate (parts.map s.part) = .ok { c with system := system } ↔
        d.regenerate (children.map s.part) = .ok { d with system := system }) ∧
      (c.regenerate (parts.map s.part) = .ok { c with system := system } →
        ∀ name, d.regenerate [⟨name, system⟩] = .ok { d with system := system }) := by
  obtain ⟨rfl, size⟩ := sizes
  obtain ⟨rfl, word⟩ := policies
  simp only [MergedConstraint.regenerate_eq_ok_with]
  rw [size, word]
  exact ⟨h.merge_iff, fun merged name => LinearSystem.merge_again merged d.name name⟩

/-- In the store of two levels, both leaves are a group under the policy that they
were merged under. Merged once more with the second leaf, they give what the
leaves give, one after another. -/
theorem twoLevels_regroups :
    ∃ system, innerMerge.regenerate
        ([ConstraintRef.merged 0 [.leaf 0, .leaf 1], .leaf 1].map twoLevels.part) =
        .ok { innerMerge with system := system } ∧
      innerMerge.regenerate ([ConstraintRef.leaf 0, .leaf 1, .leaf 1].map twoLevels.part) =
        .ok { innerMerge with system := system } := by
  have grouped : twoLevels.Grouped 2 .standard [.leaf 0, .leaf 1, .leaf 1]
      [.merged 0 [.leaf 0, .leaf 1], .leaf 1] :=
    .group 0 (.child (.leaf 0) (.child (.leaf 1) .nil)) ⟨rfl, rfl, rfl⟩ (.child (.leaf 1) .nil)
  obtain ⟨flat, -⟩ := @Grouped.regenerate_iff twoLevels _ _ _ _ innerMerge innerMerge grouped
    ⟨rfl, rfl⟩ ⟨rfl, rfl⟩ _
  exact ⟨_, rfl, flat.1 rfl⟩

end Store

end ControlHierarchy
