import ControlHierarchy.Proofs.Constraint.Sentinels
import ControlHierarchy.Proofs.Store.Attaching
import ControlHierarchy.Proofs.Store.Program
import ControlHierarchy.Proofs.Store.Restricting

/-!
# Constraints that are merged with two bounds before a program is made

The program of a task under an aggregate whose rows have two bounds, and that of
the task with the parts of the aggregate attached to it, differ at most in the
order of their inequality rows: the sentinels of the aggregate leave nothing
behind, and no row of a part is lost (`problem_of_twoSided`).
-/

namespace ControlHierarchy.Build

variable {s s₁ s₂ s' : Store Float} {t : TaskRef} {extra : Option Object}
  {listed own : List Object} {cs added : List ConstraintRef} {agg : ConstraintRef} {n : Int}
    {policy : Policy} {p : Problem Float}

/-! ### Programs and what they state -/

section Programs

variable (attached : s.attached t = .ok listed)
  (split : listed ++ extra.toList = own ++ added.map Object.constraint) (some : added ≠ [])

include attached split some

/-- A program states the plain merge of the constraints of the task and the added ones. -/
theorem states_of_problem (run : (problem t extra).exec s = (.ok p, s')) :
    ∃ owns o o', ∃ k : Nat, own = owns.map Object.constraint ∧
      (s.taskBody t).objective = .ok o ∧ Problem.withLinearVector o = .ok o' ∧
      s.Combinable (s.taskBody t).size (owns ++ added) ∧ (s.taskBody t).size = k ∧
      p.States k o'
        (Faces.merge .plain ((owns ++ added).map fun c => (s.constraintSystem c).faces)) := by
  have someObjects : listed ++ extra.toList ≠ [] := by
    rw [split]
    exact List.append_ne_nil_of_right_ne_nil _ (by simpa using some)
  obtain ⟨parts, o, c, constraints, objective, made, program⟩ :=
    (exec_problem_eq_ok attached someObjects).1 run
  obtain ⟨owns, added', rfl, rfl, same⟩ :=
    List.map_eq_append_iff.1 (constraints.symm.trans split)
  obtain rfl := List.map_injective_iff.2 (fun _ _ => Object.constraint.inj) same
  obtain ⟨k, count, presents⟩ := presents_of_mergedConstraint made
  obtain ⟨o', linear, states⟩ :=
    Problem.states_of_ofSystem presents (Faces.normal_merge _ _) program
  exact ⟨owns, o, o', k, rfl, objective, linear,
    mergedConstraint_succeeds_iff.1 ⟨c, s', made⟩, count, states⟩

/-- There is a program just when the task has an objective and all constraints can
be combined. -/
theorem problem_succeeds_iff :
    (∃ p s', (problem t extra).exec s = (.ok p, s')) ↔
      ∃ owns o o', own = owns.map Object.constraint ∧ (s.taskBody t).objective = .ok o ∧
        Problem.withLinearVector o = .ok o' ∧
        s.Combinable (s.taskBody t).size (owns ++ added) := by
  constructor
  · rintro ⟨p, s', run⟩
    obtain ⟨owns, o, o', k, objects, objective, linear, combinable, -⟩ :=
      states_of_problem attached split some run
    exact ⟨owns, o, o', objects, objective, linear, combinable⟩
  · rintro ⟨owns, o, o', rfl, objective, linear, combinable⟩
    obtain ⟨c, s', made⟩ := (mergedConstraint_succeeds_iff (p := .plain)).2 combinable
    obtain ⟨k, -, presents⟩ := presents_of_mergedConstraint made
    obtain ⟨p, program, -⟩ := Problem.states_ofSystem linear presents (Faces.normal_merge _ _)
    rw [← List.map_append] at split
    have someObjects : listed ++ extra.toList ≠ [] := by
      rw [split, ne_eq, List.map_eq_nil_iff]
      exact combinable.nonempty
    exact ⟨p, s', (exec_problem_eq_ok attached someObjects).2
      ⟨owns ++ added, o, c, split, objective, made, program⟩⟩

end Programs

/-! ### A new aggregate -/

/-- What is read of a constraint is the same after another one is written. -/
theorem read_of_not_same {c : ConstraintRef} {i : Nat} (d : MergedConstraint Float)
    (apart : ¬c.same (.merged i cs)) :
    ({ s with mergedConstraints := s.mergedConstraints.write i d } : Store Float).constraintSize c =
        s.constraintSize c ∧
      ({ s with mergedConstraints := s.mergedConstraints.write i d } :
        Store Float).constraintSystem c = s.constraintSystem c := by
  cases c with
  | leaf j => exact ⟨rfl, rfl⟩
  | merged j parts =>
    have other : j ≠ i := fun here => apart (by simp [ConstraintRef.same, here])
    have read := s.mergedConstraints.read_write_of_ne d other
    exact ⟨congrArg MergedConstraint.size read, congrArg MergedConstraint.system read⟩

/-- A new aggregate of constraints can be a part itself, and says what they say in
the form of its policy. -/
theorem exec_mergeConstraints
    (made : (mergeConstraints cs n (.integer policy.word)).exec s = (.ok agg, s₁))
    (new : ∀ c ∈ cs, ¬c.same agg)
    (intact : ∀ operation, s₁.isReplaced (.constraint agg) operation = false) :
    s₁.Combinable n cs ∧ s₁.CanJoin n agg ∧ s₁.taskBody t = s.taskBody t ∧
      (s₁.constraintSystem agg).faces =
        Faces.merge policy (cs.map fun c => (s₁.constraintSystem c).faces) := by
  obtain ⟨d, s', combined, stored⟩ := exec_bind_eq_ok.1 made
  have combinable := mergedConstraint_succeeds_iff.1 ⟨d, s', combined⟩
  obtain ⟨k, count, presents⟩ := presents_of_mergedConstraint combined
  have size := size_of_mergedConstraint combined
  have normal := Faces.normal_merge policy (cs.map fun c => (s.constraintSystem c).faces)
  obtain ⟨events, rfl⟩ := (onlyLogs_mergedConstraint cs n _).of_exec combined
  cases stored
  have same := fun c hc => read_of_not_same (s := s.withLog events) d (new c hc)
  have read := s.mergedConstraints.read_write_self s.mergedConstraints.next d
  have system := congrArg MergedConstraint.system read
  refine ⟨⟨combinable.nonempty, combinable.room, fun c hc => ?_⟩,
    ⟨?_, Store.stuckAt?_of_intact intact, ?_⟩, ?_, ?_⟩
  · exact (combinable.join c hc).congr rfl (same c hc).1 (same c hc).2
  · exact (congrArg MergedConstraint.size read).trans size
  · rw [count]
    exact (congrArg (LinearSystem.Fits k) system).mpr (presents.fits normal)
  · cases t <;> rfl
  · rw [List.map_congr_left fun c hc => congrArg LinearSystem.faces (same c hc).2]
    exact (congrArg LinearSystem.faces system).trans (presents.faces_eq normal)

/-! ### Both programs -/

/-- Constraints that can be combined may be replaced by one that can be a part. -/
theorem combinable_append_iff {owns : List ConstraintRef} (parts : s.Combinable n cs)
    (whole : s.CanJoin n agg) :
    s.Combinable n (owns ++ [agg]) ↔ s.Combinable n (owns ++ cs) := by
  constructor
  · rintro ⟨-, room, join⟩
    obtain ⟨owns', -⟩ := List.forall_mem_append.1 join
    exact ⟨List.append_ne_nil_of_right_ne_nil _ parts.nonempty, room,
      List.forall_mem_append.2 ⟨owns', parts.join⟩⟩
  · rintro ⟨-, room, join⟩
    obtain ⟨owns', -⟩ := List.forall_mem_append.1 join
    exact ⟨List.append_ne_nil_of_right_ne_nil _ (List.cons_ne_nil _ _), room,
      List.forall_mem_append.2 ⟨owns', List.forall_mem_singleton.2 whole⟩⟩

theorem combinable_of_onlyTasks (h : s₁.OnlyTasks s₂) :
    s₂.Combinable n cs ↔ s₁.Combinable n cs := by
  obtain ⟨leaves, aggregates, rfl⟩ := h
  constructor
  · rintro ⟨nonempty, room, join⟩
    exact ⟨nonempty, room, fun c hc => (join c hc).congr rfl rfl rfl⟩
  · rintro ⟨nonempty, room, join⟩
    exact ⟨nonempty, room, fun c hc => (join c hc).congr rfl rfl rfl⟩

/-- The program of a task under an aggregate of constraints whose rows have two
bounds, and that of the task with these constraints attached after its own, both
exist or both do not. They have the same objective, equalities and box, and the
same inequality rows up to their order. -/
theorem problem_of_twoSided
    (made : (mergeConstraints cs (s.taskBody t).size (.integer Policy.twoSided.word)).exec s =
      (.ok agg, s₁))
    (new : ∀ c ∈ cs, ¬c.same agg)
    (intact : ∀ operation, s₁.isReplaced (.constraint agg) operation = false)
    (attached : (cs.forM fun c => attach t (.constraint c)).exec s₁ = (.ok (), s₂)) :
    ((∃ p s', (problem t (some (.constraint agg))).exec s₁ = (.ok p, s')) ↔
        ∃ q s', (problem t none).exec s₂ = (.ok q, s')) ∧
      ∀ p q s' s'', (problem t (some (.constraint agg))).exec s₁ = (.ok p, s') →
        (problem t none).exec s₂ = (.ok q, s'') → p.SameButOrder q := by
  obtain ⟨parts, whole, body, said⟩ := exec_mergeConstraints (t := t) made new intact
  obtain ⟨-, list, more, onlyTasks⟩ := exec_attachEach attached
  rw [← body] at parts whole
  have free := list parts.nonempty
  have listed₁ : s₁.attached t = .ok (s₁.taskBody t).constraints := Store.walk_eq_ok _ free
  have listed₂ : s₂.attached t =
      .ok ((s₁.taskBody t).constraints ++ cs.map Object.constraint) := by
    have free₂ : s₂.arrayIn? (.task t) .constraints = none := by
      obtain ⟨_, _, rfl⟩ := onlyTasks
      exact free
    rw [Store.attached, Store.walk_eq_ok _ free₂, more]
    rfl
  have split₂ : (s₁.taskBody t).constraints ++ cs.map Object.constraint ++
      (none : Option Object).toList =
        (s₁.taskBody t).constraints ++ cs.map Object.constraint := List.append_nil _
  have objective : (s₂.taskBody t).objective = (s₁.taskBody t).objective := by rw [more]; rfl
  have size : (s₂.taskBody t).size = (s₁.taskBody t).size := by rw [more]; rfl
  constructor
  · rw [problem_succeeds_iff listed₁ rfl (List.cons_ne_nil agg []),
      problem_succeeds_iff listed₂ split₂ parts.nonempty, objective, size]
    simp only [combinable_of_onlyTasks onlyTasks, combinable_append_iff parts whole]
  · intro p q s' s'' run run'
    obtain ⟨owns, o, o', k, objects, found, linear, -, count, states⟩ :=
      states_of_problem listed₁ rfl (List.cons_ne_nil agg []) run
    obtain ⟨owns', o₂, o₂', k', objects', found', linear', -, count', states'⟩ :=
      states_of_problem listed₂ split₂ parts.nonempty run'
    obtain rfl := List.map_injective_iff.2 (fun _ _ => Object.constraint.inj)
      (objects.symm.trans objects')
    cases found.symm.trans (objective.symm.trans found')
    cases linear.symm.trans linear'
    cases Int.ofNat_inj.1 (count.symm.trans (size.symm.trans count'))
    obtain ⟨_, _, rfl⟩ := onlyTasks
    rw [List.map_append, List.map_singleton, said] at states
    rw [List.map_append] at states'
    exact states.sameButOrder states' (Faces.box_merge_twoSided _ _)
      (Faces.equations_merge_twoSided _ _) (Faces.restrictedRows_merge_twoSided _ _)

/-- The store of two levels after both leaves, one bounded below and one an
equality, are merged to one more aggregate. -/
def twoLevelsJoined : Store Float :=
  ((mergeConstraints [.leaf 0, .leaf 1] 2 (.integer Policy.twoSided.word)).exec
    twoLevelsWithTask).2

/-- The new aggregate makes the same program for the task as its parts do when they
are attached to it. -/
theorem twoLevelsJoined_program :
    ∃ s₂ p q s' s'',
      ([ConstraintRef.leaf 0, .leaf 1].forM fun c =>
        attach (.leaf 0) (.constraint c)).exec twoLevelsJoined = (.ok (), s₂) ∧
      (problem (.leaf 0) (some (.constraint (.merged 2 [.leaf 0, .leaf 1])))).exec
        twoLevelsJoined = (.ok p, s') ∧
      (problem (.leaf 0) none).exec s₂ = (.ok q, s'') ∧ p.SameButOrder q := by
  obtain ⟨both, same⟩ := @problem_of_twoSided twoLevelsWithTask twoLevelsJoined _ (.leaf 0)
    [.leaf 0, .leaf 1] (.merged 2 [.leaf 0, .leaf 1]) rfl (by simp [ConstraintRef.same])
    (fun _ => rfl) rfl
  obtain ⟨p, s', run⟩ := (@problem_succeeds_iff twoLevelsJoined (.leaf 0)
    (some (.constraint (.merged 2 [.leaf 0, .leaf 1]))) _ [.constraint (.leaf 0)]
    [.merged 2 [.leaf 0, .leaf 1]] rfl rfl (List.cons_ne_nil _ _)).2
      ⟨[.leaf 0], _, _, rfl, rfl, rfl,
        (mergedConstraint_succeeds_iff (p := .plain)).1 ⟨_, _, rfl⟩⟩
  obtain ⟨q, s'', run'⟩ := both.1 ⟨p, s', run⟩
  exact ⟨_, p, q, s', s'', rfl, run, run', same p q s' s'' run run'⟩

end ControlHierarchy.Build
