import ControlHierarchy.Proofs.Problem
import ControlHierarchy.Proofs.Store.Assembling
import ControlHierarchy.Store.Program

/-!
# The program of a task and its constraints

The program of a task admits just the vectors that all of the constraints admit,
those attached to the task and the extra one, whatever policies they were merged
under before.
-/

namespace ControlHierarchy.Build

variable {s : Store Float} {t : TaskRef} {extra : Option Object} {own : List Object}
    {parts : List ConstraintRef}
  {o o' : Objective Float} {x : List ℚ}

/-- A task with an objective, under constraints that a merge accepts, has a
program, and it admits a vector in reach just when each of the constraints does. -/
theorem problem_admits_iff (objective : (s.taskBody t).objective = .ok o)
    (linear : Problem.withLinearVector o = .ok o') (attached : s.attached t = .ok own)
    (constraints : own ++ extra.toList = parts.map Object.constraint)
    (accepted : parts ≠ [] → ∃ c s',
      (mergedConstraint parts (s.taskBody t).size (.integer Policy.plain.word)).exec s =
        (.ok c, s'))
    (size : x.length = (s.taskBody t).size)
    (numbers : ∀ c ∈ parts, (s.constraintSystem c).BoundsAreNumbers)
    (reach : ∀ c ∈ parts, (s.constraintSystem c).WithinReach x) :
    ∃ p s', (problem t extra).exec s = (.ok p, s') ∧ p.objective = o' ∧
      (p.Admits x ↔ ∀ c ∈ parts, (s.constraintSystem c).Admits x) := by
  unfold problem
  rw [exec_bind_ok exec_get, exec_lift_ok objective, exec_lift_ok attached, constraints]
  by_cases none : parts = []
  · rw [none, List.map_nil, if_pos List.isEmpty_nil, exec_lift, Problem.unconstrained, linear]
    refine ⟨_, s, rfl, rfl, iff_of_true ?_ (List.forall_mem_nil _)⟩
    exact ⟨fun _ absent => (nomatch absent), fun _ absent => (nomatch absent),
      fun _ absent => (nomatch absent)⟩
  · obtain ⟨c, s', made⟩ := accepted none
    obtain ⟨policy, name, valid, merge⟩ := exec_mergedConstraint made
    cases (Policy.validate_word .plain).symm.trans valid
    obtain ⟨n, width, fits, presents⟩ := LinearSystem.presents_of_merge merge
    have length : x.length = n := by omega
    have partsReach : ∀ p ∈ parts.map s.part, p.system.faces.WithinReach x :=
      List.forall_mem_map.2 fun p hp =>
        LinearSystem.withinReach_faces (reach p hp) (fits _ (List.mem_map_of_mem hp)) length
    obtain ⟨within, admits⟩ := LinearSystem.admits_of_merge merge partsReach
    have normal := Faces.normal_merge .plain ((parts.map s.part).map (·.system.faces))
    rw [presents.faces_eq normal] at within
    have numeric := Faces.numeric_merge ((parts.map s.part).map (·.system.faces))
      (List.forall_mem_map.2 (List.forall_mem_map.2 fun c hc => (numbers c hc).rows))
    obtain ⟨p, made', same, same'⟩ := Problem.ofSystem_ok linear presents normal numeric within
    refine ⟨p, s', ?_, same, same'.trans (admits.trans List.forall_mem_map)⟩
    rw [if_neg (by simpa using none), exec_bind_ok (exec_objectsToMerge_map s parts _),
      exec_bind_ok made, exec_lift, made']

/-- The store of two levels with a task, to which one of the leaves is attached. -/
def twoLevelsWithTask : Store Float :=
  let body : TaskBody Float :=
    ⟨"posture", 2, .matrix (.identity 2), .vector [1, 1], .scalar 1, none, some .unknown,
    [.constraint (.leaf 0)]⟩
  { Store.twoLevels with leafTasks := ⟨⟨body, .explicit, none⟩, #[⟨body, .explicit, none⟩]⟩ }

/-- Under the attached leaf and the merge of both leaves the task has a program
that admits what the leaves admit. -/
theorem twoLevelsWithTask_admits :
    ∃ p s', (problem (.leaf 0) (some (.constraint (.merged 0 [.leaf 0, .leaf 1])))).exec
    twoLevelsWithTask = (.ok p, s') ∧
      p.Admits [1, 2] := by
  have numbers : ∀ c ∈ [ConstraintRef.leaf 0, .merged 0 [.leaf 0, .leaf 1]],
      (twoLevelsWithTask.constraintSystem c).BoundsAreNumbers := by
    unfold LinearSystem.BoundsAreNumbers
    decide +kernel
  have small : ∀ c ∈ [ConstraintRef.leaf 0, .merged 0 [.leaf 0, .leaf 1]],
      ∀ r ∈ (twoLevelsWithTask.constraintSystem c).equalityMatrix.rowList ++
        (twoLevelsWithTask.constraintSystem c).rowMatrix.rowList,
      |exactProduct r [1, 2]| ≤ 9007199254740991 := by
    decide +kernel
  obtain ⟨p, s', run, -, admits⟩ := @problem_admits_iff twoLevelsWithTask (.leaf 0)
    (some (.constraint (.merged 0 [.leaf 0, .leaf 1]))) [.constraint (.leaf 0)]
    [.leaf 0, .merged 0 [.leaf 0, .leaf 1]] _ _ [1, 2] rfl rfl rfl rfl (fun _ => ⟨_, _, rfl⟩) rfl
    numbers fun c hc => LinearSystem.withinReach_of_small (small c hc)
  exact ⟨p, s', run, admits.2 (by decide +kernel)⟩

end ControlHierarchy.Build
