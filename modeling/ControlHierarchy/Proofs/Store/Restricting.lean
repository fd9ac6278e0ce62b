import ControlHierarchy.Proofs.Double.Extremes
import ControlHierarchy.Proofs.Problem.Rows
import ControlHierarchy.Proofs.Store.Combining
import ControlHierarchy.Store.Program

/-!
# Which rows a program leaves out

The program of a task has the merged rows of its constraints, in their order and
each with the right-hand side that it had, but for those that are not below the
largest double: the unbounded ones, and also those whose right-hand side is a NaN.
-/

namespace ControlHierarchy.Build

open BoundScalar (restricts)

section Runs

variable {α : Type} [Zero α] [One α] [Add α] [Mul α] [Neg α] [BoundScalar α]
  {s s' : Store α} {t : TaskRef} {extra : Option Object} {own : List Object} {p : Problem α}

/-- The program of a task under some objects is that of their merge, if they are
constraints. -/
theorem exec_problem_eq_ok (attached : s.attached t = .ok own) (some : own ++ extra.toList ≠ []) :
    (problem t extra).exec s = (.ok p, s') ↔
      ∃ parts o c, own ++ extra.toList = parts.map Object.constraint ∧
        (s.taskBody t).objective = .ok o ∧
        (mergedConstraint parts (s.taskBody t).size (.integer Policy.plain.word)).exec s =
          (.ok c, s') ∧
        Problem.ofSystem o c.system = .ok p := by
  unfold problem
  rw [exec_bind_ok exec_get, exec_lift_bind_eq_ok]
  constructor
  · rintro ⟨o, objective, run⟩
    rw [exec_lift_ok attached, if_neg (by simpa using some)] at run
    obtain ⟨parts, s₁, found, run⟩ := exec_bind_eq_ok.1 run
    obtain ⟨constraints, rfl⟩ := exec_objectsToMerge found
    obtain ⟨c, s₂, made, run⟩ := exec_bind_eq_ok.1 run
    rw [exec_lift] at run
    obtain ⟨program, rfl⟩ := Prod.mk.inj run
    exact ⟨parts, o, c, constraints, objective, made, program⟩
  · rintro ⟨parts, o, c, constraints, objective, made, program⟩
    refine ⟨o, objective, ?_⟩
    rw [exec_lift_ok attached, if_neg (by simpa using some), constraints,
      exec_bind_ok (exec_objectsToMerge_map s parts _), exec_bind_ok made, exec_lift, program]

end Runs

variable {s s' : Store Float} {t : TaskRef} {extra : Option Object} {own : List Object}
  {parts : List ConstraintRef} {o o' : Objective Float} {c : MergedConstraint Float}

/-- The program of a task has just those merged rows whose right-hand side is
neither a NaN nor unbounded, in the merged order and with the same right-hand sides. -/
theorem problem_keeps_restricted (objective : (s.taskBody t).objective = .ok o)
    (linear : Problem.withLinearVector o = .ok o') (attached : s.attached t = .ok own)
    (constraints : own ++ extra.toList = parts.map Object.constraint)
    (merged : (mergedConstraint parts (s.taskBody t).size (.integer Policy.plain.word)).exec s =
      (.ok c, s')) :
    ∃ p n pairs, (problem t extra).exec s = (.ok p, s') ∧
      Tabulates n pairs c.system.rowMatrix c.system.rowUpper ∧
      p.HasRows n (pairs.filter (restricts ·.2)) ∧
      ∀ r ∈ pairs, restricts r.2 = false ↔
        r.2.isNaN ∨ r.2 = Double.infinity ∨ r.2 = Double.largest := by
  have some : own ++ extra.toList ≠ [] := by
    rw [constraints, ne_eq, List.map_eq_nil_iff]
    rintro rfl
    cases merged
  obtain ⟨n, -, presents⟩ := presents_of_mergedConstraint merged
  have normal := Faces.normal_merge .plain (parts.map fun c => (s.constraintSystem c).faces)
  obtain ⟨p, made, states⟩ := Problem.states_ofSystem linear presents normal
  refine ⟨p, n, _, ?_, presents.tabulates_rows normal.upper, states.rows, fun r _ => ?_⟩
  · exact (exec_problem_eq_ok attached some).2 ⟨parts, o, c, constraints, objective, merged, made⟩
  · rw [← Double.not_lt_largest_iff]
    exact decide_eq_false_iff_not

/-! ### A row without a number -/

/-- A task over one variable, and two rows of which the first is bounded by a NaN. -/
def unknownSide : Store Float :=
  let body : TaskBody Float :=
    ⟨"reach", 1, .matrix (.identity 1), .vector [1], .scalar 1, none, some .unknown, []⟩
  let rows : LinearSystem Float :=
    ⟨.vector [], .vector [], .matrix (.empty 1), .vector [], .matrix ⟨2, 1, [1, 2], rfl⟩, .vector [],
      .vector [Double.undefined, 3]⟩
  { (Store.empty : Store Float) with
    leafConstraints := ⟨⟨"rows", 1, rows, .validated, []⟩, #[⟨"rows", 1, rows, .validated, []⟩]⟩
    leafTasks := ⟨⟨body, .explicit, none⟩, #[⟨body, .explicit, none⟩]⟩ }

/-- The program is left with the second row. -/
theorem unknownSide_keeps_second :
    ∃ p s', (problem (.leaf 0) (some (.constraint (.leaf 0)))).exec unknownSide = (.ok p, s') ∧
    p.HasRows 1 [([2], 3)] := by
  obtain ⟨p, n, pairs, run, listed, kept, -⟩ := @problem_keeps_restricted unknownSide _ (.leaf 0)
    (some (.constraint (.leaf 0))) [] [.leaf 0] _ _ _ rfl rfl rfl rfl rfl
  obtain ⟨rfl, rfl⟩ := listed.eq_zip
  exact ⟨p, _, run, kept⟩

end ControlHierarchy.Build
