import ControlHierarchy.Proofs.Constraint.Refusal
import ControlHierarchy.Proofs.Store.Combining
import ControlHierarchy.Proofs.Update.Order

/-!
# Which parts an aggregate accepts

An aggregate of constraints accepts its parts when each of them fits by itself
(`Build.accepts_iff_fits`): neither the policy nor the order of the parts nor
their company matters. A part whose arrays have one or two dimensions is refused
with the same kind of error wherever it is the first one that does not fit.
-/

namespace ControlHierarchy

variable {α : Type}

/-- There is no merge over so many variables that there can be no arrays over them. -/
theorem MergedConstraint.regenerate_of_noRoom [Zero α] [Neg α] [BoundScalar α]
    {c : MergedConstraint α} {e : Error}
    (room : (LinearSystem.free c.size : Except Error (LinearSystem α)) = .error e)
    (parts : List (Part α)) : c.regenerate parts = .error e := by
  unfold regenerate LinearSystem.merge LinearSystem.mergeParts
  rw [room]
  rfl

namespace Store

/-- Nothing took the place of an operation of an object or of its parts, nor of
a list that one of them is gone through by. -/
structure Intact (s : Store α) (o : Object) : Prop where
  operations : ∀ p ∈ o :: o.parts, ∀ operation, s.isReplaced p operation = false
  lists : ∀ p ∈ o :: o.parts, s.KeepsLists p

variable {s : Store α} {i : Nat} {parts : List ConstraintRef}

theorem Intact.checkCallable_eq_ok {o : Object} (intact : s.Intact o) (operation : Operation) :
    s.checkCallable o operation = .ok () := by
  rw [checkCallable, intact.operations o List.mem_cons_self operation]
  rfl

theorem Intact.askable (intact : s.Intact (.constraint (.merged i parts))) :
    ∀ p ∈ parts, s.stuckAt? (fun _ => false) p = none := by
  intro p hp
  exact stuckAt?_of_intact (intact.operations (.constraint p)
    (List.mem_cons_of_mem _ (List.mem_map_of_mem hp)))

/-- A merge of intact constraints depends on their arrays alone. -/
theorem Intact.remerged_eq [Zero α] [Neg α] [BoundScalar α]
    (intact : s.Intact (.constraint (.merged i parts))) (c : MergedConstraint α) :
    s.remerged (s.isReplaced (.constraint (.merged i parts))) c parts =
      c.regenerate (parts.map s.part) := by
  have lost : s.isReplaced (.constraint (.merged i parts)) = fun _ => false :=
    funext (intact.operations _ List.mem_cons_self)
  have checked : s.checkFaces (fun _ => false) (Policy.ofWord c.policy) c.size parts = .ok () :=
    checkFaces_eq_ok.2 intact.askable
  simp [remerged, lost, checked]

end Store

namespace Build

variable [Zero α] [One α] [Add α] [Mul α] [Neg α] [BoundScalar α] {s : Store α} {i n : Nat}
  {parts : List ConstraintRef}

/-- To merge the parts of an intact aggregate again is to merge their arrays, and
a merge that is refused changes nothing. -/
theorem exec_regenerate_constraint (intact : s.Intact (.constraint (.merged i parts))) :
    (regenerate (.constraint (.merged i parts))).exec s =
      match (s.mergedConstraints.read i).regenerate (parts.map s.part) with
      | .ok d => (.ok (), { s with mergedConstraints := s.mergedConstraints.write i d })
      | .error e => (.error e, s) := by
  have listed : s.constraintParts (.merged i parts) = .ok parts :=
    Store.asked_eq_ok _ (intact.lists _ List.mem_cons_self _ (by simp))
  unfold regenerate mergeConstraint
  rw [exec_bind_ok exec_get, exec_lift_ok (intact.checkCallable_eq_ok _), exec_bind_ok exec_get,
    exec_bind, exec_lift]
  cases room : (LinearSystem.free (s.mergedConstraints.read i).size :
      Except Error (LinearSystem α)) with
  | error e => rw [MergedConstraint.regenerate_of_noRoom room]
  | ok blank =>
    simp only []
    rw [exec_lift_ok listed, intact.remerged_eq, exec_bind, exec_lift]
    cases (s.mergedConstraints.read i).regenerate (parts.map s.part) with
    | error e => rfl
    | ok d => rfl

theorem regenerate_succeeds_iff (size : (s.mergedConstraints.read i).size = n)
    (intact : s.Intact (.constraint (.merged i parts))) :
    (∃ t, (regenerate (.constraint (.merged i parts))).exec s = (.ok (), t)) ↔
      (∃ blank : LinearSystem α, LinearSystem.free n = .ok blank) ∧
        ∀ c ∈ parts, (s.constraintSystem c).Fits n := by
  rw [exec_regenerate_constraint intact]
  constructor
  · rintro ⟨t, run⟩
    cases made : (s.mergedConstraints.read i).regenerate (parts.map s.part) with
    | error e =>
      rw [made] at run
      cases run
    | ok d =>
      obtain ⟨system, merged, -⟩ := MergedConstraint.regenerate_eq_ok.1 made
      obtain ⟨k, count, room, fits, -⟩ := LinearSystem.merge_eq_ok_iff.1 merged
      rw [size] at count room
      obtain rfl := Int.ofNat_inj.1 count
      exact ⟨room, fun c hc => fits _ (List.mem_map_of_mem hc)⟩
  · rintro ⟨⟨blank, room⟩, fits⟩
    obtain ⟨system, merged, -⟩ := LinearSystem.merge_ok
      (Policy.ofWord (s.mergedConstraints.read i).policy) (s.mergedConstraints.read i).name room
      (List.forall_mem_map.2 fits : ∀ p ∈ parts.map s.part, p.system.Fits n)
    rw [← size] at merged
    have made := MergedConstraint.regenerate_eq_ok.2 ⟨system, merged, rfl⟩
    exact ⟨_, by rw [made]⟩

/-- The first part that does not fit decides what a merge in the store is refused with. -/
theorem exec_regenerate_refused {blank : LinearSystem α} {culprit : ConstraintRef}
    (size : (s.mergedConstraints.read i).size = n)
    (intact : s.Intact (.constraint (.merged i parts))) (room : LinearSystem.free n = .ok blank)
    (first : FirstWithout (fun c => (s.constraintSystem c).Fits n) parts culprit) :
    ∃ e, (regenerate (.constraint (.merged i parts))).exec s = (.error e, s) ∧
      (s.constraintSystem culprit).RefusedWith (Policy.ofWord (s.mergedConstraints.read i).policy) n
        e.kind := by
  obtain ⟨e, merge, refused⟩ := LinearSystem.kind_of_merge
    (Policy.ofWord (s.mergedConstraints.read i).policy) (s.mergedConstraints.read i).name room
    (first.map s.part)
  have failed : (s.mergedConstraints.read i).regenerate (parts.map s.part) = .error e := by
    unfold MergedConstraint.regenerate
    rw [size, merge]
    rfl
  refine ⟨e, ?_, refused⟩
  rw [exec_regenerate_constraint intact, failed]

omit [One α] [Add α] [Mul α] in
/-- The same for an aggregate that is being made. -/
theorem exec_mergeConstraints_refused {blank : LinearSystem α} {culprit : ConstraintRef}
    (policy : Policy) (sizes : ∀ c ∈ parts, s.constraintSize c = n)
    (askable : ∀ c ∈ parts, s.stuckAt? (fun _ => false) c = none)
    (room : LinearSystem.free n = .ok blank)
    (first : FirstWithout (fun c => (s.constraintSystem c).Fits n) parts culprit) :
    ∃ e t, (mergeConstraints parts n (.integer policy.word)).exec s = (.error e, t) ∧
      (s.constraintSystem culprit).RefusedWith policy n e.kind := by
  obtain ⟨name, events, prepared⟩ :=
    prepareConstraint_succeeds (p := policy) (List.ne_nil_of_mem first.mem) room sizes
  obtain ⟨e, merge, refused⟩ :=
    LinearSystem.kind_of_merge policy name room (first.map s.part)
  have checked : s.checkFaces (fun _ => false) policy n parts = .ok () :=
    Store.checkFaces_eq_ok.2 askable
  have failed : (s.withLog events).remerged (fun _ => false) ⟨name, n, blank, policy.word⟩ parts =
      .error e := by
    change s.remerged (fun _ => false) ⟨name, n, blank, policy.word⟩ parts = .error e
    simp [Store.remerged, MergedConstraint.regenerate, Policy.ofWord_word, checked, merge]
  refine ⟨e, s.withLog events, ?_, refused⟩
  unfold mergeConstraints mergedConstraint
  rw [exec_bind, exec_bind_ok prepared, exec_bind_ok exec_get, exec_lift, failed]

/-- An aggregate of constraints over `n` variables accepts its parts just when each
of them fits by itself, as long as there can be arrays over `n` variables at all.
So aggregates of the same parts, in whatever order and under whatever policies,
accept them together. A part that is refused leaves the store as it is. If all
arrays of the parts have one or two dimensions, the error is of the kind that the
first part that does not fit is refused with alone, under any policy. -/
theorem accepts_iff_fits (size : (s.mergedConstraints.read i).size = n)
    (intact : s.Intact (.constraint (.merged i parts)))
    (sizes : ∀ c ∈ parts, s.constraintSize c = n) :
    ((∃ t, (regenerate (.constraint (.merged i parts))).exec s = (.ok (), t)) ↔
      (∃ blank : LinearSystem α, LinearSystem.free n = .ok blank) ∧
        ∀ c ∈ parts, (s.constraintSystem c).Fits n) ∧
    (∀ j more, (s.mergedConstraints.read j).size = n →
      s.Intact (.constraint (.merged j more)) → (∀ c, c ∈ more ↔ c ∈ parts) →
      ((∃ t, (regenerate (.constraint (.merged j more))).exec s = (.ok (), t)) ↔
        ∃ t, (regenerate (.constraint (.merged i parts))).exec s = (.ok (), t))) ∧
    ∀ e t, (regenerate (.constraint (.merged i parts))).exec s = (.error e, t) → t = s ∧
      ((∃ blank : LinearSystem α, LinearSystem.free n = .ok blank) →
        (∀ c ∈ parts, (s.constraintSystem c).Flat) →
        ∃ culprit, FirstWithout (fun c => (s.constraintSystem c).Fits n) parts culprit ∧
          e.kind ≠ none ∧ ∀ policy : Policy, ∃ e' t',
            (mergeConstraints [culprit] n (.integer policy.word)).exec s = (.error e', t') ∧
              e'.kind = e.kind) := by
  refine ⟨regenerate_succeeds_iff size intact, ?_, ?_⟩
  · intro j more size' intact' same
    rw [regenerate_succeeds_iff size intact, regenerate_succeeds_iff size' intact']
    simp [same]
  · intro e t failed
    have kept : t = s := by
      rw [exec_regenerate_constraint intact] at failed
      split at failed
      · cases failed
      · cases failed
        rfl
    refine ⟨kept, ?_⟩
    rintro ⟨blank, room⟩ flat
    have misfit : ¬∀ c ∈ parts, (s.constraintSystem c).Fits n := by
      intro fits
      obtain ⟨t', run⟩ := (regenerate_succeeds_iff size intact).2 ⟨⟨blank, room⟩, fits⟩
      cases run.symm.trans failed
    obtain ⟨culprit, first⟩ := exists_firstWithout misfit
    obtain ⟨e', failed', refused⟩ := exec_regenerate_refused size intact room first
    cases failed'.symm.trans failed
    refine ⟨culprit, first, (refused.of_flat (flat culprit first.mem)).1, ?_⟩
    intro policy
    have alone : FirstWithout (fun c => (s.constraintSystem c).Fits n) [culprit] culprit :=
      firstWithout_singleton first.lacks
    obtain ⟨e'', t'', failed'', refused'⟩ := exec_mergeConstraints_refused policy
      (List.forall_mem_singleton.2 (sizes culprit first.mem))
      (List.forall_mem_singleton.2 (intact.askable culprit first.mem)) room alone
    refine ⟨e'', t'', failed'', refused'.unique ?_⟩
    exact (refused.of_flat (flat culprit first.mem)).2 policy

/-! ### A row without bounds -/

/-- An equality, a row without bounds, and an aggregate that is to merge both. -/
def looseRow : Store Float :=
  let rows : LinearSystem Float :=
    ⟨.vector [], .vector [], .matrix (.empty 2), .vector [], .matrix ⟨1, 2, [0, 1], rfl⟩,
      .vector [], .vector []⟩
  let both : MergedConstraint Float := ⟨"balanced+loose", 2, Store.blankSystem, Policy.plain.word⟩
  { (Store.empty : Store Float) with
    leafConstraints :=
      ⟨Store.balanced, #[Store.balanced, ⟨"loose", 2, rows, .unvalidated, []⟩]⟩
    mergedConstraints := ⟨both, #[both]⟩ }

theorem looseRow_flat :
    ∀ c ∈ [ConstraintRef.leaf 0, .leaf 1], (looseRow.constraintSystem c).Flat := by
  rintro c hc role
  simp only [List.mem_cons, List.not_mem_nil, or_false] at hc
  rcases hc with rfl | rfl <;> cases role <;> decide

/-- The row is refused in company and alone. -/
theorem looseRow_refused : ∃ e,
    (regenerate (.constraint (.merged 0 [.leaf 0, .leaf 1]))).exec looseRow = (.error e, looseRow) ∧
      e.kind = some .constraintDefinition ∧ ∀ policy : Policy, ∃ e' t',
        (mergeConstraints [.leaf 1] 2 (.integer policy.word)).exec looseRow = (.error e', t') ∧
          e'.kind = some .constraintDefinition := by
  have intact : looseRow.Intact (.constraint (.merged 0 [.leaf 0, .leaf 1])) :=
    ⟨fun _ _ _ => rfl, fun _ _ _ _ => rfl⟩
  have sizes : ∀ c ∈ [ConstraintRef.leaf 0, .leaf 1], looseRow.constraintSize c = (2 : Nat) := by
    simp only [List.forall_mem_cons]
    exact ⟨rfl, rfl, List.forall_mem_nil _⟩
  have run : (regenerate (.constraint (.merged 0 [.leaf 0, .leaf 1]))).exec looseRow =
      (.error (.rowsUnbounded 1), looseRow) := rfl
  obtain ⟨-, -, refusals⟩ := accepts_iff_fits (n := 2) rfl intact sizes
  obtain ⟨culprit, first, -, alone⟩ := (refusals _ _ run).2 ⟨_, rfl⟩ looseRow_flat
  have fits : (looseRow.constraintSystem (.leaf 0)).Fits 2 :=
    ⟨.inl ⟨rfl, rfl⟩, .inr ⟨1, rfl, rfl⟩, .inl ⟨rfl, rfl, rfl⟩⟩
  have which : culprit = .leaf 1 := by
    rcases List.mem_cons.1 first.mem with rfl | last
    · exact absurd fits first.lacks
    · exact List.mem_singleton.1 last
  subst which
  exact ⟨_, run, rfl, alone⟩

end Build

end ControlHierarchy
