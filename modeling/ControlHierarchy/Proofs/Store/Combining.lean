import ControlHierarchy.Proofs.Constraint.Presented
import ControlHierarchy.Proofs.Store.Assembling

/-!
# Which constraints can be combined

A merge in the store looks at more than arrays: it must not get stuck at a part
that something was assigned to, and the aggregate has to be able to check the
result (`Store.remerged_eq_ok`). Whether constraints can be combined at all does
not depend on the policy (`mergedConstraint_succeeds_iff`), only what they are
combined to does (`presents_of_mergedConstraint`).
-/

namespace ControlHierarchy

variable {α : Type} {s t : Store α} {parts : List ConstraintRef}

namespace Store

variable {lost : Operation → Bool}

theorem checkFaces_eq_ok [Zero α] [Neg α] [BoundScalar α] {policy : Policy} {size : Int} :
    s.checkFaces lost policy size parts = .ok () ↔ ∀ c ∈ parts, s.stuckAt? lost c = none := by
  unfold checkFaces
  rw [List.span_eq_takeWhile_dropWhile]
  cases rest : parts.dropWhile fun c => (s.stuckAt? lost c).isNone with
  | nil =>
    refine iff_of_true rfl fun c hc => ?_
    exact Option.isNone_iff_eq_none.1 (List.dropWhile_eq_nil_iff.1 rest c hc)
  | cons culprit more =>
    have stuck : (s.stuckAt? lost culprit).isSome := by
      have first := List.head?_dropWhile_not (fun c => (s.stuckAt? lost c).isNone) parts
      rw [rest] at first
      simpa using first
    have member : culprit ∈ parts := (List.dropWhile_sublist _).subset (rest ▸ List.mem_cons_self)
    refine iff_of_false (fun h => ?_) fun h => ?_
    · -- the merge comes to an end at the culprit, whatever it is stuck at
      obtain ⟨merged, -, h⟩ := bind_eq_ok.1 h
      split at h
      · obtain ⟨_, -, h⟩ := bind_eq_ok.1 h
        cases h
      · obtain ⟨_, -, h⟩ := bind_eq_ok.1 h
        obtain ⟨_, -, h⟩ := bind_eq_ok.1 h
        cases h
      · cases h
    · rw [h culprit member] at stuck
      cases stuck

/-- A merge in the store succeeds just when it does not get stuck at a part, the
aggregate can check the result, and merging the parts as they are succeeds. -/
theorem remerged_eq_ok [Zero α] [Neg α] [BoundScalar α] {c d : MergedConstraint α} :
    s.remerged lost c parts = .ok d ↔
      (∀ p ∈ parts, s.stuckAt? lost p = none) ∧ lost .checkMerged = false ∧
        c.regenerate (parts.map s.part) = .ok d := by
  unfold remerged
  rw [then_eq_ok, checkFaces_eq_ok]
  refine and_congr_right fun _ => ?_
  cases checked : lost .checkMerged with
  | true =>
    refine iff_of_false (fun h => ?_) fun h => Bool.false_ne_true h.1.symm
    obtain ⟨_, -, h⟩ := bind_eq_ok.1 h
    cases h
  | false => exact (and_iff_right rfl).symm

/-- A constraint can be a part of an aggregate over `n` variables. -/
structure CanJoin (s : Store α) (n : Int) (c : ConstraintRef) : Prop where
  size : s.constraintSize c = n
  askable : s.stuckAt? (fun _ => false) c = none
  fits : (s.constraintSystem c).Fits n.toNat

/-- Constraints can be combined to an aggregate over `n` variables. -/
structure Combinable (s : Store α) (n : Int) (parts : List ConstraintRef) : Prop where
  nonempty : parts ≠ []
  room : ∃ blank : LinearSystem α, LinearSystem.free n = .ok blank
  join : ∀ c ∈ parts, s.CanJoin n c

theorem stuckAt?_congr {c : ConstraintRef}
    (mute : t.isReplaced (.constraint c) = s.isReplaced (.constraint c))
    (system : t.constraintSystem c = s.constraintSystem c) :
    t.stuckAt? lost c = s.stuckAt? lost c := by
  unfold stuckAt?
  rw [mute, system]

theorem isReplaced_congr (notes : t.notes = s.notes) (o : Object) :
    t.isReplaced o = s.isReplaced o := by
  funext operation
  rw [isReplaced, isReplaced, notes]

/-- Whether a constraint can be a part depends on what is noted and on its own cell. -/
theorem CanJoin.congr {n : Int} {c : ConstraintRef} (h : s.CanJoin n c) (notes : t.notes = s.notes)
    (size : t.constraintSize c = s.constraintSize c)
    (system : t.constraintSystem c = s.constraintSystem c) : t.CanJoin n c where
  size := size.trans h.size
  askable := (stuckAt?_congr (isReplaced_congr notes _) system).trans h.askable
  fits := system ▸ h.fits

/-- A constraint to which nothing was assigned can be asked for its faces. -/
theorem stuckAt?_of_intact {c : ConstraintRef}
    (h : ∀ operation, s.isReplaced (.constraint c) operation = false) :
    s.stuckAt? (fun _ => false) c = none := by
  simp [stuckAt?, h]

end Store

namespace Build

variable {n : Int} {p : Policy} {c : MergedConstraint α}

theorem prepareConstraint_succeeds {blank : LinearSystem α} (nonempty : parts ≠ [])
    (room : LinearSystem.free n = .ok blank) (sizes : ∀ c ∈ parts, s.constraintSize c = n) :
    ∃ name events, (prepareConstraint parts n (.integer p.word)).exec s =
    (.ok ⟨name, n, blank, p.word⟩, s.withLog events) := by
  obtain ⟨k, rfl, -⟩ := LinearSystem.presents_free room
  have fresh : ∀ name, LinearSystem.blank (α := α) name k = .ok blank := fun name => by
    rw [LinearSystem.blank, if_neg (Int.natCast_nonneg k).not_gt, room]
  have fit : ∀ name, checkSizes name k (s.constraintSizes parts) = .ok () := fun name => by
    rw [Store.checkSizes_eq_ok, Store.constraintSizes, List.forall_mem_map]
    exact sizes
  unfold prepareConstraint
  rw [exec_bind_ok exec_get, if_neg (by simpa using nonempty),
    exec_lift_ok (Policy.validate_word p), exec_lift_ok (fresh _), exec_lift_ok (fit _)]
  exact ⟨_, _, rfl⟩

theorem sizes_of_prepareConstraint {policy : Literal}
    (run : (prepareConstraint parts n policy).exec s = (.ok c, t)) :
    parts ≠ [] ∧ ∀ c ∈ parts, s.constraintSize c = n := by
  unfold prepareConstraint at run
  rw [exec_bind_ok exec_get] at run
  have nonempty : parts ≠ [] := by
    rintro rfl
    cases run
  rw [if_neg (by simpa using nonempty)] at run
  obtain ⟨p, -, run⟩ := exec_lift_bind_eq_ok.1 run
  obtain ⟨system, -, run⟩ := exec_lift_bind_eq_ok.1 run
  obtain ⟨_, checked, -⟩ := exec_lift_bind_eq_ok.1 run
  rw [Store.checkSizes_eq_ok, Store.constraintSizes, List.forall_mem_map] at checked
  exact ⟨nonempty, checked⟩

theorem name_of_prepareConstraint {policy : Literal}
    (run : (prepareConstraint parts n policy).exec s = (.ok c, t)) :
    c.name = joinNames (parts.map s.constraintName) := by
  unfold prepareConstraint at run
  rw [exec_bind_ok exec_get] at run
  split at run
  · cases run
  · obtain ⟨p, -, run⟩ := exec_lift_bind_eq_ok.1 run
    obtain ⟨system, -, run⟩ := exec_lift_bind_eq_ok.1 run
    obtain ⟨_, -, run⟩ := exec_lift_bind_eq_ok.1 run
    cases run
    rfl

variable [Zero α] [Neg α] [BoundScalar α]

/-- What constraints are combined to depends on what is read of them. -/
theorem eq_of_mergedConstraint
    (run : (mergedConstraint parts n (.integer p.word)).exec s = (.ok c, t)) :
    LinearSystem.merge p (joinNames (parts.map s.constraintName)) n (parts.map s.part) =
        .ok c.system ∧
      c = ⟨joinNames (parts.map s.constraintName), n, c.system, p.word⟩ := by
  obtain ⟨blank, s₁, prepared, made⟩ := exec_bind_eq_ok.1 run
  have name := name_of_prepareConstraint prepared
  obtain ⟨⟨p', valid, word⟩, size, events, rfl⟩ := exec_prepareConstraint prepared
  cases (Policy.validate_word p).symm.trans valid
  rw [exec_bind_ok exec_get, exec_lift] at made
  obtain ⟨-, -, merged⟩ := Store.remerged_eq_ok.1 (Prod.mk.inj made).1
  obtain ⟨system, merge, rfl⟩ := MergedConstraint.regenerate_eq_ok.1 merged
  rw [word, Policy.ofWord_word, name, size] at merge
  exact ⟨merge, by rw [← name, ← size, ← word]⟩

theorem size_of_mergedConstraint {policy : Literal}
    (run : (mergedConstraint parts n policy).exec s = (.ok c, t)) : c.size = n := by
  obtain ⟨blank, s₁, prepared, made⟩ := exec_bind_eq_ok.1 run
  obtain ⟨-, rfl, -⟩ := exec_prepareConstraint prepared
  rw [exec_bind_ok exec_get, exec_lift] at made
  obtain ⟨-, -, merged⟩ := Store.remerged_eq_ok.1 (Prod.mk.inj made).1
  obtain ⟨system, -, rfl⟩ := MergedConstraint.regenerate_eq_ok.1 merged
  rfl

/-- What constraints are combined to presents what they say, in the form of the policy. -/
theorem presents_of_mergedConstraint
    (run : (mergedConstraint parts n (.integer p.word)).exec s = (.ok c, t)) :
    ∃ k : Nat, n = k ∧
      c.system.Presents k (Faces.merge p (parts.map fun c => (s.constraintSystem c).faces)) := by
  obtain ⟨p', name, valid, merge⟩ := exec_mergedConstraint run
  cases (Policy.validate_word p).symm.trans valid
  obtain ⟨k, count, -, presents⟩ := LinearSystem.presents_of_merge merge
  rw [List.map_map] at presents
  exact ⟨k, count, presents⟩

/-- Constraints can be combined under any policy or under none. -/
theorem mergedConstraint_succeeds_iff :
    (∃ c t, (mergedConstraint parts n (.integer p.word)).exec s = (.ok c, t)) ↔
      s.Combinable n parts := by
  constructor
  · rintro ⟨c, t, run⟩
    obtain ⟨blank, s₁, prepared, made⟩ := exec_bind_eq_ok.1 run
    obtain ⟨nonempty, sizes⟩ := sizes_of_prepareConstraint prepared
    obtain ⟨-, -, events, rfl⟩ := exec_prepareConstraint prepared
    rw [exec_bind_ok exec_get, exec_lift] at made
    obtain ⟨askable, -, -⟩ := Store.remerged_eq_ok.1 (Prod.mk.inj made).1
    obtain ⟨p', name, -, merge⟩ := exec_mergedConstraint run
    obtain ⟨k, rfl, room, fits, -⟩ := LinearSystem.merge_eq_ok_iff.1 merge
    exact ⟨nonempty, room,
      fun c hc => ⟨sizes c hc, askable c hc, fits _ (List.mem_map_of_mem hc)⟩⟩
  · rintro ⟨nonempty, ⟨blank, room⟩, join⟩
    obtain ⟨name, events, prepared⟩ :=
      prepareConstraint_succeeds (p := p) nonempty room fun c hc => (join c hc).size
    obtain ⟨k, rfl, -⟩ := LinearSystem.presents_free room
    have partsFit : ∀ q ∈ parts.map s.part, q.system.Fits k := by
      intro q hq
      obtain ⟨c, hc, rfl⟩ := List.mem_map.1 hq
      exact (join c hc).fits
    obtain ⟨system, merged, -⟩ := LinearSystem.merge_ok p name room partsFit
    rw [← Policy.ofWord_word p] at merged
    have made : s.remerged (fun _ => false) ⟨name, k, blank, p.word⟩ parts =
        .ok ⟨name, k, system, p.word⟩ :=
      Store.remerged_eq_ok.2 ⟨fun c hc => (join c hc).askable, rfl,
        MergedConstraint.regenerate_eq_ok.2 ⟨system, merged, rfl⟩⟩
    unfold mergedConstraint
    rw [exec_bind_ok prepared, exec_bind_ok exec_get, exec_lift]
    exact ⟨_, _, congrArg (·, s.withLog events) made⟩

end Build

end ControlHierarchy
