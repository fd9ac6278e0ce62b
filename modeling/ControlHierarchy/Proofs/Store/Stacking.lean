import ControlHierarchy.Proofs.Constraint.Merging
import ControlHierarchy.Proofs.Store.Assembling
import ControlHierarchy.Store.Stacking

/-!
# What is left of a bound that cannot be added

A bound is listed first and merged with the others second. When it is refused
for its size nothing has happened. When the merge is refused the bound stays
listed, although the aggregate of the bounds is still the old one
(`addBound_failure_iff`), and from then on no bound can be added as long as the
arrays of the listed one do not fit (`addBound_blocked`).
-/

namespace ControlHierarchy

variable {α : Type}

namespace Store

/-- The size and the list let a bound be listed. -/
structure CanList (s : Store α) (id : Nat) (o : Object) : Prop where
  size : s.objectSize o = .ok (s.stackCells.read id).size
  extensible : s.arrayIn? (.stack id) (.backing .bounds) = none

/-- The store after a bound is listed. -/
def withBound (s : Store α) (id : Nat) (o : Object) : Store α :=
  let stack := s.stackCells.read id
  { s with stackCells := s.stackCells.write id { stack with bounds := stack.bounds ++ [o] } }

/-- The store after a stack has got an aggregate of some constraints. -/
def withMerged (s : Store α) (id : Nat) (parts : List ConstraintRef) (d : MergedConstraint α) :
    Store α :=
  { s with
    mergedConstraints := s.mergedConstraints.write s.mergedConstraints.next d
    stackCells := s.stackCells.write id { s.stackCells.read id with
      merged := some (.merged s.mergedConstraints.next parts) }
    notes := s.notes.erase (.stack id) (.backing .mergedBounds) }.withLog [.stackBounds d.name]

end Store

namespace Build

variable {s t : Store α} {id : Nat} {o : Object} {e : Error}

theorem exec_checkExtensible (owner : Object) (field : Field) :
    (checkExtensible owner field).exec s =
      (if (s.arrayIn? owner field).isSome then .error (.fault .noMember) else .ok (), s) := by
  unfold checkExtensible
  rw [exec_bind_ok exec_get]
  split <;> rfl

theorem exec_listBound (h : s.CanList id o) :
    (listBound id o).exec s = (.ok (), s.withBound id o) := by
  have room := exec_checkExtensible (s := s) (.stack id) (.backing .bounds)
  rw [h.extensible] at room
  unfold listBound
  rw [exec_bind_ok exec_get, exec_lift_ok h.size, if_neg (not_not.2 rfl), exec_bind_ok room]
  rfl

theorem exec_listBound_refused (h : ¬s.CanList id o) :
    ∃ e, (listBound id o).exec s = (.error e, s) := by
  unfold listBound
  rw [exec_bind_ok exec_get]
  cases size : s.objectSize o with
  | error e => exact ⟨e, rfl⟩
  | ok actual =>
    rw [exec_lift_ok rfl]
    by_cases same : actual = (s.stackCells.read id).size
    · rw [if_neg (not_not.2 same), exec_bind, exec_checkExtensible]
      cases array : s.arrayIn? (.stack id) (.backing .bounds) with
      | none => exact absurd ⟨same ▸ size, array⟩ h
      | some t => exact ⟨_, rfl⟩
    · rw [if_pos same]
      cases s.nameAsConstraint o with
      | error e => exact ⟨e, rfl⟩
      | ok name => exact ⟨_, rfl⟩

variable [Zero α] [Neg α] [BoundScalar α]

/-- The bounds of a stack are merged when all of them are constraints that can be merged. -/
theorem mergeBounds_eq_ok : (mergeBounds id).exec s = (.ok (), t) ↔ ∃ parts d u,
    (s.stackCells.read id).bounds = parts.map Object.constraint ∧
    (mergedConstraint parts (s.stackCells.read id).size
      (.integer (s.stackCells.read id).policy)).exec s = (.ok d, u) ∧
      t = u.withMerged id parts d := by
  have name (u : Store α) (i : Nat) (d : MergedConstraint α) :
      ((u.mergedConstraints.write i d).read i).name = d.name :=
    congrArg MergedConstraint.name (Cells.read_write_self _ _ _)
  unfold mergeBounds
  rw [exec_bind_ok exec_get]
  constructor
  · intro run
    obtain ⟨parts, _, found, run⟩ := exec_bind_eq_ok.1 run
    obtain ⟨listed, rfl⟩ := exec_objectsToMerge found
    obtain ⟨c, v, merged, run⟩ := exec_bind_eq_ok.1 run
    obtain ⟨d, u, made, stored⟩ := exec_bind_eq_ok.1 merged
    cases stored
    cases run
    refine ⟨parts, d, u, listed, made, ?_⟩
    rw [Store.withMerged, ← name u u.mergedConstraints.next d]
    rfl
  · rintro ⟨parts, d, u, listed, made, rfl⟩
    have found := exec_objectsToMerge_map s parts (.integer (s.stackCells.read id).policy)
    rw [← listed] at found
    have merged : (mergeConstraints parts (s.stackCells.read id).size
        (.integer (s.stackCells.read id).policy)).exec s =
        (.ok (.merged u.mergedConstraints.next parts), { u with
          mergedConstraints := u.mergedConstraints.write u.mergedConstraints.next d }) :=
      (exec_bind_ok made).trans rfl
    rw [exec_bind_ok found, exec_bind_ok merged, Store.withMerged,
      ← name u u.mergedConstraints.next d]
    rfl

/-- A failed merge of the bounds changes nothing but the journal. -/
theorem mergeBounds_failure (run : (mergeBounds id).exec s = (.error e, t)) :
    ∃ events, t = s.withLog events := by
  unfold mergeBounds at run
  rw [exec_bind_ok exec_get] at run
  rcases exec_bind_eq_error.1 run with failed | ⟨parts, s₁, found, run⟩
  · exact (onlyLogs_objectsToMerge _ _).of_exec failed
  obtain ⟨events, rfl⟩ := (onlyLogs_objectsToMerge _ _).of_exec found
  rcases exec_bind_eq_error.1 run with failed | ⟨merged, s₂, -, stored⟩
  · rcases exec_bind_eq_error.1 failed with failed | ⟨c, s₂, -, stored⟩
    · obtain ⟨more, rfl⟩ := (onlyLogs_mergedConstraint _ _ _).of_exec failed
      exact ⟨events ++ more, Store.withLog_withLog s events more⟩
    · cases stored
  · cases stored

/-- A bound that cannot be added leaves the store as it was just when it could
not be listed. Otherwise it stays listed, while everything else in the store
stays as it was. -/
theorem addBound_failure_iff (run : (addBound id o).exec s = (.error e, t)) :
    (t = s ↔ ¬s.CanList id o) ∧
    (s.CanList id o → ∃ events, t = (s.withBound id o).withLog events) := by
  by_cases listed : s.CanList id o
  · have stays : ∃ events, t = (s.withBound id o).withLog events := by
      unfold addBound at run
      rw [exec_bind_ok (exec_listBound listed)] at run
      exact mergeBounds_failure run
    -- the list of bounds grew, and no journal makes up for that
    refine ⟨⟨fun same => ?_, fun refused => absurd listed refused⟩, fun _ => stays⟩
    obtain ⟨events, rfl⟩ := stays
    have longer := congrArg (fun s => (s.stackCells.read id).bounds.length) same
    simp [Store.withLog, Store.withBound, Cells.read_write_self] at longer
  · obtain ⟨e', refused⟩ := exec_listBound_refused listed
    unfold addBound at run
    rw [exec_bind, refused] at run
    cases run
    exact ⟨⟨fun _ => listed, fun _ => rfl⟩, fun h => absurd h listed⟩

/-- A listed bound whose arrays do not fit keeps all further bounds away. -/
theorem addBound_blocked {c : ConstraintRef}
    (listed : .constraint c ∈ (s.stackCells.read id).bounds)
    (misfit : ∀ n : Nat, (s.stackCells.read id).size = n → ¬(s.constraintSystem c).Fits n) :
    (addBound id o).exec s ≠ (.ok (), t) := by
  intro run
  obtain ⟨_, s₁, first, run⟩ := exec_bind_eq_ok.1 run
  by_cases can : s.CanList id o
  · rw [exec_listBound can] at first
    cases first
    obtain ⟨parts, d, u, objects, made, -⟩ := mergeBounds_eq_ok.1 run
    obtain ⟨p, name, -, merge⟩ := exec_mergedConstraint made
    obtain ⟨n, size, fits, -⟩ := LinearSystem.presents_of_merge merge
    simp only [Store.withBound, Cells.read_write_self] at objects size
    have member : c ∈ parts := by
      have among : Object.constraint c ∈ parts.map Object.constraint :=
        objects ▸ List.mem_append_left _ listed
      obtain ⟨c', hc, same⟩ := List.mem_map.1 among
      cases same
      exact hc
    have fit := fits _ (List.mem_map_of_mem member)
    cases c with
    | leaf i => exact misfit n size fit
    | merged i parts => exact misfit n size fit
  · obtain ⟨e, refused⟩ := exec_listBound_refused can
    rw [refused] at first
    cases first

/-! ### A box of the wrong length -/

/-- A stack over two variables, and a constraint whose box has three entries a side. -/
def longBox : Store Float :=
  let box : LinearSystem Float :=
    ⟨.vector [0, 0, 0], .vector [1, 1, 1], .matrix (.empty 2), .vector [], .matrix (.empty 2),
      .vector [], .vector []⟩
  { (Store.empty : Store Float) with
    leafConstraints :=
      ⟨⟨"", 0, Store.blankSystem, .unvalidated, []⟩, #[⟨"long", 2, box, .unvalidated, []⟩]⟩
    stackCells := ⟨⟨0, 0, [], [], none⟩, #[⟨2, Policy.standard.word, [], [], none⟩]⟩ }

/-- The call fails and the bound stays. -/
theorem longBox_stays :
    ∃ e t, (addBound 0 (.constraint (.leaf 0))).exec longBox = (.error e, t) ∧
    (t.stackCells.read 0).bounds.length = 1 := by
  refine ⟨.partBox "long" 2 [3] [3], _, rfl, ?_⟩
  have can : longBox.CanList 0 (.constraint (.leaf 0)) := ⟨rfl, rfl⟩
  obtain ⟨events, same⟩ := (addBound_failure_iff (e := .partBox "long" 2 [3] [3]) rfl).2 can
  rw [same]
  rfl

end Build

end ControlHierarchy
