import ControlHierarchy.Proofs.Store.Notes
import ControlHierarchy.Proofs.Update.Current

/-!
# Stores that grow

To add tasks or to compose stacks stores new objects, and leaves those that are
there alone: one store extends another when every object of the latter is as it
was (`Store.Extends`). What depends on such objects only is the same in both.
-/

namespace ControlHierarchy

variable {α β γ : Type}

/-- All cells that were written are as they were. -/
structure Cells.Extends (c d : Cells β) : Prop where
  next : c.next ≤ d.next
  read : ∀ i < c.next, d.read i = c.read i

namespace Cells.Extends

variable {c d e : Cells β}

theorem refl (c : Cells β) : c.Extends c := ⟨le_rfl, fun _ _ => rfl⟩

theorem trans (h : c.Extends d) (h' : d.Extends e) : c.Extends e where
  next := h.next.trans h'.next
  read i old := (h'.read i (old.trans_le h.next)).trans (h.read i old)

/-- The same may be written to the same cell of both. -/
theorem write_write (h : c.Extends d) {i : Nat} (room : i ≤ c.next) (v : β) :
    (c.write i v).Extends (d.write i v) where
  next := by
    rw [next_write, next_write]
    exact max_le_max_right _ h.next
  read j old := by
    rw [next_write] at old
    rw [read_write, read_write]
    split
    · rfl
    · exact h.read j (by omega)

/-- Cells beyond the old ones may be written. -/
theorem write (h : c.Extends d) {i : Nat} (new : c.next ≤ i) (v : β) : c.Extends (d.write i v) where
  next := h.next.trans (next_le_next_write _ _ _)
  read j old := (read_write_of_ne _ _ (old.trans_le new).ne).trans (h.read j old)

end Cells.Extends

/-- Every object of a store is in another one, as it was. Notes on other objects may be
dropped. -/
structure Store.Extends (s t : Store α) : Prop where
  mergedConstraints : s.mergedConstraints.Extends t.mergedConstraints
  mergedTasks : s.mergedTasks.Extends t.mergedTasks
  stackCells : s.stackCells.Extends t.stackCells
  leafConstraints : t.leafConstraints = s.leafConstraints
  leafTasks : t.leafTasks = s.leafTasks
  arrays : t.arrays = s.arrays
  values : t.values = s.values
  notes : ∀ o field, t.notes.read? o field = s.notes.read? o field ∨
    ¬s.Has o ∧ t.notes.read? o field = none

namespace Store.Extends

variable {s t u : Store α} {o : Object}

theorem refl (s : Store α) : s.Extends s :=
  ⟨.refl _, .refl _, .refl _, rfl, rfl, rfl, rfl, fun _ _ => .inl rfl⟩

theorem withLog (h : s.Extends t) (events : List Event) : s.Extends (t.withLog events) :=
  ⟨h.mergedConstraints, h.mergedTasks, h.stackCells, h.leafConstraints, h.leafTasks, h.arrays,
    h.values, h.notes⟩

theorem writeMergedConstraint (h : s.Extends t) {i : Nat} (new : s.mergedConstraints.next ≤ i)
    (c : MergedConstraint α) :
    s.Extends { t with mergedConstraints := t.mergedConstraints.write i c } :=
  ⟨h.mergedConstraints.write new c, h.mergedTasks, h.stackCells, h.leafConstraints, h.leafTasks,
    h.arrays, h.values, h.notes⟩

theorem writeMergedTask (h : s.Extends t) {i : Nat} (new : s.mergedTasks.next ≤ i)
    (d : MergedTask α) : s.Extends { t with mergedTasks := t.mergedTasks.write i d } :=
  ⟨h.mergedConstraints, h.mergedTasks.write new d, h.stackCells, h.leafConstraints, h.leafTasks,
    h.arrays, h.values, h.notes⟩

theorem writeStack (h : s.Extends t) {i : Nat} (new : s.stackCells.next ≤ i) (stack : Stack) :
    s.Extends { t with stackCells := t.stackCells.write i stack } :=
  ⟨h.mergedConstraints, h.mergedTasks, h.stackCells.write new stack, h.leafConstraints,
    h.leafTasks, h.arrays, h.values, h.notes⟩

/-- No object is lost. -/
theorem has (h : s.Extends t) (exist : s.Has o) : t.Has o :=
  exist.mono (h.leafConstraints ▸ le_rfl) h.mergedConstraints.next (h.leafTasks ▸ le_rfl)
    h.mergedTasks.next h.stackCells.next

theorem trans (h : s.Extends t) (h' : t.Extends u) : s.Extends u where
  mergedConstraints := h.mergedConstraints.trans h'.mergedConstraints
  mergedTasks := h.mergedTasks.trans h'.mergedTasks
  stackCells := h.stackCells.trans h'.stackCells
  leafConstraints := h'.leafConstraints.trans h.leafConstraints
  leafTasks := h'.leafTasks.trans h.leafTasks
  arrays := h'.arrays.trans h.arrays
  values := h'.values.trans h.values
  notes o field := by
    rcases h'.notes o field with same | ⟨new, gone⟩
    · rw [same]
      exact h.notes o field
    · exact .inr ⟨fun exist => new (h.has exist), gone⟩

theorem sameCell (h : s.Extends t) (exist : s.Has o) : s.SameCell t o := by
  unfold SameCell
  split
  · rw [h.leafConstraints]
  · exact h.mergedConstraints.read _ exist
  · rw [h.leafTasks]
  · exact h.mergedTasks.read _ exist
  · trivial

theorem taskBody (h : s.Extends t) {r : TaskRef} (exist : s.Has (.task r)) :
    t.taskBody r = s.taskBody r :=
  (h.sameCell exist).sameAsPart

theorem attachedTo (h : s.Extends t) (exist : s.Has o) : t.attachedTo o = s.attachedTo o := by
  unfold Store.attachedTo
  split
  · rw [h.leafTasks]
  · rw [h.mergedTasks.read _ exist]
  · rw [h.stackCells.read _ exist]
  · rfl

/-- Notes on an object are not dropped. -/
theorem read?_notes (h : s.Extends t) (exist : s.Has o) (field : Field) :
    t.notes.read? o field = s.notes.read? o field :=
  (h.notes o field).resolve_right fun dropped => dropped.1 exist

theorem plain? (h : s.Extends t) : t.plain? = s.plain? := by
  funext o
  cases o with
  | value i => exact congrArg (fun values => some (values.read i)) h.values
  | _ => rfl

theorem arrayIn? (h : s.Extends t) (exist : s.Has o) (field : Field) :
    t.arrayIn? o field = s.arrayIn? o field := by
  rw [Store.arrayIn?, Store.arrayIn?, cellIn?, cellIn?, h.read?_notes exist, h.plain?, h.arrays]

theorem attached (h : s.Extends t) {r : TaskRef} (exist : s.Has (.task r)) :
    t.attached r = s.attached r := by
  rw [Store.attached, Store.attached, walk, walk, h.arrayIn? exist, h.taskBody exist]

/-- An operation of an object is not replaced, and no replacement is taken back. -/
theorem isReplaced (h : s.Extends t) (exist : s.Has o) : t.isReplaced o = s.isReplaced o := by
  funext operation
  rw [Store.isReplaced, Store.isReplaced, h.read?_notes exist]

/-- No array takes the place of a list. -/
theorem arrayIn?_eq_none (h : s.Extends t) {field : Field} (list : s.arrayIn? o field = none) :
    t.arrayIn? o field = none := by
  rcases h.notes o field with same | ⟨-, gone⟩
  · rw [Store.arrayIn?, cellIn?, same, h.plain?, h.arrays]
    exact list
  · rw [Store.arrayIn?, cellIn?, gone]
    rfl

theorem objectSize (h : s.Extends t) (exist : s.Has o) : t.objectSize o = s.objectSize o := by
  cases o with
  | constraint c =>
    cases c with
    | leaf i => rw [Store.objectSize, Store.objectSize, constraintSize, constraintSize,
        h.leafConstraints]
    | merged i parts => rw [Store.objectSize, Store.objectSize, constraintSize, constraintSize,
        h.mergedConstraints.read i exist]
  | task r => rw [Store.objectSize, Store.objectSize, h.taskBody exist]
  | stack i => rw [Store.objectSize, Store.objectSize, h.stackCells.read i exist]
  | _ => simp only [Store.objectSize, h.read?_notes exist, h.plain?]

/-- Notes on an object that is new may be dropped. -/
theorem eraseNote (h : s.Extends t) {id : Nat} (new : s.stackCells.next ≤ id) (field : Field) :
    s.Extends { t with notes := t.notes.erase (.stack id) field } :=
  { h with
    notes := fun o field' => by
      by_cases here : (Object.stack id).same o ∧ field = field'
      · obtain ⟨same, rfl⟩ := here
        cases Object.eq_of_same_stack (Object.same_symm same)
        exact .inr ⟨Nat.not_lt.2 new, Notes.read?_erase_self _ _ _⟩
      · rw [Notes.read?_erase_of_not_same _ here]
        exact h.notes o field' }

end Store.Extends

/-- No array took the place of a list of an object that is not there yet. -/
def Store.Fresh (s : Store α) : Prop :=
  ∀ o, ¬s.Has o → ∀ kept, s.arrayIn? o (.backing kept) = none

theorem Store.Fresh.extends {s t : Store α} (h : s.Fresh) (extension : s.Extends t) : t.Fresh :=
  fun o new kept => extension.arrayIn?_eq_none (h o (fun exist => new (extension.has exist)) kept)

namespace Build

/-- An action leaves alone what there is, whatever its outcome. -/
def Extending (action : Build α β) : Prop := ∀ s : Store α, s.Extends (action.exec s).2

theorem Extending.of_exec {action : Build α β} {r : Except Error β} {s t : Store α}
    (h : Extending action) (run : action.exec s = (r, t)) : s.Extends t := by
  have kept := h s
  rwa [run] at kept

theorem extending_of_onlyLogs {action : Build α β} (logs : OnlyLogs action) :
    Extending action := by
  intro s
  obtain ⟨events, rest⟩ := logs s
  rw [rest]
  exact .withLog (.refl s) events

theorem extending_bind {x : Build α β} {f : β → Build α γ} (first : Extending x)
    (second : ∀ b, Extending (f b)) : Extending (x >>= f) := by
  intro s
  rw [exec_bind]
  rcases run : x.exec s with ⟨_ | b, t⟩
  · exact first.of_exec run
  · exact (first.of_exec run).trans (second b t)

theorem extending_newMergedConstraint (parts : List ConstraintRef) (c : MergedConstraint α) :
    Extending (newMergedConstraint parts c) :=
  fun s => .writeMergedConstraint (.refl s) le_rfl c

theorem extending_newMergedTask (parts : List TaskRef) (d : MergedTask α) :
    Extending (newMergedTask parts d) :=
  fun s => .writeMergedTask (.refl s) le_rfl d

end Build

end ControlHierarchy
