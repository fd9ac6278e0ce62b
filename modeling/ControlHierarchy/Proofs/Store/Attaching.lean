import ControlHierarchy.Proofs.Store.Stacking

/-!
# What is left of an attached object

An object that is attached to a task comes after what is attached already, and
nothing but tasks changes. So objects that are attached one after another come in
this order, and all of them have the size of the task (`exec_attachEach`).
-/

namespace ControlHierarchy

variable {α : Type} {s s' : Store α} {t : TaskRef} {o : Object}

/-- A task with more attached to it. -/
def TaskBody.withAttached (os : List Object) (t : TaskBody α) : TaskBody α :=
  { t with constraints := t.constraints ++ os }

theorem TaskBody.withAttached_withAttached (os more : List Object) (t : TaskBody α) :
    (t.withAttached os).withAttached more = t.withAttached (os ++ more) := by
  rw [withAttached, withAttached, withAttached, List.append_assoc]

theorem TaskBody.attach_eq_ok {t body : TaskBody α} {name : Except Error String} {size : Int} :
    t.attach o name size = .ok body ↔ size = t.size ∧ body = t.withAttached [o] := by
  unfold attach
  by_cases same : size = t.size
  · rw [if_neg (not_not.2 same), pure_eq_ok, eq_comm]
    exact (and_iff_right same).symm
  · rw [if_pos same]
    refine iff_of_false (fun h => ?_) fun h => same h.1
    obtain ⟨_, -, h⟩ := bind_eq_ok.1 h
    cases h

namespace Store

/-- Nothing but tasks differs. -/
def OnlyTasks (s s' : Store α) : Prop :=
  ∃ leaves aggregates, s' = { s with leafTasks := leaves, mergedTasks := aggregates }

theorem OnlyTasks.refl (s : Store α) : s.OnlyTasks s := ⟨_, _, rfl⟩

theorem OnlyTasks.trans {s₁ s₂ s₃ : Store α} (h : s₁.OnlyTasks s₂) (h' : s₂.OnlyTasks s₃) :
    s₁.OnlyTasks s₃ := by
  obtain ⟨_, _, rfl⟩ := h
  obtain ⟨leaves, aggregates, rfl⟩ := h'
  exact ⟨leaves, aggregates, rfl⟩

/-- The store after an object is attached to a task. -/
def withAttached (s : Store α) (t : TaskRef) (o : Object) : Store α :=
  match t with
  | .leaf i =>
    let leaf := s.leafTasks.read i
    { s with leafTasks := s.leafTasks.write i { leaf with body := leaf.body.withAttached [o] } }
  | .merged i _ =>
    { s with mergedTasks := s.mergedTasks.write i ((s.mergedTasks.read i).attachAll [o]) }

theorem taskBody_withAttached (s : Store α) (t : TaskRef) (o : Object) :
    (s.withAttached t o).taskBody t = (s.taskBody t).withAttached [o] := by
  cases t with
  | leaf i => exact congrArg LeafTask.body (Cells.read_write_self _ _ _)
  | merged i parts => exact congrArg MergedTask.body (Cells.read_write_self _ _ _)

theorem onlyTasks_withAttached (s : Store α) (t : TaskRef) (o : Object) :
    s.OnlyTasks (s.withAttached t o) := by
  cases t with
  | leaf i => exact ⟨_, _, rfl⟩
  | merged i parts => exact ⟨_, _, rfl⟩

end Store

namespace Build

open Store (OnlyTasks)

/-- What a successful call leaves behind. -/
theorem exec_attach (run : (attach t o).exec s = (.ok (), s')) :
    s.objectSize o = .ok (s.taskBody t).size ∧ s.arrayIn? (.task t) .constraints = none ∧
      s' = s.withAttached t o := by
  unfold attach at run
  rw [exec_bind_ok exec_get] at run
  obtain ⟨_, -, run⟩ := exec_lift_bind_eq_ok.1 run
  obtain ⟨size, asked, run⟩ := exec_lift_bind_eq_ok.1 run
  obtain ⟨body, attached, run⟩ := exec_lift_bind_eq_ok.1 run
  obtain ⟨rfl, rfl⟩ := TaskBody.attach_eq_ok.1 attached
  obtain ⟨_, s₁, room, run⟩ := exec_bind_eq_ok.1 run
  rw [exec_checkExtensible] at room
  obtain ⟨room, same⟩ := Prod.mk.inj room
  subst same
  have list : s.arrayIn? (.task t) .constraints = none := by
    rw [← Option.not_isSome_iff_eq_none]
    intro array
    rw [if_pos array] at room
    cases room
  refine ⟨asked, list, ?_⟩
  obtain ⟨_, s₂, stored, run⟩ := exec_bind_eq_ok.1 run
  cases stored
  cases t with
  | leaf i =>
    cases run
    rfl
  | merged i parts =>
    obtain ⟨_, s₂, room, run⟩ := exec_bind_eq_ok.1 run
    rw [exec_checkExtensible] at room
    obtain ⟨-, same⟩ := Prod.mk.inj room
    subst same
    obtain ⟨merged, own, run⟩ := exec_lift_bind_eq_ok.1 run
    obtain rfl := Except.ok.inj ((MergedTask.attach_eq_ok o _).symm.trans own)
    cases run
    rfl

/-- A failed call leaves everything as it was. Only an aggregate that lost its own list may
have the object among what is attached to it, but not among its own. -/
theorem of_attach_error {e : Error} (run : (attach t o).exec s = (.error e, s')) :
    s' = s ∨ s.arrayIn? (.task t) (.backing .ownConstraints) ≠ none ∧
      ∃ i parts, t = .merged i parts ∧
        s' = s.setTaskBody t ((s.taskBody t).withAttached [o]) := by
  unfold attach at run
  rw [exec_bind_ok exec_get] at run
  obtain ⟨-, same⟩ | ⟨_, -, run⟩ := exec_lift_bind_eq_error.1 run
  · exact .inl same
  obtain ⟨-, same⟩ | ⟨size, -, run⟩ := exec_lift_bind_eq_error.1 run
  · exact .inl same
  obtain ⟨-, same⟩ | ⟨body, attached, run⟩ := exec_lift_bind_eq_error.1 run
  · exact .inl same
  rw [exec_bind, exec_checkExtensible] at run
  split at run
  · next room =>
    obtain ⟨rfl, rfl⟩ := TaskBody.attach_eq_ok.1 attached
    obtain ⟨-, rfl⟩ := Prod.mk.inj room
    cases t with
    | leaf i => cases run
    | merged i parts =>
      have room := exec_checkExtensible (s := s.setTaskBody (.merged i parts)
        ((s.taskBody (.merged i parts)).withAttached [o])) (.task (.merged i parts))
        (.backing .ownConstraints)
      obtain failed | ⟨_, _, stored, run⟩ := exec_bind_eq_error.1 run
      · cases failed
      · cases stored
        rw [exec_bind, room] at run
        split at run
        · next passed =>
          -- from here on nothing can fail
          obtain ⟨-, rfl⟩ := Prod.mk.inj passed
          obtain ⟨failed, -⟩ | ⟨_, -, run⟩ := exec_lift_bind_eq_error.1 run
          · exact nomatch failed.symm.trans (MergedTask.attach_eq_ok o _)
          · cases run
        · next lost =>
          obtain ⟨lost, rfl⟩ := Prod.mk.inj lost
          refine .inr ⟨fun list => ?_, i, parts, rfl, (Prod.mk.inj run).2.symm⟩
          rw [show Store.arrayIn? (s.setTaskBody (.merged i parts) _) _ _ = none from list] at lost
          cases lost
  · next room =>
    obtain ⟨-, rfl⟩ := Prod.mk.inj room
    exact .inl (Prod.mk.inj run).2.symm

/-- A failed call leaves everything as it was, as long as an aggregate has its own list. -/
theorem eq_of_attach {e : Error} (list : s.arrayIn? (.task t) (.backing .ownConstraints) = none)
    (run : (attach t o).exec s = (.error e, s')) : s' = s :=
  (of_attach_error run).resolve_right fun lost => lost.1 list

/-- Constraints that are attached one after another. -/
theorem exec_attachEach {cs : List ConstraintRef}
    (run : (cs.forM fun c => attach t (.constraint c)).exec s = (.ok (), s')) :
    (∀ c ∈ cs, s.constraintSize c = (s.taskBody t).size) ∧
      (cs ≠ [] → s.arrayIn? (.task t) .constraints = none) ∧
      s'.taskBody t = (s.taskBody t).withAttached (cs.map Object.constraint) ∧ s.OnlyTasks s' := by
  induction cs generalizing s with
  | nil =>
    cases run
    refine ⟨List.forall_mem_nil _, fun some => absurd rfl some, ?_, .refl _⟩
    rw [TaskBody.withAttached, List.map_nil, List.append_nil]
  | cons c cs ih =>
    obtain ⟨_, s₁, first, run⟩ := exec_bind_eq_ok.1 run
    obtain ⟨size, list, same⟩ := exec_attach first
    have body := same ▸ s.taskBody_withAttached t (.constraint c)
    have tasks := same ▸ s.onlyTasks_withAttached t (.constraint c)
    obtain ⟨sizes, -, bodies, more⟩ := ih run
    rw [body, TaskBody.withAttached_withAttached] at bodies
    rw [body] at sizes
    refine ⟨List.forall_mem_cons.2 ⟨Except.ok.inj size, fun d hd => ?_⟩, fun _ => list, bodies,
      tasks.trans more⟩
    obtain ⟨_, _, rfl⟩ := tasks
    exact sizes d hd

end Build

end ControlHierarchy
