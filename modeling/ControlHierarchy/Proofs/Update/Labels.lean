import ControlHierarchy.Proofs.Store.Assembling
import ControlHierarchy.Proofs.Task.Labels
import ControlHierarchy.Proofs.Task.Regeneration
import ControlHierarchy.Session.Tasks
import Mathlib.Data.Set.Insert

/-!
# Labels of aggregates in every state

Whatever is done to tasks, an aggregate is as it was or has new arrays from a
merge, which labels it, or a new weight or gain from a setter, which lets only
square matrices and numbers pass. So aggregates that are labelled stay labelled
(`Build.Keeps`), and a new one is labelled when it is stored.
-/

namespace ControlHierarchy

variable {α : Type}

/-! ### The invariant -/

/-- All tasks have numbers as their gains, and the aggregates in some cells are
labelled as a merge labels them. -/
structure Store.TasksLabelled (s : Store α) (built : Set Nat) : Prop where
  leaves : ∀ i, ∃ g, (s.leafTasks.read i).body.gain = .scalar g
  aggregates : ∀ i, ∃ g, (s.mergedTasks.read i).body.gain = .scalar g
  old : ∀ i ∈ built, i < s.mergedTasks.next
  labelled : ∀ i ∈ built, (s.mergedTasks.read i).body.Labelled

namespace Store.TasksLabelled

variable {s t : Store α} {built : Set Nat} {i : Nat}

theorem start [One α] : (Store.empty : Store α).TasksLabelled ∅ where
  leaves i := ⟨1, congrArg (TaskBody.gain ∘ LeafTask.body) (Cells.read_unwritten _ i)⟩
  aggregates i := ⟨1, congrArg (TaskBody.gain ∘ MergedTask.body) (Cells.read_unwritten _ i)⟩
  old _ := False.elim
  labelled _ := False.elim

theorem gain (h : s.TasksLabelled built) (t : TaskRef) : ∃ g, (s.taskBody t).gain = .scalar g := by
  cases t with
  | leaf i => exact h.leaves i
  | merged i parts => exact h.aggregates i

theorem of_eq (h : s.TasksLabelled built) (leaves : t.leafTasks = s.leafTasks)
    (aggregates : t.mergedTasks = s.mergedTasks) : t.TasksLabelled built where
  leaves := by rw [leaves]; exact h.leaves
  aggregates := by rw [aggregates]; exact h.aggregates
  old := by rw [aggregates]; exact h.old
  labelled := by rw [aggregates]; exact h.labelled

theorem writeLeaf {d : LeafTask α} (h : s.TasksLabelled built)
    (leaves : t.leafTasks = s.leafTasks.write i d) (aggregates : t.mergedTasks = s.mergedTasks)
    (gain : ∃ g, d.body.gain = .scalar g) : t.TasksLabelled built where
  leaves j := by
    rw [leaves, Cells.read_write]
    split
    · exact gain
    · exact h.leaves j
  aggregates := by rw [aggregates]; exact h.aggregates
  old := by rw [aggregates]; exact h.old
  labelled := by rw [aggregates]; exact h.labelled

/-- An aggregate that was built before may only be replaced by a labelled one. -/
theorem writeMerged {d : MergedTask α} (h : s.TasksLabelled built)
    (leaves : t.leafTasks = s.leafTasks) (aggregates : t.mergedTasks = s.mergedTasks.write i d)
    (gain : ∃ g, d.body.gain = .scalar g) (labelled : i ∈ built → d.body.Labelled) :
    t.TasksLabelled built where
  leaves := by rw [leaves]; exact h.leaves
  aggregates j := by
    rw [aggregates, Cells.read_write]
    split
    · exact gain
    · exact h.aggregates j
  old j hj := by
    rw [aggregates]
    exact (h.old j hj).trans_le (Cells.next_le_next_write _ _ _)
  labelled j hj := by
    rw [aggregates, Cells.read_write]
    split
    · next here => exact labelled (here ▸ hj)
    · exact h.labelled j hj

theorem setTaskBody {r : TaskRef} {body : TaskBody α} (h : s.TasksLabelled built)
    (gain : ∃ g, body.gain = .scalar g) (labelled : (s.taskBody r).Labelled → body.Labelled) :
    (s.setTaskBody r body).TasksLabelled built := by
  cases r with
  | leaf i => exact h.writeLeaf rfl rfl gain
  | merged i parts =>
    exact h.writeMerged rfl rfl gain fun member => labelled (h.labelled i member)

theorem insert (h : s.TasksLabelled built) (old : i < s.mergedTasks.next)
    (labelled : (s.mergedTasks.read i).body.Labelled) :
    s.TasksLabelled (Insert.insert i built) where
  leaves := h.leaves
  aggregates := h.aggregates
  old := Set.forall_mem_insert.2 ⟨old, h.old⟩
  labelled := Set.forall_mem_insert.2 ⟨labelled, h.labelled⟩

end Store.TasksLabelled

/-- The aggregates that are labelled, after a call with an outcome. -/
def labelledBy (built : Set Nat) : Except Error (Option TaskRef) → Set Nat
  | .ok (some (.merged i _)) => insert i built
  | _ => built

/-! ### Steps -/

namespace Build

variable {β γ : Type} {built : Set Nat}

/-- An action keeps the labels, whatever its outcome, and what it returns has a
property. -/
def Keeps (built : Set Nat) (action : Build α β) (Q : β → Prop) : Prop :=
  ∀ s : Store α, s.TasksLabelled built →
    (action.exec s).2.TasksLabelled built ∧ ∀ b, (action.exec s).1 = .ok b → Q b

variable {Q : β → Prop} {R : γ → Prop}

/-- What holds after a failure, and after the rest of a chain, holds at the end of
the chain. -/
theorem Keeps.exec_bind {x : Build α β} {f : β → Build α γ} {P : Except Error γ × Store α → Prop}
    {s : Store α} (first : Keeps built x Q) (h : s.TasksLabelled built)
    (failed : ∀ e t, t.TasksLabelled built → P (.error e, t))
    (rest : ∀ b t, Q b → t.TasksLabelled built → P ((f b).exec t)) : P ((x >>= f).exec s) := by
  obtain ⟨kept, post⟩ := first s h
  rw [Build.exec_bind]
  rcases run : x.exec s with ⟨e | b, t⟩
  all_goals rw [run] at kept post
  · exact failed e t kept
  · exact rest b t (post b rfl) kept

theorem keeps_bind {x : Build α β} {f : β → Build α γ} (first : Keeps built x Q)
    (second : ∀ b, Q b → Keeps built (f b) R) : Keeps built (x >>= f) R := by
  intro s h
  refine first.exec_bind (P := fun r => r.2.TasksLabelled built ∧ ∀ c, r.1 = .ok c → R c) h ?_ ?_
  · exact fun e t kept => ⟨kept, nofun⟩
  · exact fun b t post kept => second b post t kept

theorem keeps_of_onlyLogs {x : Build α β} (logs : OnlyLogs x)
    (post : ∀ s t b, x.exec s = (.ok b, t) → Q b) : Keeps built x Q := by
  intro s h
  obtain ⟨events, rest⟩ := logs s
  refine ⟨h.of_eq (by rw [rest]; rfl) (by rw [rest]; rfl), fun b made => ?_⟩
  exact post s (x.exec s).2 b (Prod.ext made rfl)

theorem keeps_lift {x : Except Error β} (post : ∀ b, x = .ok b → Q b) :
    Keeps built (liftM x : Build α β) Q :=
  keeps_of_onlyLogs (onlyLogs_lift x) fun _ _ b made => post b (congrArg Prod.fst made)

theorem keeps_set {t : Store α} (h : t.TasksLabelled built) :
    Keeps built (set t : Build α Unit) fun _ => True :=
  fun _ _ => ⟨h, fun _ _ => trivial⟩

theorem keeps_get : Keeps built (get : Build α (Store α)) fun s => s.TasksLabelled built :=
  fun _ h => ⟨h, by rintro _ ⟨⟩; exact h⟩

/-! ### Changes in place -/

/-- Changes a task in place; a change that is refused leaves the task as it is. -/
def changeTask (t : TaskRef) (change : TaskBody α → Except Error (TaskBody α)) :
    Build α Unit := do
  let s ← get
  let body ← change (s.taskBody t)
  set (s.setTaskBody t body)

theorem exec_changeTask (t : TaskRef) (change : TaskBody α → Except Error (TaskBody α))
    (s : Store α) :
    (changeTask t change).exec s = match change (s.taskBody t) with
      | .ok body => (.ok (), s.setTaskBody t body)
      | .error e => (.error e, s) := by
  rw [changeTask, exec_bind_ok exec_get, exec_bind, exec_lift]
  cases change (s.taskBody t) <;> rfl

theorem keeps_changeTask {change : TaskBody α → Except Error (TaskBody α)}
    (mild : TaskBody.Mild change) (t : TaskRef) :
    Keeps built (changeTask t change) fun _ => True :=
  keeps_bind keeps_get fun _ h => keeps_bind (keeps_lift fun body changed =>
    mild _ body changed (h.gain t)) fun _ kept => keeps_set (h.setTaskBody kept.1 kept.2)

/-! ### Merges -/

/-- An aggregate that is not stored yet can be stored as a labelled one. -/
def Presentable (d : MergedTask α) : Prop := d.body.Labelled ∧ ∃ g, d.body.gain = .scalar g

section Merging

variable [One α] [Scalar α]

/-- An aggregate to be merged has no weight of its own and a unit gain. -/
theorem keeps_prepareTask (parts : List TaskRef) (size : Int) :
    Keeps built (prepareTask parts size : Build α (MergedTask α)) fun t =>
      t.body.Weighable ∧ t.body.gain = .scalar 1 := by
  refine keeps_of_onlyLogs (onlyLogs_prepareTask parts size) fun s t b run => ?_
  obtain ⟨⟨-, natural, -⟩, k, event, rfl, -⟩ := exec_prepareTask run
  exact ⟨⟨natural, nofun⟩, rfl⟩

end Merging

/-- An action keeps the labels, and an aggregate that it returns is labelled. -/
def Delivers (built : Set Nat) (action : Build α TaskRef) : Prop :=
  ∀ s : Store α, s.TasksLabelled built →
    (action.exec s).2.TasksLabelled (labelledBy built ((action.exec s).1.map some))

theorem delivers_bind {x : Build α β} {f : β → Build α TaskRef} (first : Keeps built x Q)
    (second : ∀ b, Q b → Delivers built (f b)) : Delivers built (x >>= f) := by
  intro s h
  refine first.exec_bind
    (P := fun r => r.2.TasksLabelled (labelledBy built (r.1.map some))) h ?_ ?_
  · exact fun e t kept => kept
  · exact fun b t post kept => second b post t kept

theorem delivers_newLeafTask {t : LeafTask α} (gain : ∃ g, t.body.gain = .scalar g) :
    Delivers built (newLeafTask t) :=
  fun _ h => h.writeLeaf rfl rfl gain

theorem delivers_newMergedTask {d : MergedTask α} (presentable : Presentable d)
    (parts : List TaskRef) : Delivers built (newMergedTask parts d) := by
  intro s h
  obtain ⟨labelled, gain⟩ := presentable
  refine Store.TasksLabelled.insert (h.writeMerged rfl rfl gain fun _ => labelled) ?_ ?_
  · exact Cells.lt_next_write _ _ _
  · exact (Cells.read_write_self _ _ _).symm ▸ labelled

section Attaching

theorem body_of_attach {d e : MergedTask α} {o : Object} {name : Except Error String}
    {size : Int} (attached : d.attach o name size = .ok e) :
    d.body.attach o name size = .ok e.body := by
  obtain ⟨body, checked, rest⟩ := bind_eq_ok.1 attached
  cases rest
  exact checked

/-- A property of aggregates is not lost when something is attached to them. -/
def KeptByAttaching (P : MergedTask α → Prop) : Prop :=
  ∀ d e o name size, P d → d.attach o name size = .ok e → P e

theorem keptByAttaching_presentable : KeptByAttaching (Presentable (α := α)) := by
  intro d e o name size presentable attached
  have kept := TaskBody.mild_attach o _ _ _ _ (body_of_attach attached) presentable.2
  exact ⟨kept.2 presentable.1, kept.1⟩

theorem keeps_foldlM_attachTo {P : MergedTask α → Prop} (kept : KeptByAttaching P)
    {d : MergedTask α} (first : P d) (own : List Object) :
    Keeps built (own.foldlM attachTo d) P := by
  induction own generalizing d with
  | nil => exact fun s h => ⟨h, by rintro _ ⟨⟩; exact first⟩
  | cons o own ih =>
    have step : Keeps built (attachTo d o) P :=
      keeps_bind keeps_get fun _ _ => keeps_bind (keeps_lift fun _ _ => trivial) fun _ _ =>
        keeps_lift fun e attached => kept d e o _ _ first attached
    rw [List.foldlM_cons]
    exact keeps_bind step fun _ attached => ih attached

theorem onlyLogs_checkExtensible (owner : Object) (field : Field) :
    OnlyLogs (checkExtensible owner field : Build α Unit) :=
  onlyLogs_bind onlyLogs_get fun _ => onlyLogs_ite (onlyLogs_throw _) (onlyLogs_pure _)

theorem keeps_attach (t : TaskRef) (o : Object) :
    Keeps built (attach t o : Build α Unit) fun _ => True := by
  refine keeps_bind keeps_get fun s h => keeps_bind (keeps_lift fun _ _ => trivial) fun _ _ =>
    keeps_bind (keeps_lift fun _ _ => trivial) fun size _ =>
    keeps_bind (keeps_lift fun body attached =>
      TaskBody.mild_attach o _ size _ body attached (h.gain t)) fun body kept => ?_
  have unchanged (field : Field) : Keeps built (checkExtensible (.task t) field : Build α Unit)
      fun _ => True :=
    keeps_of_onlyLogs (onlyLogs_checkExtensible _ _) fun _ _ _ _ => trivial
  refine keeps_bind (unchanged _) fun _ _ =>
    keeps_bind (keeps_set (h.setTaskBody kept.1 kept.2)) fun _ _ => ?_
  cases t with
  | leaf i => exact fun _ h => ⟨h, fun _ _ => trivial⟩
  | merged i parts =>
    refine keeps_bind (unchanged _) fun _ _ => keeps_bind (keeps_lift fun d attached =>
      TaskBody.mild_attach o _ size _ _ (body_of_attach attached) (h.aggregates i))
      fun d kept => keeps_set (h.writeMerged rfl rfl kept.1 fun member => ?_)
    exact kept.2 (h.labelled i member)

end Attaching

/-- An update leaves the gain of a leaf task as it is. -/
theorem gain_of_refresh [Zero α] [Neg α] {state : ArrayData α} {t d : LeafTask α}
    (refreshed : t.refresh state = .ok d) : d.body.gain = t.body.gain := by
  unfold LeafTask.refresh at refreshed
  split at refreshed
  · cases refreshed
    rfl
  · obtain ⟨x, -, refreshed⟩ := bind_eq_ok.1 refreshed
    cases refreshed
    rfl
  · obtain ⟨x, -, refreshed⟩ := bind_eq_ok.1 refreshed
    obtain ⟨m, -, refreshed⟩ := bind_eq_ok.1 refreshed
    cases refreshed
    rfl
  · obtain ⟨x, -, refreshed⟩ := bind_eq_ok.1 refreshed
    obtain ⟨stored, -, refreshed⟩ := bind_eq_ok.1 refreshed
    cases refreshed
    rfl

variable [Zero α] [One α] [Add α] [Mul α]

/-- A merge of parts as they are now labels the aggregate, and keeps its gain. -/
theorem labelled_of_remergedTask {s : Store α} {t d : MergedTask α} {parts : List TaskRef}
    {own : Except Error (List Object)} {events : List Event} (h : s.TasksLabelled built)
    (merged : s.remergedTask t parts own = .ok (d, events)) :
    (t.body.Weighable → d.body.Labelled) ∧ d.body.gain = t.body.gain := by
  obtain ⟨-, merged⟩ := then_eq_ok.1 merged
  split at merged
  · have gains : ∀ p ∈ parts.map s.taskBody, ∃ g, p.gain = .scalar g :=
      List.forall_mem_map.2 fun p _ => h.gain p
    refine ⟨fun weighable => MergedTask.labelled_of_regenerate weighable gains merged, ?_⟩
    obtain ⟨r, -, rfl⟩ := MergedTask.withRows_of_regenerate merged
    rfl
  · obtain ⟨_, -, merged⟩ := bind_eq_ok.1 merged
    cases merged

theorem keeps_firstMerge [Scalar α] {t : MergedTask α} (parts : List TaskRef)
    (weighable : t.body.Weighable) (gain : t.body.gain = .scalar 1) :
    Keeps built (firstMerge parts t) Presentable := by
  refine keeps_bind keeps_get fun s h =>
    keeps_bind (keeps_lift fun _ merged => labelled_of_remergedTask h merged) ?_
  rintro ⟨d, events⟩ ⟨labelled, kept⟩
  have logs : OnlyLogs (events.forM log : Build α Unit) := fun s =>
    ⟨events, congrArg Prod.snd (exec_forM_log events s)⟩
  refine keeps_bind (keeps_of_onlyLogs logs fun _ _ _ _ => trivial) fun _ _ => ?_
  exact keeps_of_onlyLogs (onlyLogs_pure d) fun _ _ _ made => by
    cases made
    exact ⟨labelled weighable, 1, kept.trans gain⟩

theorem keeps_mergeTask (i : Nat) (parts : List TaskRef) :
    Keeps built (mergeTask i parts : Build α Unit) fun _ => True := by
  refine keeps_bind keeps_get fun s h => keeps_bind (keeps_lift fun _ _ => trivial) fun _ _ =>
    keeps_bind (keeps_lift fun _ _ => trivial) fun _ _ =>
    keeps_bind (keeps_lift fun _ merged => labelled_of_remergedTask h merged) ?_
  rintro result ⟨labelled, kept⟩
  refine keeps_set (h.writeMerged ?_ ?_ (kept ▸ h.aggregates i) fun member =>
    labelled (h.labelled i member).weighable)
  · change (s.retire _).leafTasks = _
    rw [Store.retire_eq]
  · change (s.retire _).mergedTasks.write _ _ = _
    rw [Store.retire_eq]

variable [Neg α] [BoundScalar α]

omit [One α] [Add α] [Mul α] in
theorem keeps_mergeConstraint (i : Nat) (parts : List ConstraintRef) :
    Keeps built (mergeConstraint i parts : Build α Unit) fun _ => True :=
  keeps_bind keeps_get fun _ h => keeps_bind (keeps_lift fun _ _ => trivial) fun _ _ =>
    keeps_bind (keeps_lift fun _ _ => trivial) fun _ _ =>
    keeps_bind (keeps_lift fun _ _ => trivial) fun _ _ => keeps_set (h.of_eq rfl rfl)

theorem keeps_regenerate (o : Object) :
    Keeps built (regenerate o : Build α Unit) fun _ => True := by
  refine keeps_bind keeps_get fun s _ => keeps_bind (keeps_lift fun _ _ => trivial) fun _ _ => ?_
  split
  · exact keeps_mergeConstraint _ _
  · exact keeps_mergeTask _ _
  · exact fun s h => ⟨h, nofun⟩

/-! ### Updates -/

variable [Sub α]

theorem keeps_perform (state : ArrayData α) (step : UpdateStep) :
    Keeps built (perform state step) fun _ => True := by
  cases step with
  | refreshConstraint i =>
    exact keeps_bind keeps_get fun s h => keeps_bind (keeps_lift fun _ _ => trivial)
      fun d _ => keeps_set (h.of_eq rfl rfl)
  | mergeConstraint i parts => exact keeps_mergeConstraint i parts
  | refreshTask i =>
    exact keeps_bind keeps_get fun s h => keeps_bind (keeps_lift fun d refreshed =>
      gain_of_refresh refreshed) fun d kept =>
      keeps_set (h.writeLeaf rfl rfl (kept ▸ h.leaves i))
  | mergeTask i parts => exact keeps_mergeTask i parts
  | refuse e => exact fun s h => ⟨h, nofun⟩

theorem keeps_performAll (state : ArrayData α) (steps : List UpdateStep) :
    Keeps built (performAll state steps) fun _ => True := by
  induction steps with
  | nil => exact fun s h => ⟨h, fun _ _ => trivial⟩
  | cons step steps ih => exact keeps_bind (keeps_perform state step) fun _ _ => ih

theorem keeps_update (state : ArrayData α) (o : Object) :
    Keeps built (update state o) fun _ => True :=
  keeps_bind keeps_get fun _ _ => keeps_performAll state _

/-! ### New aggregates -/

variable [Scalar α]

omit [Neg α] [Sub α] [BoundScalar α] in
theorem delivers_mergeTasks (parts : List TaskRef) (size : Int) :
    Delivers built (mergeTasks parts size : Build α TaskRef) :=
  delivers_bind (keeps_prepareTask parts size) fun _ prepared =>
    delivers_bind (keeps_firstMerge parts prepared.1 prepared.2) fun _ presentable =>
    delivers_newMergedTask presentable parts

theorem delivers_mergeTasksAtState (parts : List TaskRef) (state : ArrayData α) :
    Delivers built (mergeTasksAtState parts state) :=
  delivers_bind (keeps_lift fun _ _ => trivial) fun _ _ =>
    delivers_bind (keeps_lift fun _ _ => trivial) fun _ _ =>
    delivers_bind (keeps_prepareTask parts _) fun _ prepared =>
    delivers_bind keeps_get fun _ _ => delivers_bind (keeps_performAll _ _) fun _ _ =>
    delivers_bind (keeps_firstMerge parts prepared.1 prepared.2) fun _ presentable =>
    delivers_newMergedTask presentable parts

omit [Neg α] [Sub α] [BoundScalar α] in
theorem delivers_addTasks (a b : TaskRef) :
    Delivers built (addTasks a b : Build α TaskRef) :=
  delivers_bind keeps_get fun _ _ => delivers_bind (keeps_lift fun _ _ => trivial) fun _ _ =>
    delivers_bind (keeps_lift fun _ _ => trivial) fun _ _ =>
    delivers_bind (keeps_lift fun _ _ => trivial) fun _ _ =>
    delivers_bind (keeps_lift fun _ _ => trivial) fun _ _ =>
    delivers_bind (keeps_prepareTask _ _) fun _ prepared =>
    delivers_bind (keeps_firstMerge _ prepared.1 prepared.2) fun _ presentable =>
    delivers_bind (keeps_foldlM_attachTo keptByAttaching_presentable presentable _)
      fun _ presentable =>
    delivers_newMergedTask presentable _

end Build

/-! ### Commands -/

theorem Script.accept_bind {β γ : Type} (r : Except Error β) (f : β → Script γ)
    (session : Session) :
    (accept r >>= f) session = match r with
      | .ok b => f b session
      | .error e => (.error (.refused e), session) := by
  cases r <;> rfl

/-- The commands of a session that change a task in place do it by `Build.changeTask`. -/
theorem Session.changeBody_eq (object : Object)
    (change : TaskBody Float → Except Error (TaskBody Float)) :
    changeBody object change = do
      let t ← Script.accept object.asTask
      Script.build (Build.changeTask t change)
      return object := by
  refine congrArg (Script.accept object.asTask >>= ·) (funext fun t => funext fun session => ?_)
  -- the one stores what the change gives, the other takes what the action stored
  calc
    _ = (Script.accept (change (session.store.taskBody t)) >>= fun body => do
          Script.setStore (session.store.setTaskBody t body)
          return object) session := rfl
    _ = (Script.accept ((Build.changeTask t change).exec session.store).1 >>= fun _ => pure object)
          { session with store := ((Build.changeTask t change).exec session.store).2 } := by
      rw [Script.accept_bind, Script.accept_bind, Build.exec_changeTask]
      cases change (session.store.taskBody t) <;> rfl
    _ = _ := rfl

end ControlHierarchy
