import ControlHierarchy.Proofs.Store.Acceptance
import ControlHierarchy.Proofs.Task.Refusal
import ControlHierarchy.Proofs.Task.Regeneration

/-!
# Merges that end in a fault

A mistake in what was put together is reported as an error of the configuration.
A merge of an aggregate ends in another error when an array trips it before a
check has seen it (`Build.regenerate_faults_iff`). For constraints that takes
arrays without dimensions, or bounds of three and more dimensions. For tasks a
matrix and a reference of different lengths suffice, which is what a task on a
target has before its first update (`Build.unreadyParts_fault`).
-/

namespace ControlHierarchy

variable {α : Type}

/-- An error that reports a mistake in what was put together. -/
def Error.IsConfiguration (e : Error) : Prop :=
  ∃ kind, e.kind = some kind ∧ ErrorKind.configuration ∈ kind :: kind.ancestors

theorem Error.not_isConfiguration {e : Error} (h : e.kind = none) : ¬e.IsConfiguration := by
  rintro ⟨kind, some, -⟩
  cases h.symm.trans some

theorem Error.isConfiguration {e : Error} {kind : ErrorKind} (h : e.kind = some kind)
    (family : ErrorKind.configuration ∈ kind.ancestors) : e.IsConfiguration :=
  ⟨kind, h, List.mem_cons_of_mem kind family⟩

/-- A computation ends in an error that is none of the configuration. -/
def Faults {β : Type} (x : Except Error β) : Prop := ∃ e, x = .error e ∧ ¬e.IsConfiguration

section Faults

variable {β : Type} {b : β} {e : Error}

@[simp] theorem not_faults_ok : ¬Faults (.ok b : Except Error β) := fun ⟨_, h, _⟩ => nomatch h

@[simp] theorem faults_error : Faults (.error e : Except Error β) ↔ ¬e.IsConfiguration := by
  simp [Faults]

theorem faults_of_kind (h : e.kind = none) : Faults (.error e : Except Error β) :=
  faults_error.2 (Error.not_isConfiguration h)

end Faults

/-- What a system is refused with is an error of the configuration, unless its
arrays trip the merge. -/
theorem LinearSystem.RefusedWith.faults_iff {s : LinearSystem α} {policy : Policy} {n : Nat}
    {e : Error} (h : s.RefusedWith policy n e.kind) : ¬e.IsConfiguration ↔ s.Trips policy n := by
  unfold RefusedWith at h
  split at h
  · next none => exact iff_of_true (Error.not_isConfiguration none) h
  · next kind => exact iff_of_false (not_not.2 (Error.isConfiguration kind (by decide))) h.1
  · next kind => exact iff_of_false (not_not.2 (Error.isConfiguration kind (by decide))) h.1
  · exact h.elim

theorem RowMatrix.kind_of_withoutRows {n : Int} {e : Error}
    (failed : (withoutRows n : Except Error (RowMatrix α)) = .error e) : e.kind = none := by
  unfold withoutRows at failed
  split at failed
  · cases failed
    rfl
  · cases failed

theorem LinearSystem.kind_of_free {n : Int} {e : Error}
    (failed : (free n : Except Error (LinearSystem α)) = .error e) : e.kind = none := by
  obtain failed | ⟨_, -, failed⟩ := bind_eq_error.1 failed
  · exact RowMatrix.kind_of_withoutRows failed
  · cases failed

theorem Tensor.faults_leading_iff {t : Tensor α} : Faults t.leading ↔ t.rank = 0 := by
  cases leading : t.leading with
  | error e =>
    obtain ⟨zero, kind⟩ := leading_eq_error leading
    exact iff_of_true (faults_of_kind kind) zero
  | ok m => exact iff_of_false not_faults_ok (rank_ne_zero_of_leading leading)

/-- A merge that comes to a task which does not fit ends in a fault when the task
trips it, whatever was to follow. -/
theorem TaskRows.faults_merge [Zero α] [One α] [Add α] [Mul α] {β : Type} {n : Int}
    {parts : List (TaskBody α)} {t : TaskBody α} {blank : RowMatrix α}
    {f : TaskRows α → Except Error β} (room : RowMatrix.withoutRows n = .ok blank)
    (gains : ∀ t ∈ parts, ∃ g, t.gain = .scalar g)
    (first : FirstWithout (fun t => t.Fits n.toNat) parts t) (weight : t.checkRoom = .ok ()) :
    Faults (merge n parts >>= f) ↔ t.Trips n.toNat := by
  obtain ⟨e, failed, ⟨trips, kind⟩ | ⟨smooth, kind⟩⟩ := kind_of_merge room gains first weight
  · rw [failed]
    exact iff_of_true (faults_of_kind kind) trips
  · rw [failed, error_bind, faults_error]
    exact iff_of_false (not_not.2 (Error.isConfiguration kind (by decide))) smooth

namespace MergedTask

/-- The array that has as many rows as the last merge gave: the weight, if one was
set, and otherwise the matrix. -/
def measure (t : MergedTask α) : Tensor α := t.body.weight.getD t.body.matrix

variable [Zero α] [One α] [Add α] [Mul α] {t : MergedTask α} {parts : List (TaskBody α)}
  {r : TaskRows α}

/-- A merge of tasks that fit ends in a fault when the rows of the aggregate
itself cannot be told. -/
theorem faults_regenerate_iff (merged : TaskRows.merge t.body.size parts = .ok r) :
    Faults (t.regenerate parts) ↔ t.measure.rank = 0 := by
  obtain ⟨m, v, rfl, -⟩ := TaskRows.exists_of_merge merged
  unfold regenerate
  rw [merged, ok_bind, Tensor.leading_matrix, ok_bind]
  unfold checkWeight resizing measure
  cases t.body.weight with
  | none =>
    rw [Option.getD_none, ← Tensor.faults_leading_iff]
    cases rows : t.body.matrix.leading with
    | error e => simp [TaskBody.rows, rows, pure, Except.pure]
    | ok k => simp [TaskBody.rows, rows, pure, Except.pure]
  | some w =>
    rw [Option.getD_some, ← Tensor.faults_leading_iff]
    cases rows : w.leading with
    | error e => simp [rows]
    | ok k =>
      by_cases same : k = m.height
      · simp [rows, same, pure, Except.pure]
      · have reported : (Error.mergedWeight t.body.name k m.height).IsConfiguration :=
          Error.isConfiguration rfl (by decide)
        simp [rows, same, throw, throwThe, MonadExceptOf.throw, reported]

end MergedTask

namespace Build

variable {s : Store α} {i : Nat}

theorem faults_lift_bind {β γ : Type} {x : Except Error β} {f : β → Build α γ} :
    Faults (exec (liftM x >>= f) s).1 ↔ Faults x ∨ ∃ b, x = .ok b ∧ Faults (exec (f b) s).1 := by
  rw [exec_bind, exec_lift]
  cases x with
  | error e => simp
  | ok b => simp

variable [Zero α] [One α] [Add α] [Mul α] [Neg α] [BoundScalar α]

/-! ### Constraints -/

theorem faults_regenerate_constraint_iff {parts : List ConstraintRef} {c : MergedConstraint α}
    (intact : s.Intact (.constraint (.merged i parts))) (cell : s.mergedConstraints.read i = c) :
    Faults ((regenerate (.constraint (.merged i parts))).exec s).1 ↔
      Faults (LinearSystem.free c.size : Except Error (LinearSystem α)) ∨
        ∃ culprit, FirstWithout (fun p => (s.constraintSystem p).Fits c.size.toNat) parts culprit ∧
          (s.constraintSystem culprit).Trips (Policy.ofWord c.policy) c.size.toNat := by
  subst cell
  cases room : (LinearSystem.free (s.mergedConstraints.read i).size :
      Except Error (LinearSystem α)) with
  | error e =>
    have kind := LinearSystem.kind_of_free room
    rw [exec_regenerate_constraint intact, MergedConstraint.regenerate_of_noRoom room]
    exact iff_of_true (faults_of_kind kind) (.inl (faults_of_kind kind))
  | ok blank =>
    obtain ⟨n, size, -⟩ := LinearSystem.presents_free room
    have natural : (s.mergedConstraints.read i).size.toNat = n := by rw [size, Int.toNat_natCast]
    rw [natural]
    simp only [not_faults_ok, false_or]
    rw [size] at room
    by_cases fits : ∀ p ∈ parts, (s.constraintSystem p).Fits n
    · obtain ⟨t, run⟩ := (regenerate_succeeds_iff size intact).2 ⟨⟨blank, room⟩, fits⟩
      rw [run]
      refine iff_of_false not_faults_ok ?_
      rintro ⟨culprit, first, -⟩
      exact first.lacks (fits culprit first.mem)
    · constructor
      · intro faults
        obtain ⟨culprit, first⟩ := exists_firstWithout fits
        obtain ⟨e, failed, refused⟩ := exec_regenerate_refused size intact room first
        rw [failed, faults_error, refused.faults_iff] at faults
        exact ⟨culprit, first, faults⟩
      · rintro ⟨culprit, first, trips⟩
        obtain ⟨e, failed, refused⟩ := exec_regenerate_refused size intact room first
        rw [failed, faults_error, refused.faults_iff]
        exact trips

/-! ### Tasks -/

theorem faults_regenerate_task {parts : List TaskRef} {t : MergedTask α}
    (intact : s.Intact (.task (.merged i parts))) (cell : s.mergedTasks.read i = t) :
    Faults ((regenerate (.task (.merged i parts))).exec s).1 ↔
      Faults (RowMatrix.withoutRows t.body.size : Except Error (RowMatrix α)) ∨
        (∃ blank : RowMatrix α, RowMatrix.withoutRows t.body.size = .ok blank) ∧
          Faults (s.checkParts t.body.size parts >>= fun _ =>
            t.regenerate (parts.map s.taskBody)) := by
  subst cell
  have lists := intact.lists _ List.mem_cons_self
  have present : s.taskParts (.merged i parts) = .ok parts :=
    Store.asked_eq_ok _ (lists _ (by simp))
  have kept : s.ownConstraints (.merged i parts) = .ok (s.mergedTasks.read i).own :=
    Store.walk_eq_ok _ (lists _ (by simp))
  unfold regenerate mergeTask
  rw [exec_bind_ok exec_get, exec_lift_ok (intact.checkCallable_eq_ok _), exec_bind_ok exec_get,
    faults_lift_bind, ← exists_and_right]
  refine or_congr_right (exists_congr fun blank => and_congr_right fun _ => ?_)
  rw [exec_lift_ok present, kept, faults_lift_bind]
  unfold Store.remergedTask
  refine or_iff_left ?_
  rintro ⟨_, -, faults⟩
  exact not_faults_ok faults

section Parts

omit [Neg α] [BoundScalar α]

variable {ready more : List TaskRef} {culprit : TaskRef}

/-- Behind parts that can be merged, a part without room for its weight ends the merge. -/
theorem checkParts_of_noRoom {n : Int} {r : TaskRows α} {e : Error}
    (passed : ∀ p ∈ ready, s.Ready p)
    (merged : TaskRows.merge n (ready.map s.taskBody) = .ok r)
    (weight : (s.taskBody culprit).checkRoom = .error e) :
    s.checkParts n (ready ++ culprit :: more) = .error e := by
  have stuck : ((s.taskBody culprit).checkRoom.isOk && (s.attached culprit).isOk) = false := by
    rw [weight]
    rfl
  have through := fun p hp => Store.ready_iff.1 (passed p hp)
  unfold Store.checkParts
  rw [List.span_eq_takeWhile_dropWhile, List.takeWhile_append_of_pos through,
    List.dropWhile_append_of_pos through, List.takeWhile_cons_of_neg (by simp [stuck]),
    List.dropWhile_cons_of_neg (by simp [stuck]), List.append_nil]
  simp only []
  rw [merged, ok_bind, weight]
  rfl

/-- A part that the merge does not come to an end at is merged, be it in front of
another part at which it does. -/
theorem checkParts_of_ready (n : Int) (more : List TaskRef) (passed : ∀ p ∈ ready, s.Ready p)
    (next : s.Ready culprit) :
    s.checkParts n (ready ++ culprit :: more) = .ok () ∨
      ∃ pre f, (∀ p ∈ pre, p ∈ more) ∧ s.checkParts n (ready ++ culprit :: more) =
        TaskRows.merge n ((ready ++ culprit :: pre).map s.taskBody) >>= f := by
  have through := fun p hp => Store.ready_iff.1 (passed p hp)
  have free := Store.ready_iff.1 next
  unfold Store.checkParts
  rw [List.span_eq_takeWhile_dropWhile, List.takeWhile_append_of_pos through,
    List.dropWhile_append_of_pos through, List.takeWhile_cons_of_pos (by exact free),
    List.dropWhile_cons_of_pos (by exact free)]
  cases rest : more.dropWhile fun p => (s.taskBody p).checkRoom.isOk && (s.attached p).isOk with
  | nil => exact .inl rfl
  | cons other others => exact .inr ⟨_, _, fun p hp => (List.takeWhile_prefix _).subset hp, rfl⟩

/-- A merge comes to the first task that does not fit, and no further. -/
theorem faults_checkParts {parts : List TaskRef} {t : MergedTask α} {blank : RowMatrix α}
    (room : RowMatrix.withoutRows t.body.size = .ok blank)
    (attached : ∀ p ∈ parts, ∃ own, s.attached p = .ok own)
    (gains : ∀ p ∈ parts, ∃ g, (s.taskBody p).gain = .scalar g)
    (first : FirstWithout (fun p => (s.taskBody p).Fits t.body.size.toNat) parts culprit) :
    Faults (s.checkParts t.body.size parts >>= fun _ => t.regenerate (parts.map s.taskBody)) ↔
      (s.taskBody culprit).Trips t.body.size.toNat := by
  obtain ⟨ready, more, rfl, fits, misfit⟩ := first
  have passed : ∀ p ∈ ready, s.Ready p :=
    fun p hp => ⟨(fits p hp).room, attached p (List.mem_append_left _ hp)⟩
  cases weight : (s.taskBody culprit).checkRoom with
  | error e =>
    obtain ⟨r, merged⟩ := TaskRows.merge_ok room
      (List.forall_mem_map.2 fun p hp => gains p (List.mem_append_left _ hp))
      (List.forall_mem_map.2 fits)
    rw [checkParts_of_noRoom passed merged weight]
    exact iff_of_true (faults_of_kind (TaskBody.kind_of_checkRoom weight)) (.inl (by simp [weight]))
  | ok _ =>
    have member : culprit ∈ ready ++ culprit :: more := by simp
    have merges {β : Type} (pre : List TaskRef) (inside : ∀ p ∈ pre, p ∈ more)
        (f : TaskRows α → Except Error β) :
        Faults (TaskRows.merge t.body.size ((ready ++ culprit :: pre).map s.taskBody) >>= f) ↔
          (s.taskBody culprit).Trips t.body.size.toNat := by
      have first : FirstWithout (fun p => (s.taskBody p).Fits t.body.size.toNat)
          (ready ++ culprit :: pre) culprit := ⟨ready, pre, rfl, fits, misfit⟩
      refine TaskRows.faults_merge room (List.forall_mem_map.2 fun p hp => gains p ?_)
        (first.map s.taskBody) weight
      simp only [List.mem_append, List.mem_cons] at hp ⊢
      exact hp.imp_right (Or.imp_right (inside p))
    obtain through | ⟨pre, f, inside, stopped⟩ :=
      checkParts_of_ready t.body.size more passed ⟨weight, attached culprit member⟩
    · rw [through, ok_bind]
      exact merges more (fun _ hp => hp) _
    · rw [stopped, bind_assoc]
      exact merges pre inside _

end Parts

theorem faults_regenerate_task_iff {parts : List TaskRef} {t : MergedTask α}
    (intact : s.Intact (.task (.merged i parts)))
    (gains : ∀ p ∈ parts, ∃ g, (s.taskBody p).gain = .scalar g)
    (cell : s.mergedTasks.read i = t) :
    Faults ((regenerate (.task (.merged i parts))).exec s).1 ↔
      Faults (RowMatrix.withoutRows t.body.size : Except Error (RowMatrix α)) ∨
        (∃ culprit, FirstWithout (fun p => (s.taskBody p).Fits t.body.size.toNat) parts culprit ∧
          (s.taskBody culprit).Trips t.body.size.toNat) ∨
        (∀ p ∈ parts, (s.taskBody p).Fits t.body.size.toNat) ∧ t.measure.rank = 0 := by
  rw [faults_regenerate_task intact cell]
  have attached : ∀ p ∈ parts, s.attached p = .ok (s.taskBody p).constraints := by
    intro p hp
    exact Store.walk_eq_ok _
      (intact.lists _ (List.mem_cons_of_mem _ (List.mem_map_of_mem hp)) _ (by simp))
  cases room : (RowMatrix.withoutRows t.body.size : Except Error (RowMatrix α)) with
  | error e =>
    have faults : Faults (.error e : Except Error (RowMatrix α)) :=
      faults_of_kind (RowMatrix.kind_of_withoutRows room)
    exact iff_of_true (.inl faults) (.inl faults)
  | ok blank =>
    simp only [not_faults_ok, false_or, Except.ok.injEq, exists_eq', true_and]
    by_cases fits : ∀ p ∈ parts, (s.taskBody p).Fits t.body.size.toNat
    · obtain ⟨r, merged⟩ := TaskRows.merge_ok room (List.forall_mem_map.2 gains)
        (List.forall_mem_map.2 fits)
      have ready : s.checkParts t.body.size parts = .ok () :=
        Store.checkParts_eq_ok.2 fun p hp => ⟨(fits p hp).room, _, attached p hp⟩
      rw [ready, ok_bind, MergedTask.faults_regenerate_iff merged, and_iff_right fits]
      refine (or_iff_right ?_).symm
      rintro ⟨culprit, first, -⟩
      exact first.lacks (fits culprit first.mem)
    · rw [or_iff_left fun all => fits all.1]
      have turn {culprit : TaskRef}
          (first : FirstWithout (fun p => (s.taskBody p).Fits t.body.size.toNat) parts culprit) :=
        faults_checkParts room (fun p hp => ⟨_, attached p hp⟩) gains first
      constructor
      · intro faults
        obtain ⟨culprit, first⟩ := exists_firstWithout fits
        exact ⟨culprit, first, (turn first).1 faults⟩
      · rintro ⟨culprit, first, trips⟩
        exact (turn first).2 trips

/-- A merge of an intact aggregate either succeeds or is refused with an error of
the configuration, apart from these faults: there is no array of the size of the
aggregate, or the first part that does not fit trips the merge. For an aggregate
of tasks, with gains that are numbers, there is one fault more: all parts fit, but
the rows of the aggregate itself cannot be told. -/
theorem regenerate_faults_iff :
    (∀ i parts, s.Intact (.constraint (.merged i parts)) → ∀ c, s.mergedConstraints.read i = c →
      (Faults ((regenerate (.constraint (.merged i parts))).exec s).1 ↔
        Faults (LinearSystem.free c.size : Except Error (LinearSystem α)) ∨
          ∃ culprit,
            FirstWithout (fun p => (s.constraintSystem p).Fits c.size.toNat) parts culprit ∧
              (s.constraintSystem culprit).Trips (Policy.ofWord c.policy) c.size.toNat)) ∧
    ∀ i parts, s.Intact (.task (.merged i parts)) →
      (∀ p ∈ parts, ∃ g, (s.taskBody p).gain = .scalar g) → ∀ t, s.mergedTasks.read i = t →
      (Faults ((regenerate (.task (.merged i parts))).exec s).1 ↔
        Faults (RowMatrix.withoutRows t.body.size : Except Error (RowMatrix α)) ∨
          (∃ culprit,
            FirstWithout (fun p => (s.taskBody p).Fits t.body.size.toNat) parts culprit ∧
              (s.taskBody culprit).Trips t.body.size.toNat) ∨
          (∀ p ∈ parts, (s.taskBody p).Fits t.body.size.toNat) ∧ t.measure.rank = 0) := by
  constructor
  · intro i parts intact c cell
    exact faults_regenerate_constraint_iff intact cell
  · intro i parts intact gains t cell
    exact faults_regenerate_task_iff intact gains cell

/-! ### Parts that are not ready -/

/-- An aggregate of an equality whose right-hand side is a bare number, and an
aggregate of a task on a target that was not updated yet. -/
def unreadyParts : Store Float :=
  let equality : LinearSystem Float :=
    ⟨.vector [], .vector [], .matrix ⟨1, 2, [2, 1], rfl⟩, .scalar 1, .matrix (.empty 2),
      .vector [], .vector []⟩
  let bare : LeafConstraint Float := ⟨"bare", 2, equality, .unvalidated, []⟩
  let merged : MergedConstraint Float := ⟨"bare", 2, Store.blankSystem, Policy.standard.word⟩
  let target : TaskBody Float :=
    ⟨"target", 2, .matrix (.empty 2), .vector [1, 2], .scalar 1, none, some .unknown, []⟩
  let leaf : LeafTask Float := ⟨target, .onTarget, none⟩
  let aggregate : MergedTask Float := ⟨{ target with reference := .vector [] }, []⟩
  { (Store.empty : Store Float) with
    leafConstraints := ⟨bare, #[bare]⟩
    mergedConstraints := ⟨merged, #[merged]⟩
    leafTasks := ⟨leaf, #[leaf]⟩
    mergedTasks := ⟨aggregate, #[aggregate]⟩ }

theorem unreadyParts_constraint_trips :
    (unreadyParts.constraintSystem (.leaf 0)).Trips .standard 2 :=
  ⟨.inl ⟨rfl, rfl⟩, .inl (.inr ⟨⟨1, rfl⟩, rfl⟩)⟩

theorem unreadyParts_task_trips : (unreadyParts.taskBody (.leaf 0)).Trips 2 := by
  have unset : (unreadyParts.taskBody (.leaf 0)).weight = none := rfl
  refine .inr (.inr ⟨0, rfl, by simp [unset], .inr ⟨rfl, ?_⟩⟩)
  intro factor
  cases Tensor.isFactor_vector.1 factor

theorem unreadyParts_fault :
    Faults ((regenerate (.constraint (.merged 0 [.leaf 0]))).exec unreadyParts).1 ∧
      Faults ((regenerate (.task (.merged 0 [.leaf 0]))).exec unreadyParts).1 := by
  obtain ⟨constraints, tasks⟩ := regenerate_faults_iff (s := unreadyParts)
  constructor
  · refine (constraints 0 [.leaf 0] ⟨fun _ _ _ => rfl, fun _ _ _ _ => rfl⟩ _ rfl).2 (.inr ?_)
    exact ⟨.leaf 0, firstWithout_singleton unreadyParts_constraint_trips.not_fits,
      unreadyParts_constraint_trips⟩
  · have gains : ∀ p ∈ [TaskRef.leaf 0], ∃ g, (unreadyParts.taskBody p).gain = .scalar g :=
      List.forall_mem_singleton.2 ⟨1, rfl⟩
    refine (tasks 0 [.leaf 0] ⟨fun _ _ _ => rfl, fun _ _ _ _ => rfl⟩ gains _ rfl).2 (.inr (.inl ?_))
    exact ⟨.leaf 0, firstWithout_singleton unreadyParts_task_trips.not_fits,
      unreadyParts_task_trips⟩

end Build

end ControlHierarchy
