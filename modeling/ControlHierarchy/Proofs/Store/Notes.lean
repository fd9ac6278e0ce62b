import ControlHierarchy.Store.InPlace

/-!
# What is left of the notes

References denote the same object when they name the same cell, whatever they
carry besides (`Object.same_congr`). So what was noted down for an object is
gone when it was dropped for the same object and the same field
(`Notes.read?_erase_of_same`), and found as before when it was not
(`Notes.read?_erase_of_not_same`).
-/

namespace ControlHierarchy

theorem ConstraintRef.same_congr {c d e : ConstraintRef} (h : c.same d) : c.same e = d.same e := by
  cases c <;> cases d <;> cases e <;> simp_all [ConstraintRef.same]

theorem TaskRef.same_congr {t u v : TaskRef} (h : t.same u) : t.same v = u.same v := by
  cases t <;> cases u <;> cases v <;> simp_all [TaskRef.same]

/-- What denotes the same object is the same as the same objects. -/
theorem Object.same_congr {a b c : Object} (h : a.same b) : a.same c = b.same c := by
  cases a with
  | constraint d =>
    cases b <;> cases c <;> simp_all [Object.same]
    exact ConstraintRef.same_congr h
  | task t =>
    cases b <;> cases c <;> simp_all [Object.same]
    exact TaskRef.same_congr h
  | _ => cases b <;> cases c <;> simp_all [Object.same]

theorem Object.same_self (a : Object) : a.same a := by
  cases a with
  | constraint c => cases c <;> simp [Object.same, ConstraintRef.same]
  | task t => cases t <;> simp [Object.same, TaskRef.same]
  | _ => simp [Object.same]

/-- A stack has one reference only. -/
theorem Object.eq_of_same_stack {a : Object} {id : Nat} (h : a.same (.stack id)) :
    a = .stack id := by
  cases a with
  | stack j => simpa [Object.same] using h
  | _ => cases h

theorem Object.same_symm {a b : Object} (h : a.same b) : b.same a :=
  (Object.same_congr h).symm.trans a.same_self

namespace Notes

/-- Notes that were dropped are gone. -/
theorem read?_erase_of_same (notes : Notes) {owner other : Object} (field : Field)
    (same : owner.same other) :
    (notes.erase owner field).read? other field = none := by
  have back := Object.same_symm same
  unfold read? erase
  rw [List.find?_filter, Option.map_eq_none_iff, List.find?_eq_none]
  intro note _ found
  obtain ⟨kept, on⟩ := of_decide_eq_true found
  obtain ⟨on, at_field⟩ := Bool.and_eq_true_iff.1 on
  have gone : isOn owner field note :=
    Bool.and_eq_true_iff.2 ⟨(Object.same_congr on).trans back, at_field⟩
  rw [gone] at kept
  cases kept

/-- Other notes are found as before. -/
theorem read?_erase_of_not_same (notes : Notes) {owner other : Object} {field field' : Field}
    (apart : ¬(owner.same other ∧ field = field')) :
    (notes.erase owner field).read? other field' = notes.read? other field' := by
  unfold read? erase
  rw [List.find?_filter]
  refine congrArg (fun test => (notes.find? test).map Note.value) (funext fun note => ?_)
  rw [Bool.decide_and, Bool.decide_eq_true, Bool.decide_eq_true, Bool.and_eq_right_iff_imp,
    Bool.not_eq_true', ← Bool.not_eq_true]
  intro on gone
  obtain ⟨on, at_field⟩ := Bool.and_eq_true_iff.1 on
  obtain ⟨gone, at_dropped⟩ := Bool.and_eq_true_iff.1 gone
  refine apart ⟨(Object.same_congr gone).symm.trans on, ?_⟩
  rw [← beq_iff_eq.1 at_field, ← beq_iff_eq.1 at_dropped]

theorem read?_eraseAll_of_apart (notes : Notes) {owner other : Object} {fields : List Field}
    {field : Field} (apart : ∀ dropped ∈ fields, ¬(owner.same other ∧ dropped = field)) :
    (notes.eraseAll owner fields).read? other field = notes.read? other field := by
  induction fields generalizing notes with
  | nil => rfl
  | cons dropped fields ih =>
    rw [List.forall_mem_cons] at apart
    exact (ih _ apart.2).trans (read?_erase_of_not_same notes apart.1)

theorem read?_eraseAll_of_not_mem (notes : Notes) (owner other : Object) {fields : List Field}
    {field : Field} (kept : field ∉ fields) :
    (notes.eraseAll owner fields).read? other field = notes.read? other field :=
  notes.read?_eraseAll_of_apart fun _ here h => kept (h.2 ▸ here)

theorem read?_eraseAll_of_not_same (notes : Notes) {owner other : Object} (fields : List Field)
    (field : Field) (apart : ¬owner.same other) :
    (notes.eraseAll owner fields).read? other field = notes.read? other field :=
  notes.read?_eraseAll_of_apart fun _ _ h => apart h.1

/-- Where the same is found before some notes are dropped, the same is found then. -/
theorem read?_eraseAll_congr {notes notes' : Notes} {owner other : Object} {fields : List Field}
    {field : Field} (same : notes'.read? other field = notes.read? other field) :
    (notes'.eraseAll owner fields).read? other field =
      (notes.eraseAll owner fields).read? other field := by
  induction fields generalizing notes notes' with
  | nil => exact same
  | cons dropped fields ih =>
    refine ih ?_
    by_cases both : owner.same other ∧ dropped = field
    · obtain ⟨here, rfl⟩ := both
      rw [read?_erase_of_same _ _ here, read?_erase_of_same _ _ here]
    · rw [read?_erase_of_not_same _ both, read?_erase_of_not_same _ both, same]

/-- What is found after some notes were dropped was found before. -/
theorem read?_eraseAll (notes : Notes) (owner other : Object) (fields : List Field)
    (field : Field) :
    (notes.eraseAll owner fields).read? other field = none ∨
      (notes.eraseAll owner fields).read? other field = notes.read? other field := by
  induction fields generalizing notes with
  | nil => exact .inr rfl
  | cons dropped fields ih =>
    rcases ih (notes.erase owner dropped) with gone | same
    · exact .inl gone
    · by_cases both : owner.same other ∧ dropped = field
      · obtain ⟨here, rfl⟩ := both
        exact .inl (same.trans (read?_erase_of_same notes dropped here))
      · exact .inr (same.trans (read?_erase_of_not_same notes both))

end Notes

end ControlHierarchy
