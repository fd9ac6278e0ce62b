/-!
# Outcomes of checked computations

A computation that may be refused is a chain of steps in `Except`. A chain
succeeds just when every step does, and a test in front of the rest of a chain
has to be passed. These laws take a chain apart, one link at a time.
-/

namespace ControlHierarchy

variable {ε α β : Type}

theorem bind_eq_ok {x : Except ε α} {f : α → Except ε β} {b : β} :
    x >>= f = .ok b ↔ ∃ a, x = .ok a ∧ f a = .ok b := by
  cases x with
  | error e => simp [bind, Except.bind]
  | ok a => simp [bind, Except.bind]

theorem bind_eq_error {x : Except ε α} {f : α → Except ε β} {e : ε} :
    x >>= f = .error e ↔ x = .error e ∨ ∃ a, x = .ok a ∧ f a = .error e := by
  cases x with
  | error d => simp [bind, Except.bind]
  | ok a => simp [bind, Except.bind]

@[simp] theorem ok_bind (a : α) (f : α → Except ε β) : (.ok a : Except ε α) >>= f = f a := rfl

@[simp] theorem error_bind (e : ε) (f : α → Except ε β) :
    (.error e : Except ε α) >>= f = .error e :=
  rfl

theorem pure_eq_ok {a b : α} : (pure a : Except ε α) = .ok b ↔ a = b := by
  simp [pure, Except.pure]

theorem ite_succeeds_iff {p : Prop} [Decidable p] {e : ε} {b : β} :
    (∃ c, (if p then .ok b else .error e : Except ε β) = .ok c) ↔ p := by
  split <;> simp_all

/-- A test in front of a chain has to be passed. -/
theorem then_eq_ok {x : Except ε Unit} {y : Except ε β} {b : β} :
    (x >>= fun _ => y) = .ok b ↔ x = .ok () ∧ y = .ok b := by
  cases x with
  | error e => simp
  | ok a => simp

/-- A step that throws under a condition lets the chain go on just when the
condition fails. -/
theorem throw_unless {p : Prop} [Decidable p] {e : ε} {b : α} {y : Except ε α} :
    (if p then throw e else y) = .ok b ↔ ¬p ∧ y = .ok b := by
  split <;> simp_all [throw, throwThe, MonadExceptOf.throw]

/-- The same when the rest of the chain is named before the test. -/
theorem throw_then {p : Prop} [Decidable p] {e : ε} {b : β} {f : Unit → Except ε β} :
    (if p then throw e >>= f else f ()) = .ok b ↔ ¬p ∧ f () = .ok b := by
  split <;> simp_all [throw, throwThe, MonadExceptOf.throw]

end ControlHierarchy
