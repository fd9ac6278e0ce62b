import ControlHierarchy.Proofs.Outcome
import ControlHierarchy.Store.Basic

/-!
# What actions do to the store

An action runs on a store and ends with an outcome and a store. A chain of
actions hands the store on from link to link, and its first refusal ends it,
with the store as it is by then. These laws run a chain, and take a run apart.
An action that only computes changes nothing but the journal (`OnlyLogs`).
-/

namespace ControlHierarchy

/-- The store after some more lines of the journal. -/
def Store.withLog {α : Type} (s : Store α) (events : List Event) : Store α :=
  { s with journal := s.journal ++ events }

theorem Store.withLog_nil {α : Type} (s : Store α) : s.withLog [] = s := by
  rw [withLog, List.append_nil]

theorem Store.withLog_withLog {α : Type} (s : Store α) (events more : List Event) :
    (s.withLog events).withLog more = s.withLog (events ++ more) := by
  rw [withLog, withLog, withLog, List.append_assoc]

namespace Build

variable {α β γ : Type} {s s' : Store α}

/-- Runs an action on a store. -/
def exec (action : Build α β) (s : Store α) : Except Error β × Store α := action.run.run s

@[simp] theorem exec_get : exec get s = (.ok s, s) := rfl

theorem exec_set_eq_ok {t : Store α} : exec (set s' : Build α Unit) s = (.ok (), t) ↔ t = s' := by
  constructor
  · intro h
    cases h
    rfl
  · rintro rfl
    rfl

/-- A checked computation leaves the store alone. -/
@[simp] theorem exec_lift (x : Except Error β) : exec (liftM x : Build α β) s = (x, s) := rfl

theorem exec_bind (x : Build α β) (f : β → Build α γ) :
    exec (x >>= f) s = match exec x s with
      | (.ok b, s') => exec (f b) s'
      | (.error e, s') => (.error e, s') := by
  change (ExceptT.bindCont f (exec x s).1).run (exec x s).2 = _
  rcases exec x s with ⟨_ | _, _⟩ <;> rfl

theorem exec_bind_ok {x : Build α β} {f : β → Build α γ} {b : β} (h : exec x s = (.ok b, s')) :
    exec (x >>= f) s = exec (f b) s' := by
  rw [exec_bind, h]

theorem exec_lift_ok {x : Except Error β} {f : β → Build α γ} {b : β} (h : x = .ok b) :
    exec (liftM x >>= f) s = exec (f b) s := by
  rw [h]
  rfl

theorem exec_bind_eq_ok {x : Build α β} {f : β → Build α γ} {c : γ} {t : Store α} :
    exec (x >>= f) s = (.ok c, t) ↔ ∃ b s', exec x s = (.ok b, s') ∧
    exec (f b) s' = (.ok c, t) := by
  rw [exec_bind]
  rcases exec x s with ⟨_ | b, s'⟩
  · simp
  · simp [and_assoc]

theorem exec_bind_eq_error {x : Build α β} {f : β → Build α γ} {e : Error} {t : Store α} :
    exec (x >>= f) s = (.error e, t) ↔
      exec x s = (.error e, t) ∨ ∃ b s', exec x s = (.ok b, s') ∧
      exec (f b) s' = (.error e, t) := by
  rw [exec_bind]
  rcases exec x s with ⟨_ | b, s'⟩
  · simp
  · simp [and_assoc]

theorem exec_lift_bind_eq_ok {x : Except Error β} {f : β → Build α γ} {c : γ} {t : Store α} :
    exec (liftM x >>= f) s = (.ok c, t) ↔ ∃ b, x = .ok b ∧ exec (f b) s = (.ok c, t) := by
  rw [exec_bind, exec_lift]
  cases x with
  | error e => simp
  | ok b => simp

theorem exec_lift_bind_eq_error {x : Except Error β} {f : β → Build α γ} {e : Error}
    {t : Store α} :
    exec (liftM x >>= f) s = (.error e, t) ↔
      (x = .error e ∧ t = s) ∨ ∃ b, x = .ok b ∧ exec (f b) s = (.error e, t) := by
  rw [exec_bind, exec_lift]
  cases x with
  | error d => simp [eq_comm]
  | ok b => simp

theorem exists_exec_of_isOk (action : Build α β) (s : Store α) (succeeds : (action.exec s).1.isOk) :
    ∃ b t, action.exec s = (.ok b, t) := by
  rcases run : action.exec s with ⟨_ | b, t⟩
  · rw [run] at succeeds
    cases succeeds
  · exact ⟨b, t, rfl⟩

/-- What holds before a checked computation and after the rest of the chain
holds at the end, whether or not the chain gets there. -/
theorem exec_lift_bind_snd {P : Store α → Prop} {x : Except Error β} {f : β → Build α γ}
    (before : P s) (after : ∀ b, x = .ok b → P (exec (f b) s).2) :
    P (exec (liftM x >>= f) s).2 := by
  rw [exec_bind, exec_lift]
  cases x with
  | error e => exact before
  | ok b => exact after b rfl

/-- To make something of the result of an action changes nothing else. -/
theorem exec_bind_pure (x : Build α β) (f : β → γ) :
    exec (x >>= fun b => pure (f b)) s = ((exec x s).1.map f, (exec x s).2) := by
  rw [exec_bind]
  rcases exec x s with ⟨_ | _, _⟩ <;> rfl

/-- An action changes nothing but the journal, whatever its outcome. -/
def OnlyLogs (action : Build α β) : Prop :=
  ∀ s, ∃ events, (action.exec s).2 = s.withLog events

theorem onlyLogs_of_unchanged {action : Build α β} (h : ∀ s, (action.exec s).2 = s) :
    OnlyLogs action := by
  intro s
  exact ⟨[], by rw [h, Store.withLog_nil]⟩

theorem OnlyLogs.of_exec {x : Build α β} {r : Except Error β} (h : OnlyLogs x)
    (run : exec x s = (r, s')) :
    ∃ events, s' = s.withLog events := by
  obtain ⟨events, h⟩ := h s
  rw [run] at h
  exact ⟨events, h⟩

theorem onlyLogs_get : OnlyLogs (get : Build α (Store α)) := onlyLogs_of_unchanged fun _ => rfl

theorem onlyLogs_pure (b : β) : OnlyLogs (pure b : Build α β) := onlyLogs_of_unchanged fun _ => rfl

theorem onlyLogs_throw (e : Error) : OnlyLogs (throw e : Build α β) :=
  onlyLogs_of_unchanged fun _ => rfl

theorem onlyLogs_lift (x : Except Error β) : OnlyLogs (liftM x : Build α β) :=
  onlyLogs_of_unchanged fun _ => rfl

theorem onlyLogs_log (event : Event) : OnlyLogs (log event : Build α Unit) :=
  fun _ => ⟨[event], rfl⟩

theorem onlyLogs_bind {x : Build α β} {f : β → Build α γ} (hx : OnlyLogs x)
    (hf : ∀ b, OnlyLogs (f b)) : OnlyLogs (x >>= f) := by
  intro s
  obtain ⟨events, h⟩ := hx s
  rw [exec_bind]
  rcases run : exec x s with ⟨_ | b, s'⟩
  · rw [run] at h
    exact ⟨events, h⟩
  · rw [run] at h
    obtain ⟨more, h'⟩ := hf b s'
    refine ⟨events ++ more, h'.trans ?_⟩
    rw [show s' = s.withLog events from h, Store.withLog_withLog]

theorem onlyLogs_ite {p : Prop} [Decidable p] {x y : Build α β} (hx : OnlyLogs x)
    (hy : OnlyLogs y) :
    OnlyLogs (if p then x else y) := by
  split
  · exact hx
  · exact hy

end Build

end ControlHierarchy
