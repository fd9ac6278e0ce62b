import ControlHierarchy.Proofs.Store.Extending
import ControlHierarchy.Proofs.Store.Program
import ControlHierarchy.Proofs.Store.Stacking

/-!
# Compositions of several tasks and stacks

A composition makes a new stack and gives it the levels and the bounds of its
operands one after the other. After each bound all bounds so far are merged, so
the stack ends up with the merge of all of them (`Build.exec_stack`). Whether
constraints can be merged is a matter of each of them alone, so nothing comes in
the way. Hence a composition of several tasks and stacks has the levels and the
bounds of all of them, in order, however it is put into parentheses
(`Composition.build_composes`).
-/

namespace ControlHierarchy

variable {α : Type}

/-! ### Stacks in the making -/

namespace Store

variable {s t u : Store α} {id : Nat} {stack : Stack} {n : Int} {c : ConstraintRef}

/-- A new stack of a store is being built. -/
structure Drafts (s : Store α) (id : Nat) (t : Store α) (stack : Stack) : Prop where
  extension : s.Extends t
  new : s.stackCells.next ≤ id
  exist : t.Has (.stack id)
  read : t.stackCells.read id = stack

theorem Drafts.write (h : s.Drafts id t stack) (stack' : Stack) :
    s.Drafts id { t with stackCells := t.stackCells.write id stack' } stack' where
  extension := h.extension.writeStack h.new stack'
  new := h.new
  exist := Cells.lt_next_write _ _ _
  read := Cells.read_write_self _ _ _

/-- A new stack has lists. -/
theorem Drafts.lists (h : s.Drafts id t stack) (fresh : s.Fresh) (kept : Backing) :
    t.arrayIn? (.stack id) (.backing kept) = none :=
  h.extension.arrayIn?_eq_none (fresh (.stack id) (Nat.not_lt.2 h.new) kept)

theorem Extends.canJoin (h : s.Extends t) (exist : s.Has (.constraint c)) (join : s.CanJoin n c) :
    t.CanJoin n c := by
  have cell := h.sameCell exist
  have system : t.constraintSystem c = s.constraintSystem c := congrArg Part.system cell.sameAsPart
  refine ⟨?_, ?_, system ▸ join.fits⟩
  · exact (Except.ok.inj (h.objectSize exist)).trans join.size
  · exact (stuckAt?_congr (h.isReplaced exist) system).trans join.askable

/-- A new stack may get an aggregate. -/
theorem Extends.withMerged (h : s.Extends t) (new : s.stackCells.next ≤ id)
    (parts : List ConstraintRef) (d : MergedConstraint α) :
    s.Extends (t.withMerged id parts d) :=
  (((h.writeMergedConstraint h.mergedConstraints.next d).writeStack new _).eraseNote new
    _).withLog _

end Store

namespace Build

variable {s t u : Store α} {id : Nat} {stack : Stack} {levels : List Object} {o : Object}

theorem exec_addLevel (size : s.objectSize o = .ok (s.stackCells.read id).size)
    (extensible : s.arrayIn? (.stack id) (.backing .levels) = none) :
    (addLevel id o).exec s = (.ok (), { s with
      stackCells := s.stackCells.write id { s.stackCells.read id with
        levels := (s.stackCells.read id).levels ++ [o] } }) := by
  have room := exec_checkExtensible (s := s) (.stack id) (.backing .levels)
  rw [extensible] at room
  unfold addLevel
  rw [exec_bind_ok exec_get, exec_lift_ok size, if_neg (not_not.2 rfl), exec_bind_ok room]
  rfl

/-- Levels of the right size are added one after the other. -/
theorem exec_forM_addLevel (h : s.Drafts id t stack) (fresh : s.Fresh)
    (sizes : ∀ o ∈ levels, s.Has o ∧ s.objectSize o = .ok stack.size) :
    ∃ u, (levels.forM (addLevel id)).exec t = (.ok (), u) ∧
      s.Drafts id u { stack with levels := stack.levels ++ levels } := by
  induction levels generalizing t stack with
  | nil =>
    rw [List.append_nil]
    exact ⟨t, rfl, h⟩
  | cons o levels ih =>
    rw [List.forall_mem_cons] at sizes
    obtain ⟨⟨exist, size⟩, sizes⟩ := sizes
    rw [← h.extension.objectSize exist, ← h.read] at size
    have first := exec_addLevel size (h.lists fresh .levels)
    rw [h.read] at first
    obtain ⟨u, rest, drafts⟩ := ih (h.write { stack with levels := stack.levels ++ [o] }) sizes
    refine ⟨u, (exec_bind_ok first).trans rest, ?_⟩
    rwa [List.append_assoc] at drafts

/-! ### Merged bounds -/

variable [Zero α] [Neg α] [BoundScalar α] {n : Int} {p : Policy} {cs done : List ConstraintRef}
  {c : ConstraintRef} {d : MergedConstraint α}

/-- Constraints of an earlier store are combined to the same in a later one. -/
theorem extends_mergedConstraint (extension : s.Extends t)
    (exist : ∀ c ∈ cs, s.Has (.constraint c))
    (run : (mergedConstraint cs n (.integer p.word)).exec s = (.ok d, u)) :
    ∃ v, (mergedConstraint cs n (.integer p.word)).exec t = (.ok d, v) := by
  have combinable : t.Combinable n cs := by
    obtain ⟨some, room, join⟩ := mergedConstraint_succeeds_iff.1 ⟨d, u, run⟩
    exact ⟨some, room, fun c hc => extension.canJoin (exist c hc) (join c hc)⟩
  obtain ⟨d', v, run'⟩ := mergedConstraint_succeeds_iff.2 combinable
  have parts : ∀ c ∈ cs, t.part c = s.part c := fun c hc =>
    (extension.sameCell (exist c hc)).sameAsPart
  have names : cs.map t.constraintName = cs.map s.constraintName :=
    List.map_congr_left fun c hc => congrArg Part.name (parts c hc)
  obtain ⟨merge, whole⟩ := eq_of_mergedConstraint run
  obtain ⟨merge', whole'⟩ := eq_of_mergedConstraint run'
  rw [names, List.map_congr_left parts] at merge'
  rw [names, ← Except.ok.inj (merge.symm.trans merge')] at whole'
  rw [whole, ← whole']
  exact ⟨v, run'⟩

end Build

/-- A stack keeps the merge of some constraints of an earlier store, or none if there are no
constraints. -/
def Store.KeepsMerge [Zero α] [Neg α] [BoundScalar α] (s : Store α) (n : Int) (p : Policy)
    (cs : List ConstraintRef) (t : Store α) : Option ConstraintRef → Prop
  | none => cs = []
  | some c => ∃ k u, c = .merged k cs ∧ (Build.mergedConstraint cs n (.integer p.word)).exec s =
      (.ok (t.mergedConstraints.read k), u)

namespace Build

variable [Zero α] [Neg α] [BoundScalar α] {s t u : Store α} {id : Nat} {stack : Stack} {n : Int}
  {p : Policy} {cs done : List ConstraintRef} {c : ConstraintRef} {d : MergedConstraint α}

/-- The bounds of a new stack are merged. -/
theorem mergeBounds_succeeds (h : s.Drafts id t stack)
    (listed : stack.bounds = cs.map Object.constraint) (exist : ∀ c ∈ cs, s.Has (.constraint c))
    (policy : stack.policy = p.word)
    (run : (mergedConstraint cs stack.size (.integer p.word)).exec s = (.ok d, u)) :
    ∃ v m, (mergeBounds id).exec t = (.ok (), v) ∧ s.Drafts id v { stack with merged := some m } ∧
      s.KeepsMerge stack.size p cs v (some m) := by
  obtain ⟨v, made⟩ := extends_mergedConstraint h.extension exist run
  obtain ⟨events, rfl⟩ := (onlyLogs_mergedConstraint cs _ _).of_exec made
  have merges : (mergeBounds id).exec t = (.ok (), (t.withLog events).withMerged id cs d) := by
    refine mergeBounds_eq_ok.2 ⟨cs, d, _, ?_, ?_, rfl⟩
    · rw [h.read, listed]
    · rw [h.read, policy]
      exact made
  have stays : { t.stackCells.read id with merged := some (.merged t.mergedConstraints.next cs) } =
      { stack with merged := some (.merged t.mergedConstraints.next cs) } := by rw [h.read]
  refine ⟨_, .merged t.mergedConstraints.next cs, merges,
    ⟨(h.extension.withLog events).withMerged h.new cs d, h.new, Cells.lt_next_write _ _ _,
      (Cells.read_write_self _ _ _).trans stays⟩, _, u, rfl, ?_⟩
  rw [run]
  exact congrArg (fun d => (Except.ok d, u)) (Cells.read_write_self _ _ _).symm

variable (fresh : s.Fresh)

include fresh

/-- A bound that can be merged is added to a new stack, and merged with the others. -/
theorem exec_addBound (h : s.Drafts id t stack) (size : stack.size = n)
    (policy : stack.policy = p.word) (listed : stack.bounds = done.map Object.constraint)
    (room : ∃ blank : LinearSystem α, LinearSystem.free n = .ok blank)
    (join : ∀ b ∈ done ++ [c], s.Has (.constraint b) ∧ s.CanJoin n b) :
    ∃ u m, (addBound id (.constraint c)).exec t = (.ok (), u) ∧
      s.Drafts id u { stack with
        bounds := (done ++ [c]).map Object.constraint
        merged := some m } ∧
      s.KeepsMerge n p (done ++ [c]) u (some m) := by
  subst size
  have exist : ∀ b ∈ done ++ [c], s.Has (.constraint b) := fun b hb => (join b hb).1
  obtain ⟨here, canJoin⟩ := join c (List.mem_append_right _ (List.mem_singleton_self c))
  have can : t.CanList id (.constraint c) := by
    refine ⟨?_, h.lists fresh .bounds⟩
    rw [h.extension.objectSize here, h.read]
    exact congrArg Except.ok canJoin.size
  obtain ⟨d, v, run⟩ := mergedConstraint_succeeds_iff (p := p).2
    ⟨List.append_ne_nil_of_right_ne_nil _ (List.cons_ne_nil c []), room, fun b hb => (join b hb).2⟩
  have drafts : s.Drafts id (t.withBound id (.constraint c))
      { stack with bounds := (done ++ [c]).map Object.constraint } := by
    have written := h.write { stack with bounds := stack.bounds ++ [.constraint c] }
    rw [listed, ← List.map_singleton (f := Object.constraint), ← List.map_append] at written
    rw [Store.withBound, h.read, listed, ← List.map_singleton (f := Object.constraint),
      ← List.map_append]
    exact written
  obtain ⟨u, m, merged, drafts', kept⟩ := mergeBounds_succeeds drafts rfl exist policy run
  exact ⟨u, m, (exec_bind_ok (exec_listBound can)).trans merged, drafts', kept⟩

/-- All bounds are added, one after the other. -/
theorem exec_forM_addBound (h : s.Drafts id t stack) (size : stack.size = n)
    (policy : stack.policy = p.word) (listed : stack.bounds = done.map Object.constraint)
    (kept : s.KeepsMerge n p done t stack.merged)
    (room : cs ≠ [] → ∃ blank : LinearSystem α, LinearSystem.free n = .ok blank)
    (join : ∀ c ∈ done ++ cs, s.Has (.constraint c) ∧ s.CanJoin n c) :
    ∃ u merged, ((cs.map Object.constraint).forM (addBound id)).exec t = (.ok (), u) ∧
      s.Drafts id u { stack with
        bounds := (done ++ cs).map Object.constraint
        merged := merged } ∧
      s.KeepsMerge n p (done ++ cs) u merged := by
  induction cs generalizing t stack done with
  | nil =>
    rw [List.append_nil, ← listed]
    exact ⟨t, stack.merged, rfl, h, kept⟩
  | cons c cs ih =>
    have front : done ++ c :: cs = done ++ [c] ++ cs := by simp
    rw [front] at join ⊢
    have room := room (List.cons_ne_nil c cs)
    obtain ⟨v, m, first, drafts, kept'⟩ := exec_addBound fresh h size policy listed room
      fun b hb => join b (List.mem_append_left _ hb)
    obtain ⟨u, merged, rest, drafts', kept''⟩ :=
      ih drafts size policy rfl kept' (fun _ => room) join
    exact ⟨u, merged, (exec_bind_ok first).trans rest, drafts', kept''⟩

/-- A stack of levels and bounds that fit is made, and keeps the merge of all bounds. -/
theorem exec_stack {levels : List Object} (some : levels ≠ [])
    (sizes : ∀ o ∈ levels, s.Has o ∧ s.objectSize o = .ok n)
    (room : cs ≠ [] → ∃ blank : LinearSystem α, LinearSystem.free n = .ok blank)
    (join : ∀ c ∈ cs, s.Has (.constraint c) ∧ s.CanJoin n c) :
    ∃ id t merged, (Build.stack levels (cs.map Object.constraint) (.integer p.word)).exec s =
        (.ok id, t) ∧
      s.Drafts id t ⟨n, p.word, levels, cs.map Object.constraint, merged⟩ ∧
      s.KeepsMerge n p cs t merged := by
  obtain ⟨o, more, rfl⟩ := List.exists_cons_of_ne_nil some
  have made : s.Drafts s.stackCells.next { s with
      stackCells := s.stackCells.write s.stackCells.next ⟨n, p.word, [], [], none⟩ }
      ⟨n, p.word, [], [], none⟩ :=
    ⟨.writeStack (.refl s) le_rfl _, le_rfl, Cells.lt_next_write _ _ _,
      Cells.read_write_self _ _ _⟩
  obtain ⟨t, first, drafts⟩ := exec_forM_addLevel made fresh sizes
  obtain ⟨u, merged, second, drafts', kept⟩ :=
    exec_forM_addBound fresh drafts rfl rfl List.map_nil.symm rfl room join
  refine ⟨_, u, merged, ?_, drafts', kept⟩
  have size := (sizes o List.mem_cons_self).2
  unfold Build.stack
  rw [exec_bind_ok exec_get, exec_lift_ok size, exec_lift_ok (Policy.validate_word p)]
  exact (exec_bind_ok rfl).trans ((exec_bind_ok first).trans ((exec_bind_ok second).trans rfl))

end Build

/-! ### Operands -/

/-- Tasks and stacks can be composed. -/
inductive IsOperand : Object → Prop
  | task (t : TaskRef) : IsOperand (.task t)
  | stack (id : Nat) : IsOperand (.stack id)

namespace Store

/-- The levels that an operand brings into a composition. -/
def levelsFrom (s : Store α) : Object → List Object
  | .stack id => (s.stackCells.read id).levels
  | o => [o]

/-- The bounds that an operand brings into a composition. -/
def boundsFrom (s : Store α) : Object → List Object
  | .stack id => (s.stackCells.read id).bounds
  | _ => []

/-- The policy of an operand. A task has none. -/
def policyFrom? (s : Store α) : Object → Option Int
  | .stack id => some (s.stackCells.read id).policy
  | _ => none

/-- A task or a stack over `n` variables. All levels of the stack have its size, its policy is
one, and its bounds can be merged. -/
structure Composable (s : Store α) (n : Int) (x : Object) : Prop where
  sort : IsOperand x
  exist : s.Has x
  nonempty : s.levelsFrom x ≠ []
  levels : ∀ o ∈ s.levelsFrom x, s.Has o ∧ s.objectSize o = .ok n
  bounds : ∃ cs, s.boundsFrom x = cs.map Object.constraint ∧
    (∀ c ∈ cs, s.Has (.constraint c)) ∧ (cs ≠ [] → s.Combinable n cs)
  policy : ∀ w ∈ s.policyFrom? x, ∃ p : Policy, w = p.word

/-- All stacks among some operands have the standard policy. -/
def Standard (s : Store α) (os : List Object) : Prop :=
  ∀ o ∈ os, ∀ w ∈ s.policyFrom? o, w = Policy.standard.word

/-- An operand in a store brings what several operands of an earlier store do. -/
structure Gathers (s : Store α) (os : List Object) (t : Store α) (x : Object) : Prop where
  sort : IsOperand x
  exist : t.Has x
  levels : t.levelsFrom x = os.flatMap s.levelsFrom
  bounds : t.boundsFrom x = os.flatMap s.boundsFrom
  policy : ∃ p : Policy, (∀ w ∈ t.policyFrom? x, w = p.word) ∧ (s.Standard os → p = .standard)

variable {s t u : Store α} {n : Int} {x y : Object} {os : List Object}

theorem Extends.levelsFrom (h : s.Extends t) (exist : s.Has x) :
    t.levelsFrom x = s.levelsFrom x := by
  cases x with
  | stack id => exact congrArg Stack.levels (h.stackCells.read id exist)
  | _ => rfl

theorem Extends.boundsFrom (h : s.Extends t) (exist : s.Has x) :
    t.boundsFrom x = s.boundsFrom x := by
  cases x with
  | stack id => exact congrArg Stack.bounds (h.stackCells.read id exist)
  | _ => rfl

theorem Extends.policyFrom? (h : s.Extends t) (exist : s.Has x) :
    t.policyFrom? x = s.policyFrom? x := by
  cases x with
  | stack id =>
    exact congrArg (fun stack : Stack => some stack.policy) (h.stackCells.read id exist)
  | _ => rfl

/-- An operand brings what it does. -/
theorem Composable.gathers (h : s.Composable n x) (extension : s.Extends t) :
    s.Gathers [x] t x where
  sort := h.sort
  exist := extension.has h.exist
  levels := by rw [extension.levelsFrom h.exist, List.flatMap_singleton]
  bounds := by rw [extension.boundsFrom h.exist, List.flatMap_singleton]
  policy := by
    rw [extension.policyFrom? h.exist]
    cases known : s.policyFrom? x with
    | none => exact ⟨.standard, by simp, fun _ => rfl⟩
    | some w =>
      obtain ⟨p, rfl⟩ := h.policy w known
      refine ⟨p, by simp, fun standard => ?_⟩
      exact Function.LeftInverse.injective Policy.ofWord_word
        (standard x List.mem_cons_self _ known)

theorem Gathers.extends (h : s.Gathers os t x) (extension : t.Extends u) : s.Gathers os u x where
  sort := h.sort
  exist := extension.has h.exist
  levels := by rw [extension.levelsFrom h.exist, h.levels]
  bounds := by rw [extension.boundsFrom h.exist, h.bounds]
  policy := by
    rw [extension.policyFrom? h.exist]
    exact h.policy

/-- A composition has the policy of one of its operands, or the standard one. -/
theorem Gathers.exists_policy {os' : List Object} (first : s.Gathers os t x)
    (second : s.Gathers os' t y) : ∃ p : Policy,
      ((t.policyFrom? x).or (t.policyFrom? y)).getD Policy.standard.word = p.word ∧
      (s.Standard (os ++ os') → p = .standard) := by
  obtain ⟨p, word, standard⟩ := first.policy
  obtain ⟨q, word', standard'⟩ := second.policy
  cases known : t.policyFrom? x with
  | some w =>
    exact ⟨p, word w known, fun all => standard fun o ho => all o (List.mem_append_left _ ho)⟩
  | none =>
    cases known' : t.policyFrom? y with
    | some w =>
      exact ⟨q, word' w known', fun all => standard' fun o ho => all o (List.mem_append_right _ ho)⟩
    | none => exact ⟨.standard, rfl, fun _ => rfl⟩

/-- Operands have levels of one size. -/
theorem levels_of_composable (operands : ∀ x ∈ os, s.Composable n x) :
    (os ≠ [] → os.flatMap s.levelsFrom ≠ []) ∧
      ∀ o ∈ os.flatMap s.levelsFrom, s.Has o ∧ s.objectSize o = .ok n := by
  refine ⟨fun some none => ?_, fun o ho => ?_⟩
  · obtain ⟨x, more, rfl⟩ := List.exists_cons_of_ne_nil some
    exact (operands x List.mem_cons_self).nonempty
      (List.flatMap_eq_nil_iff.1 none x List.mem_cons_self)
  · obtain ⟨x, hx, ho⟩ := List.mem_flatMap.1 ho
    exact (operands x hx).levels o ho

/-- The bounds of operands can be merged all together. -/
theorem bounds_of_composable (operands : ∀ x ∈ os, s.Composable n x) :
    ∃ cs, os.flatMap s.boundsFrom = cs.map Object.constraint ∧
      (cs ≠ [] → ∃ blank : LinearSystem α, LinearSystem.free n = .ok blank) ∧
      ∀ c ∈ cs, s.Has (.constraint c) ∧ s.CanJoin n c := by
  induction os with
  | nil => exact ⟨[], rfl, fun some => absurd rfl some, List.forall_mem_nil _⟩
  | cons x os ih =>
    obtain ⟨first, rest⟩ := List.forall_mem_cons.1 operands
    obtain ⟨cs, listed, exist, combinable⟩ := first.bounds
    obtain ⟨cs', listed', room, join⟩ := ih rest
    refine ⟨cs ++ cs', ?_, fun some => ?_, List.forall_mem_append.2 ⟨fun c hc => ?_, join⟩⟩
    · rw [List.flatMap_cons, listed, listed', List.map_append]
    · by_cases none : cs = []
      · subst none
        exact room some
      · exact (combinable none).room
    · exact ⟨exist c hc, (combinable (List.ne_nil_of_mem hc)).join c hc⟩

variable [Zero α] [Neg α] [BoundScalar α]

/-- The merge of constraints of an earlier store is the merge of what they were. -/
theorem KeepsMerge.of_extends {p : Policy} {cs : List ConstraintRef} {merged : Option ConstraintRef}
    (h : u.KeepsMerge n p cs t merged) (extension : s.Extends u)
    (exist : ∀ c ∈ cs, s.Has (.constraint c)) (combinable : cs ≠ [] → s.Combinable n cs) :
    s.KeepsMerge n p cs t merged := by
  cases merged with
  | none => exact h
  | some c =>
    obtain ⟨k, v, rfl, run⟩ := h
    have some := (Build.mergedConstraint_succeeds_iff.1 ⟨_, v, run⟩).nonempty
    obtain ⟨d, w, made⟩ := Build.mergedConstraint_succeeds_iff (p := p).2 (combinable some)
    obtain ⟨v', again⟩ := Build.extends_mergedConstraint extension exist made
    cases again.symm.trans run
    exact ⟨k, w, rfl, made⟩

/-- A stack is the composition of several operands: it has their levels and their bounds, and
it keeps the merge of the bounds. -/
def Unites (s : Store α) (n : Int) (os : List Object) (t : Store α) (id : Nat) : Prop :=
  ∃ (p : Policy) (cs : List ConstraintRef) (merged : Option ConstraintRef),
    os.flatMap s.boundsFrom = cs.map Object.constraint ∧ (s.Standard os → p = .standard) ∧
    t.stackCells.read id =
      ⟨n, p.word, os.flatMap s.levelsFrom, os.flatMap s.boundsFrom, merged⟩ ∧
    s.KeepsMerge n p cs t merged

theorem Unites.gathers {id : Nat} (h : s.Unites n os t id) (exist : t.Has (.stack id)) :
    s.Gathers os t (.stack id) := by
  obtain ⟨p, cs, merged, -, standard, read, -⟩ := h
  refine ⟨.stack id, exist, ?_, ?_, p, fun w hw => ?_, standard⟩
  · exact congrArg Stack.levels read
  · exact congrArg Stack.bounds read
  · cases hw
    exact congrArg Stack.policy read

end Store

namespace Build

variable [Zero α] [Neg α] [BoundScalar α] {s t u : Store α} {n : Int} {x y : Object}
  {os os' : List Object} {id : Nat}

/-- A composition stacks the levels and the bounds of its operands. -/
theorem exec_compose (sort : IsOperand x) (sort' : IsOperand y)
    (run : (stack (s.levelsFrom x ++ s.levelsFrom y) (s.boundsFrom x ++ s.boundsFrom y)
      (.integer (((s.policyFrom? x).or (s.policyFrom? y)).getD Policy.standard.word))).exec s =
        (.ok id, t)) :
    (compose x y).exec s = (.ok (.stack id), t) := by
  cases sort with
  | task r =>
    cases sort' with
    | task r' => exact exec_bind_ok run
    | stack j => exact exec_bind_ok ((exec_bind_ok exec_get).trans run)
  | stack i =>
    cases sort' with
    | task r' =>
      have none : s.boundsFrom (.task r') = [] := rfl
      rw [none, List.append_nil] at run
      exact exec_bind_ok ((exec_bind_ok exec_get).trans run)
    | stack j => exact exec_bind_ok ((exec_bind_ok exec_get).trans run)

/-- A composition of two objects that bring what several operands do is the composition of
all these operands. -/
theorem unites_of_compose (fresh : s.Fresh) (extension : s.Extends u) (some : os ≠ [])
    (operands : ∀ o ∈ os ++ os', s.Composable n o) (first : s.Gathers os u x)
    (second : s.Gathers os' u y) :
    ∃ id t, (compose x y).exec u = (.ok (.stack id), t) ∧ u.Extends t ∧ t.Has (.stack id) ∧
      s.Unites n (os ++ os') t id := by
  obtain ⟨p, word, standard⟩ := first.exists_policy second
  obtain ⟨nonempty, sizes⟩ := Store.levels_of_composable operands
  obtain ⟨cs, listed, room, join⟩ := Store.bounds_of_composable operands
  have levels : u.levelsFrom x ++ u.levelsFrom y = (os ++ os').flatMap s.levelsFrom := by
    rw [first.levels, second.levels, List.flatMap_append]
  have bounds : u.boundsFrom x ++ u.boundsFrom y = cs.map Object.constraint := by
    rw [first.bounds, second.bounds, ← List.flatMap_append, listed]
  obtain ⟨id, t, merged, run, drafts, kept⟩ := exec_stack (p := p) (fresh.extends extension)
    (nonempty (List.append_ne_nil_of_left_ne_nil some _))
    (fun o ho => ⟨extension.has (sizes o ho).1,
      (extension.objectSize (sizes o ho).1).trans (sizes o ho).2⟩) room
    (fun c hc => ⟨extension.has (join c hc).1, extension.canJoin (join c hc).1 (join c hc).2⟩)
  refine ⟨id, t, exec_compose first.sort second.sort ?_, drafts.extension, drafts.exist, p, cs,
    merged, listed, standard, ?_, ?_⟩
  · rw [levels, bounds, word]
    exact run
  · rw [listed]
    exact drafts.read
  · exact kept.of_extends extension (fun c hc => (join c hc).1)
      fun some => ⟨some, room some, fun c hc => (join c hc).2⟩

end Build

/-! ### Ways to compose -/

/-- A composition of tasks and stacks, put into parentheses. -/
inductive Composition
  | operand (o : Object)
  | above (a b : Composition)

namespace Composition

/-- The tasks and stacks that are composed, in order. -/
def operands : Composition → List Object
  | operand o => [o]
  | above a b => a.operands ++ b.operands

theorem operands_ne_nil (e : Composition) : e.operands ≠ [] := by
  induction e with
  | operand o => exact List.cons_ne_nil _ _
  | above a b iha ihb => exact List.append_ne_nil_of_left_ne_nil iha _

variable [Zero α] [Neg α] [BoundScalar α]

/-- Composes the tasks and stacks. -/
def build : Composition → Build α Object
  | operand o => pure o
  | above a b => do Build.compose (← a.build) (← b.build)

variable {s t u : Store α} {n : Int} {e : Composition}

/-- Whatever is composed brings what its operands do. -/
theorem gathers_of_build (fresh : s.Fresh) (extension : s.Extends u)
    (operands : ∀ o ∈ e.operands, s.Composable n o) :
    ∃ x t, e.build.exec u = (.ok x, t) ∧ u.Extends t ∧ s.Gathers e.operands t x ∧
      (1 < e.operands.length → ∃ id, x = .stack id ∧ s.Unites n e.operands t id) := by
  induction e generalizing u with
  | operand o =>
    exact ⟨o, u, rfl, .refl u, (operands o List.mem_cons_self).gathers extension,
      fun several => absurd several (Nat.lt_irrefl 1)⟩
  | above a b iha ihb =>
    obtain ⟨left, right⟩ := List.forall_mem_append.1 operands
    obtain ⟨x, u₁, first, grows, gathers, -⟩ := iha extension left
    obtain ⟨y, u₂, second, grows', gathers', -⟩ := ihb (extension.trans grows) right
    have extension' := (extension.trans grows).trans grows'
    obtain ⟨id, t, run, grows'', exist, unites⟩ := Build.unites_of_compose fresh extension'
      a.operands_ne_nil operands (gathers.extends grows') gathers'
    refine ⟨.stack id, t, ?_, (grows.trans grows').trans grows'', unites.gathers exist,
      fun _ => ⟨id, rfl, unites⟩⟩
    exact (Build.exec_bind_ok first).trans ((Build.exec_bind_ok second).trans run)

/-- Tasks and stacks over the same variables, whose bounds can be merged, are composed in any
way. The result has the levels and the bounds of all of them, in order, and it keeps an
aggregate of the bounds if there are any. When all policies are the standard one, this is the
aggregate of all bounds made at once. Stacks and constraints that were there before are not
changed. -/
theorem build_composes (several : 1 < e.operands.length) (fresh : s.Fresh)
    (operands : ∀ o ∈ e.operands, s.Composable n o) :
    ∃ id t, e.build.exec s = (.ok (.stack id), t) ∧ (t.stackCells.read id).size = n ∧
      (t.stackCells.read id).levels = e.operands.flatMap s.levelsFrom ∧
      (t.stackCells.read id).bounds = e.operands.flatMap s.boundsFrom ∧
      ((t.stackCells.read id).merged = none ↔ ∀ o ∈ e.operands, s.boundsFrom o = []) ∧
      (s.Standard e.operands → ∀ c, (t.stackCells.read id).merged = some c →
        ∃ cs d u, e.operands.flatMap s.boundsFrom = cs.map Object.constraint ∧
          (Build.mergeConstraints cs n (.integer Policy.standard.word)).exec s = (.ok d, u) ∧
          t.part c = u.part d) ∧
      (∀ i, s.Has (.stack i) → t.stackCells.read i = s.stackCells.read i) ∧
      ∀ c, s.Has (.constraint c) → t.part c = s.part c := by
  obtain ⟨x, t, run, extension, -, unites⟩ := gathers_of_build fresh (.refl s) operands
  obtain ⟨id, rfl, p, cs, merged, listed, standard, read, kept⟩ := unites several
  refine ⟨id, t, run, ?_⟩
  rw [read]
  refine ⟨rfl, rfl, rfl, ?_, fun all c here => ?_, fun i exist => extension.stackCells.read i exist,
    fun c exist => (extension.sameCell exist).sameAsPart⟩
  · rw [← List.flatMap_eq_nil_iff, listed, List.map_eq_nil_iff]
    cases merged with
    | none => exact iff_of_true rfl kept
    | some c =>
      obtain ⟨k, u, -, made⟩ := kept
      exact iff_of_false (Option.some_ne_none c)
        (Build.mergedConstraint_succeeds_iff.1 ⟨_, u, made⟩).nonempty
  · cases here
    obtain rfl := standard all
    obtain ⟨k, u, rfl, made⟩ := kept
    refine ⟨cs, _, _, listed, (Build.exec_bind_ok made).trans rfl, ?_⟩
    exact congrArg (fun d : MergedConstraint α => (⟨d.name, d.system⟩ : Part α))
      (Cells.read_write_self _ _ _).symm

/-! ### A stack and tasks -/

/-- The task of two levels, and a stack of it that is bounded by both leaves. -/
def boundedStack : Store Float :=
  let stack : Stack := ⟨2, Policy.standard.word, [.task (.leaf 0)],
    [.constraint (.leaf 0), .constraint (.leaf 1)], some (.merged 0 [.leaf 0, .leaf 1])⟩
  { Build.twoLevelsWithTask with stackCells := ⟨stack, #[stack]⟩ }

/-- The task above the stack twice. -/
def tripled : Composition :=
  above (operand (.task (.leaf 0))) (above (operand (.stack 0)) (operand (.stack 0)))

theorem composable_boundedStack : ∀ o ∈ tripled.operands, boundedStack.Composable 2 o := by
  have task : boundedStack.Has (.task (.leaf 0)) := Nat.zero_lt_one
  have leaf : boundedStack.Has (.constraint (.leaf 0)) := Nat.zero_lt_two
  have leaf' : boundedStack.Has (.constraint (.leaf 1)) := Nat.one_lt_two
  have combinable : boundedStack.Combinable 2 [.leaf 0, .leaf 1] :=
    (Build.mergedConstraint_succeeds_iff (p := .standard)).1 ⟨_, _, rfl⟩
  have first : boundedStack.Composable 2 (.task (.leaf 0)) :=
    ⟨.task _, task, List.cons_ne_nil _ _, List.forall_mem_singleton.2 ⟨task, rfl⟩,
      ⟨[], rfl, List.forall_mem_nil _, fun some => absurd rfl some⟩, fun w hw => by cases hw⟩
  have second : boundedStack.Composable 2 (.stack 0) :=
    ⟨.stack _, Nat.zero_lt_one, List.cons_ne_nil _ _, List.forall_mem_singleton.2 ⟨task, rfl⟩,
      ⟨[.leaf 0, .leaf 1], rfl,
        List.forall_mem_cons.2 ⟨leaf, List.forall_mem_singleton.2 leaf'⟩, fun _ => combinable⟩,
      fun w hw => ⟨.standard, (Option.some.inj hw).symm⟩⟩
  simp only [tripled, operands, List.cons_append, List.nil_append, List.forall_mem_cons]
  exact ⟨first, second, second, List.forall_mem_nil _⟩

/-- The composition has the task as a level for each operand, and an aggregate of each leaf
twice. -/
theorem boundedStack_composes : ∃ id t d u, tripled.build.exec boundedStack =
      (.ok (.stack id), t) ∧
    (t.stackCells.read id).levels = [.task (.leaf 0), .task (.leaf 0), .task (.leaf 0)] ∧
    (Build.mergeConstraints [.leaf 0, .leaf 1, .leaf 0, .leaf 1] 2
      (.integer Policy.standard.word)).exec boundedStack = (.ok d, u) ∧
    ∃ c, (t.stackCells.read id).merged = some c ∧ t.part c = u.part d := by
  obtain ⟨id, t, run, -, levels, -, some, merge, -⟩ := build_composes (e := tripled)
    (by decide) (fun _ _ _ => rfl) composable_boundedStack
  have standard : boundedStack.Standard tripled.operands := by
    simp only [tripled, operands, List.cons_append, List.nil_append, Store.Standard,
      List.forall_mem_cons]
    have same : ∀ w ∈ boundedStack.policyFrom? (.stack 0), w = Policy.standard.word :=
      fun w hw => (Option.some.inj hw).symm
    exact ⟨fun w hw => (by cases hw), same, same, List.forall_mem_nil _⟩
  cases merged : (t.stackCells.read id).merged with
  | none =>
    have none := some.1 merged (.stack 0) (List.mem_cons_of_mem _ List.mem_cons_self)
    cases none
  | some c =>
    obtain ⟨cs, d, u, listed, made, same⟩ := merge standard c merged
    obtain rfl : [.leaf 0, .leaf 1, .leaf 0, .leaf 1] = cs :=
      List.map_injective_iff.2 (fun _ _ => Object.constraint.inj) listed
    exact ⟨id, t, d, u, run, levels, made, c, merged, same⟩

end Composition

end ControlHierarchy
