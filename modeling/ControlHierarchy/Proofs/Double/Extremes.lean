import ControlHierarchy.Proofs.Double.Bound

/-!
# The ends of the doubles, and the extremes of several

What a double stands for tells it apart from all others but NaNs, so a
comparison with the largest finite double leaves three cases: that double, the
infinite one above it, and the NaNs (`not_lt_largest_iff`).

The larger and the smaller of two doubles are chosen among them, a NaN before
any number and the first before the second. Such a choice among several does not
depend on how they are grouped (`larger_assoc`, `smaller_assoc`), to the bit.
-/

namespace ControlHierarchy.Double

/-- The bits of a double that is no NaN, put together from what it stands for. -/
def Value.bits : Value → Nat
  | .undefined => 0
  | .infinite negative => (if negative then 0x8000000000000000 else 0) + 0x7FF * leadingBit
  | .finite negative m e =>
    (if negative then 0x8000000000000000 else 0) +
      if m < leadingBit then m else (e + 1075).toNat * leadingBit + (m - leadingBit)

theorem bits_value {a : Float} (number : value a ≠ .undefined) :
    (value a).bits = a.toBits.toNat := by
  have bound : a.toBits.toNat < 2 ^ 64 := a.toBits.toBitVec.isLt
  unfold value at number ⊢
  generalize a.toBits.toNat = bits at *
  have fields : bits = bits / 0x8000000000000000 * 0x8000000000000000 +
      bits / leadingBit % 0x800 * leadingBit + bits % leadingBit := by
    simp only [leadingBit]
    omega
  have sign : (if (bits / 0x8000000000000000 == 1) = true then 0x8000000000000000 else 0) =
      bits / 0x8000000000000000 * 0x8000000000000000 := by
    rcases (by omega : bits / 0x8000000000000000 = 0 ∨ bits / 0x8000000000000000 = 1) with h | h
      <;> simp [h]
  have small : bits % leadingBit < leadingBit := Nat.mod_lt _ (by decide)
  by_cases full : bits / leadingBit % 0x800 = 0x7FF
  · by_cases none : bits % leadingBit = 0
    · rw [full, none] at fields
      rw [if_pos full, if_pos none, Value.bits, sign]
      omega
    · exact absurd ((if_pos full).trans (if_neg none)) number
  · by_cases zero : bits / leadingBit % 0x800 = 0
    · rw [zero, Nat.zero_mul] at fields
      rw [if_neg full, if_pos zero, Value.bits, sign, if_pos small]
      omega
    · have biased : (Int.ofNat (bits / leadingBit % 0x800) - 1075 + 1075).toNat =
          bits / leadingBit % 0x800 := by
        rw [Int.sub_add_cancel]
        rfl
      rw [if_neg full, if_neg zero, Value.bits, sign, if_neg (by omega), biased,
        Nat.add_sub_cancel_left, ← Nat.add_assoc]
      omega

/-- Doubles that are no NaN are told apart by what they stand for. -/
theorem eq_of_value_eq {a b : Float} (number : value a ≠ .undefined) (h : value a = value b) :
    a = b := by
  have same : a.toBits.toNat = b.toBits.toNat := by
    rw [← bits_value number, h, bits_value (h ▸ number)]
  obtain ⟨⟨⟨x⟩, hx⟩⟩ := a
  obtain ⟨⟨⟨y⟩, hy⟩⟩ := b
  cases BitVec.eq_of_toNat_eq same
  rfl

theorem finite_bounds {a : Float} {negative : Bool} {m : Nat} {e : Int}
    (h : value a = .finite negative m e) : m < 2 * leadingBit ∧ e ≤ 971 := by
  have canonical : Canonical a.toModel.unpack := canonical_unpack _
  rw [value_eq] at h
  cases unpacked : a.toModel.unpack with
  | notANumber => rw [unpacked] at h; cases h
  | infinity s => rw [unpacked] at h; cases h
  | zero s =>
    rw [unpacked] at h
    cases h
    exact ⟨by decide, by decide⟩
  | finite s k f positive =>
    rw [unpacked] at h canonical
    cases h
    exact ⟨canonical.1, canonical.2.2.1⟩

theorem scaled_nonpos (m : Nat) (e : Int) : scaled true m e ≤ 0 := by
  rcases Nat.eq_zero_or_pos m with rfl | positive
  · rw [scaled_zero]
  · exact (scaled_neg positive e).le

/-- Only the largest finite double reaches as far as it does. -/
theorem eq_largest {a : Float} {negative : Bool} {m : Nat} {e : Int}
    (h : value a = .finite negative m e) (reach : number largest ≤ scaled negative m e) :
    a = largest := by
  obtain ⟨small, high⟩ := finite_bounds h
  have split : number largest = scaled false 9007199254740991 971 := rfl
  rw [split] at reach
  cases negative with
  | true => exact absurd (reach.trans (scaled_nonpos m e)) (not_le.2 (scaled_pos (by decide) 971))
  | false =>
    simp only [scaled, Bool.false_eq_true, if_false, one_mul] at reach
    have top : e = 971 := by
      by_contra below
      exact absurd reach (not_le.2 (scaled_lt_scaled small (by decide) (high.lt_of_ne below)))
    subst top
    have many : ((9007199254740991 : Nat) : ℚ) ≤ m :=
      le_of_mul_le_mul_right reach (zpow_pos two_pos 971)
    have all : m = 9007199254740991 := le_antisymm (Nat.le_of_lt_succ small) (Nat.cast_le.1 many)
    subst all
    exact eq_of_value_eq (by simp [h]) h

/-- What is not below the largest finite double is that double itself, the
infinite one above it, or a NaN. -/
theorem not_lt_largest_iff {a : Float} :
    ¬a < largest ↔ a.isNaN ∨ a = infinity ∨ a = largest := by
  rw [lt_iff, isNaN_iff, place_largest]
  constructor
  · intro h
    cases read : value a with
    | undefined => exact .inl (by rw [place, read]; rfl)
    | infinite negative =>
      cases negative with
      | false =>
        exact .inr (.inl (eq_of_value_eq (by simp [read]) read))
      | true => exact absurd ⟨⊥, by rw [place, read]; rfl, _, rfl, WithBot.bot_lt_coe _⟩ h
    | finite negative m e =>
      refine .inr (.inr (eq_largest read (le_of_not_gt fun less => h ?_)))
      exact ⟨scaled negative m e, by rw [place, read]; rfl, _, rfl, WithBotTop.coe_lt_coe.2 less⟩
  · rintro (nan | rfl | rfl) ⟨p, hp, q, hq, less⟩
    · rw [nan] at hp
      cases hp
    · cases hp
      exact absurd less (not_lt.2 le_top)
    · cases hp
      cases hq
      exact lt_irrefl _ less

/-! ### Choosing one of two doubles -/

theorem not_isNaN_of_le {a b : Float} (h : a ≤ b) : ¬a.isNaN ∧ ¬b.isNaN := by
  obtain ⟨p, hp, q, hq, -⟩ := le_iff.1 h
  rw [isNaN_iff, isNaN_iff, Option.mem_def.1 hp, Option.mem_def.1 hq]
  simp

theorem le_of_le_of_le {a b c : Float} (h : a ≤ b) (h' : b ≤ c) : a ≤ c := by
  obtain ⟨p, hp, q, hq, first⟩ := le_iff.1 h
  obtain ⟨q', hq', r, hr, second⟩ := le_iff.1 h'
  cases hq.symm.trans hq'
  exact le_iff.2 ⟨p, hp, r, hr, first.trans second⟩

theorem le_or_ge_of_numbers {a b : Float} (ha : ¬a.isNaN) (hb : ¬b.isNaN) : a ≤ b ∨ b ≤ a := by
  obtain ⟨p, hp⟩ := Option.ne_none_iff_exists'.1 (mt isNaN_iff.2 ha)
  obtain ⟨q, hq⟩ := Option.ne_none_iff_exists'.1 (mt isNaN_iff.2 hb)
  rcases le_total p q with h | h
  · exact .inl (le_iff.2 ⟨p, hp, q, hq, h⟩)
  · exact .inr (le_iff.2 ⟨q, hq, p, hp, h⟩)

/-- The first of two doubles, if it is a NaN or wins against the second one. -/
def choose (wins : Float → Float → Prop) [DecidableRel wins] (a b : Float) : Float :=
  if a.isNaN || decide (wins a b) then a else b

section Choose

variable {wins : Float → Float → Prop} [DecidableRel wins]

theorem choose_left {a b : Float} (h : a.isNaN ∨ wins a b) : choose wins a b = a := by
  rw [choose, if_pos]
  rw [Bool.or_eq_true, decide_eq_true_iff]
  exact h

theorem choose_right {a b : Float} (number : ¬a.isNaN) (h : ¬wins a b) : choose wins a b = b := by
  rw [choose, if_neg]
  rw [Bool.or_eq_true, decide_eq_true_iff]
  exact not_or.2 ⟨number, h⟩

/-- Which two of three doubles are compared first does not matter, as long as
winning is an order of the numbers. -/
theorem choose_assoc (numbers : ∀ {a b}, wins a b → ¬b.isNaN)
    (trans : ∀ {a b c}, wins a b → wins b c → wins a c)
    (total : ∀ {a b}, ¬a.isNaN → ¬b.isNaN → wins a b ∨ wins b a) (a b c : Float) :
    choose wins (choose wins a b) c = choose wins a (choose wins b c) := by
  by_cases nan : a.isNaN
  · rw [choose_left (.inl nan), choose_left (.inl nan), choose_left (.inl nan)]
  by_cases first : wins a b
  · rw [choose_left (.inr first)]
    by_cases second : wins b c
    · rw [choose_left (.inr second), choose_left (.inr first),
        choose_left (.inr (trans first second))]
    · rw [choose_right (numbers first) second]
  · rw [choose_right nan first]
    by_cases second : b.isNaN ∨ wins b c
    · rw [choose_left second, choose_right nan first]
    · obtain ⟨number, second⟩ := not_or.1 second
      rw [choose_right number second, choose_right nan fun third => second ?_]
      exact trans ((total nan number).resolve_left first) third

end Choose

theorem larger_assoc (a b c : Float) : larger (larger a b) c = larger a (larger b c) :=
  @choose_assoc (fun a b => b ≤ a) _ (fun h => (not_isNaN_of_le h).1)
    (fun h h' => le_of_le_of_le h' h) (fun ha hb => le_or_ge_of_numbers hb ha) a b c

theorem smaller_assoc (a b c : Float) : smaller (smaller a b) c = smaller a (smaller b c) :=
  @choose_assoc (· ≤ ·) _ (fun h => (not_isNaN_of_le h).2) le_of_le_of_le le_or_ge_of_numbers a b c

end ControlHierarchy.Double
