import ControlHierarchy.Proofs.Double.Reading
import Mathlib.Algebra.Order.Field.Power
import Mathlib.Algebra.Order.Field.Rat
import Mathlib.Order.WithBotTop
import Mathlib.Tactic.Linarith
import Mathlib.Tactic.Ring

/-!
# Doubles as bounds

A double bounds exact numbers. It stands at a place of the extended line: a
finite double at its number, an infinite one at one of the two ends; a NaN
stands nowhere (`place`). An exact number respects an upper bound when it does
not lie above its place (`AtMost`), and a lower bound when it does not lie below
(`AtLeast`), so that no number respects a NaN.

Main statements: the comparisons of doubles are those of their places (`le_iff`,
`lt_iff`); a negated bound binds the negated number from the other side
(`atMost_neg`, `atLeast_neg`); the larger of two lower bounds and the smaller of
two upper bounds bind as both do (`atLeast_larger`, `atMost_smaller`).
-/

namespace ControlHierarchy.Double

open Float.Model Float.Model.UnpackedFloat

/-- The number `± m * 2 ^ e`. -/
def scaled (negative : Bool) (m : Nat) (e : Int) : ℚ := (if negative then -1 else 1) * (m * 2 ^ e)

def Value.place : Value → Option (WithBotTop ℚ)
  | .undefined => none
  | .infinite negative => some (if negative then ⊥ else ⊤)
  | .finite negative m e => some (scaled negative m e)

/-- The place of a double on the extended line. -/
def place (a : Float) : Option (WithBotTop ℚ) := (value a).place

/-- The number that a finite double stands for; other doubles read as zero. -/
def number (a : Float) : ℚ :=
  match value a with
  | .finite negative m e => scaled negative m e
  | _ => 0

/-! ### Order -/

/-- Of two canonical numbers the one with the larger exponent is larger. -/
theorem scaled_lt_scaled {m k : Nat} {e f : Int} (small : m < 2 * leadingBit)
    (large : leadingBit ≤ k) (h : e < f) :
    (m : ℚ) * 2 ^ e < k * 2 ^ f := by
  have power : (0 : ℚ) < 2 ^ e := by positivity
  calc (m : ℚ) * 2 ^ e < (2 * leadingBit : Nat) * 2 ^ e := by gcongr
    _ = leadingBit * 2 ^ (e + 1) := by rw [zpow_add_one₀ two_ne_zero]; push_cast; ring
    _ ≤ k * 2 ^ f := by
      gcongr
      · norm_num
      · omega

/-- Comparing exponents first and mantissas second is comparing canonical numbers. -/
theorem compare_then_compare {m k : Nat} {e f : Int} {s t : Sign} {hm : 0 < m} {hk : 0 < k}
    (h : Canonical (.finite s m e hm)) (h' : Canonical (.finite t k f hk)) :
    (compare e f).then (compare m k) = cmp ((m : ℚ) * 2 ^ e) (k * 2 ^ f) := by
  obtain ⟨small, low, -, normal⟩ := h
  obtain ⟨small', low', -, normal'⟩ := h'
  rcases lt_trichotomy e f with less | rfl | more
  · have order := scaled_lt_scaled small (normal'.resolve_right (by omega)) less
    rw [compare_lt_iff_lt.2 less, (cmp_eq_lt_iff _ _).2 order]
    rfl
  · have power : (0 : ℚ) < 2 ^ e := by positivity
    rw [compare_eq_iff_eq.2 rfl, cmp_mul_pos_right power, Nat.strictMono_cast.cmp_map_eq,
      cmp_eq_compare]
    rfl
  · have order := scaled_lt_scaled small' (normal.resolve_right (by omega)) more
    rw [compare_gt_iff_gt.2 more, (cmp_eq_gt_iff _ _).2 order]
    rfl

/-- The order of two places, if there are two. -/
def comparePlaces : Option (WithBotTop ℚ) → Option (WithBotTop ℚ) → Option Ordering
  | some p, some q => some (cmp p q)
  | _, _ => none

theorem comparePlaces_coe (p q : ℚ) :
    comparePlaces (some (p : WithBotTop ℚ)) (some (q : WithBotTop ℚ)) = some (cmp p q) :=
  congrArg some (WithBotTop.coe_strictMono.cmp_map_eq p q)

theorem scaled_zero (negative : Bool) (e : Int) : scaled negative 0 e = 0 := by
  simp [scaled]

theorem scaled_pos {m : Nat} (h : 0 < m) (e : Int) : 0 < scaled false m e := by
  simp only [scaled, Bool.false_eq_true, if_false, one_mul]
  positivity

theorem scaled_not (negative : Bool) (m : Nat) (e : Int) :
    scaled (!negative) m e = -scaled negative m e := by
  cases negative <;> simp [scaled]

theorem scaled_neg {m : Nat} (h : 0 < m) (e : Int) : scaled true m e < 0 := by
  have opposite := scaled_not false m e
  have positive := scaled_pos h e
  simp only [Bool.not_false] at opposite
  linarith

/-- The comparison of canonical forms is that of the places of their values. -/
theorem compare_eq_comparePlaces {u v : UnpackedFloat} (hu : Canonical u) (hv : Canonical v) :
    u.compare v = comparePlaces (Value.ofUnpacked u).place (Value.ofUnpacked v).place := by
  cases u with
  | notANumber => cases v <;> rfl
  | infinity s =>
    cases v with
    | notANumber => rfl
    | infinity t => cases s <;> cases t <;> rfl
    | zero t => cases s <;> rfl
    | finite t k f hk => cases s <;> rfl
  | zero s =>
    cases v with
    | notANumber => rfl
    | infinity t => cases t <;> rfl
    | zero t =>
      simp only [Value.ofUnpacked, Value.place, comparePlaces_coe, scaled_zero]
      rfl
    | finite t k f hk =>
      simp only [Value.ofUnpacked, Value.place, comparePlaces_coe, scaled_zero]
      cases t with
      | negative => exact congrArg some ((cmp_eq_gt_iff _ _).2 (scaled_neg hk f)).symm
      | positive => exact congrArg some ((cmp_eq_lt_iff _ _).2 (scaled_pos hk f)).symm
  | finite s m e hm =>
    cases v with
    | notANumber => cases s <;> rfl
    | infinity t => cases s <;> cases t <;> rfl
    | zero t =>
      simp only [Value.ofUnpacked, Value.place, comparePlaces_coe, scaled_zero]
      cases s with
      | negative => exact congrArg some ((cmp_eq_lt_iff _ _).2 (scaled_neg hm e)).symm
      | positive => exact congrArg some ((cmp_eq_gt_iff _ _).2 (scaled_pos hm e)).symm
    | finite t k f hk =>
      simp only [Value.ofUnpacked, Value.place, comparePlaces_coe]
      have magnitudes := compare_then_compare hu hv
      cases s <;> cases t
      · have opposite : StrictAnti fun a : ℚ => -1 * a := fun a b h => by linarith
        refine congrArg some ?_
        change ((compare e f).then (compare m k)).swap = cmp (-1 * _) (-1 * _)
        rw [magnitudes, cmp_swap, opposite.cmp_map_eq]
      · exact congrArg some ((cmp_eq_lt_iff _ _).2 ((scaled_neg hm e).trans (scaled_pos hk f))).symm
      · exact congrArg some ((cmp_eq_gt_iff _ _).2 ((scaled_neg hk f).trans (scaled_pos hm e))).symm
      · refine congrArg some ?_
        change (compare e f).then (compare m k) = cmp (1 * _) (1 * _)
        rw [magnitudes, one_mul, one_mul]

theorem compare_eq (a b : Float) :
    a.toModel.unpack.compare b.toModel.unpack = comparePlaces (place a) (place b) := by
  rw [place, place, value_eq, value_eq]
  exact compare_eq_comparePlaces (canonical_unpack _) (canonical_unpack _)

/-- One double is at most another when both have a place, the first one not
above the second. -/
theorem le_iff {a b : Float} : a ≤ b ↔ ∃ p ∈ place a, ∃ q ∈ place b, p ≤ q := by
  have reading : a ≤ b ↔ ((a.toModel.unpack.compare b.toModel.unpack).any Ordering.isLE) = true :=
    decide_eq_true_iff
  rw [reading, compare_eq]
  cases place a <;> cases place b <;> simp [comparePlaces, Ordering.isLE_iff_ne_gt, cmp_eq_gt_iff]

theorem lt_iff {a b : Float} : a < b ↔ ∃ p ∈ place a, ∃ q ∈ place b, p < q := by
  have reading : a < b ↔ (a.toModel.unpack.compare b.toModel.unpack == some .lt) = true :=
    decide_eq_true_iff
  rw [reading, compare_eq]
  cases place a <;> cases place b <;> simp [comparePlaces, cmp_eq_lt_iff]

/-- A NaN is a double without a place. -/
theorem isNaN_iff {a : Float} : a.isNaN ↔ place a = none := by
  have reading : a.isNaN = a.toModel.unpack.isNaN := rfl
  rw [reading, place, value_eq]
  cases a.toModel.unpack <;> simp [UnpackedFloat.isNaN, Value.ofUnpacked, Value.place]

/-! ### Bounds -/

/-- A number does not lie above the place of an upper bound. -/
def AtMost (x : ℚ) (a : Float) : Prop := ∃ p ∈ place a, (x : WithBotTop ℚ) ≤ p

/-- A number does not lie below the place of a lower bound. -/
def AtLeast (x : ℚ) (a : Float) : Prop := ∃ p ∈ place a, p ≤ (x : WithBotTop ℚ)

/-- A number stands at the place of a double. -/
def At (x : ℚ) (a : Float) : Prop := place a = some (x : WithBotTop ℚ)

instance (x : ℚ) (a : Float) : Decidable (AtMost x a) :=
  inferInstanceAs (Decidable (∃ p ∈ place a, _ ≤ p))

instance (x : ℚ) (a : Float) : Decidable (AtLeast x a) :=
  inferInstanceAs (Decidable (∃ p ∈ place a, p ≤ _))

instance (x : ℚ) (a : Float) : Decidable (At x a) := inferInstanceAs (Decidable (place a = _))

theorem atMost_of_place {x : ℚ} {a : Float} {p : WithBotTop ℚ} (h : place a = some p) :
    AtMost x a ↔ (x : WithBotTop ℚ) ≤ p := by
  simp [AtMost, h]

theorem atLeast_of_place {x : ℚ} {a : Float} {p : WithBotTop ℚ} (h : place a = some p) :
    AtLeast x a ↔ p ≤ (x : WithBotTop ℚ) := by
  simp [AtLeast, h]

theorem at_iff {x : ℚ} {a : Float} : At x a ↔ AtMost x a ∧ AtLeast x a := by
  cases h : place a with
  | none => simp [At, AtMost, AtLeast, h]
  | some p =>
    rw [atMost_of_place h, atLeast_of_place h, At, h, Option.some_inj, le_antisymm_iff, and_comm]

theorem atMost_neg {x : ℚ} {a : Float} : AtMost (-x) (-a) ↔ AtLeast x a := by
  unfold AtMost AtLeast place
  rw [value_neg]
  cases value a with
  | undefined => simp [Value.neg, Value.place]
  | infinite negative => cases negative <;> simp [Value.neg, Value.place]
  | finite negative m e =>
    simp only [Value.neg, Value.place, Option.mem_some_iff, exists_eq_left', scaled_not]
    rw [WithBotTop.coe_le_coe, WithBotTop.coe_le_coe, neg_le_neg_iff]

theorem number_neg (a : Float) : number (-a) = -number a := by
  unfold number
  rw [value_neg]
  cases value a with
  | finite negative m e => exact scaled_not negative m e
  | _ => exact neg_zero.symm

theorem value_neg_neg (a : Float) : value (- -a) = value a := by
  rw [value_neg, value_neg]
  cases value a <;> simp [Value.neg]

theorem place_neg_eq_none {a : Float} : place (-a) = none ↔ place a = none := by
  unfold place
  rw [value_neg]
  cases value a <;> simp [Value.neg, Value.place]

theorem atLeast_neg {x : ℚ} {a : Float} : AtLeast (-x) (-a) ↔ AtMost x a := by
  rw [← atMost_neg, neg_neg]
  unfold AtMost place
  rw [value_neg_neg]

/-- The place of the larger of two doubles; there is none if one of them is a NaN. -/
theorem place_larger (a b : Float) : place (larger a b) = Option.map₂ max (place a) (place b) := by
  have nan := isNaN_iff (a := a)
  have order := le_iff (a := b) (b := a)
  unfold larger
  cases ha : place a with
  | none => rw [nan.2 ha, Bool.true_or, if_pos rfl, ha, Option.map₂_none_left]
  | some p =>
    cases hb : place b with
    | none => simp_all
    | some q =>
      simp only [ha, hb] at nan order
      by_cases h : q ≤ p
      · simp_all
      · simp_all [max_eq_right (not_le.1 h).le]

theorem place_smaller (a b : Float) :
    place (smaller a b) = Option.map₂ min (place a) (place b) := by
  have nan := isNaN_iff (a := a)
  have order := le_iff (a := a) (b := b)
  unfold smaller
  cases ha : place a with
  | none => rw [nan.2 ha, Bool.true_or, if_pos rfl, ha, Option.map₂_none_left]
  | some p =>
    cases hb : place b with
    | none => simp_all
    | some q =>
      simp only [ha, hb] at nan order
      by_cases h : p ≤ q
      · simp_all
      · simp_all [min_eq_right (not_le.1 h).le]

theorem atLeast_larger {x : ℚ} {a b : Float} :
    AtLeast x (larger a b) ↔ AtLeast x a ∧ AtLeast x b := by
  unfold AtLeast
  rw [place_larger]
  cases place a <;> cases place b <;> simp

theorem atMost_smaller {x : ℚ} {a b : Float} :
    AtMost x (smaller a b) ↔ AtMost x a ∧ AtMost x b := by
  unfold AtMost
  rw [place_smaller]
  cases place a <;> cases place b <;> simp

theorem place_largest : place largest = some (number largest : WithBotTop ℚ) := rfl

/-- Whole numbers of 53 bits are far below the largest double. -/
theorem le_number_largest {q : ℚ} (h : q ≤ 9007199254740991) : q ≤ number largest := by
  have split : number largest = scaled false 9007199254740991 971 := rfl
  rw [split, scaled, if_neg Bool.false_ne_true, one_mul]
  calc q ≤ (9007199254740991 : Nat) * 1 := by simpa using h
    _ ≤ (9007199254740991 : Nat) * 2 ^ (971 : Int) := by
      gcongr
      exact one_le_zpow₀ one_le_two (by norm_num)

theorem atMost_infinity (x : ℚ) : AtMost x infinity := by
  rw [atMost_of_place (p := ⊤) rfl]
  exact le_top

theorem atLeast_neg_largest {x : ℚ} : AtLeast x (-largest) ↔ -number largest ≤ x := by
  rw [← neg_neg x, atLeast_neg, atMost_of_place place_largest]
  rw [WithBotTop.coe_le_coe, neg_neg, neg_le]

/-- An upper bound that is not below the largest finite number excludes nothing
up to there. -/
theorem atMost_of_not_lt_largest {x : ℚ} {a : Float} (number : place a ≠ none)
    (unbounded : ¬ a < largest) (h : x ≤ Double.number largest) : AtMost x a := by
  obtain ⟨p, hp⟩ := Option.ne_none_iff_exists'.1 number
  have reach : ((Double.number largest : ℚ) : WithBotTop ℚ) ≤ p := by
    simpa [lt_iff, hp, place_largest] using unbounded
  rw [atMost_of_place hp]
  exact le_trans (WithBotTop.coe_le_coe.2 h) reach

end ControlHierarchy.Double
