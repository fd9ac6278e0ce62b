import ControlHierarchy.Proofs.Double.Bound
import ControlHierarchy.Proofs.Tensor.Identity

/-!
# Unit rows of doubles

A product with a row of an identity matrix computes with more than the entry
that the row picks: it multiplies the entry by one, all others by zero, and adds
up. For finite doubles none of these steps rounds, and only the sign of a zero
can get lost. To multiply by one is exact, since the bits that the mantissa of
one brings along are shifted out again (`unpack_one_mul`). So the result stands
at the place of the entry (`selects_place`).
-/

namespace ControlHierarchy.Double

open Float.Model Float.Model.UnpackedFloat

/-- A double that stands for an exact number. -/
def IsFinite (a : Float) : Prop := ∃ q : ℚ, At q a

theorem IsFinite.of_value {a : Float} {negative : Bool} {m : Nat} {e : Int}
    (h : value a = .finite negative m e) : IsFinite a :=
  ⟨scaled negative m e, congrArg Value.place h⟩

/-! ### Rounding that changes nothing -/

/-- Zeros are shifted out without a trace. -/
theorem shiftRight_exact (m k : Nat) :
    (⟨m * 2 ^ k, false, false⟩ : ExtendedMantissa) >>> k = ⟨m, false, false⟩ := by
  change k.repeat ExtendedMantissa.shiftRightOne _ = _
  induction k generalizing m with
  | zero => rw [pow_zero, mul_one]; rfl
  | succ k ih =>
    rw [pow_succ', ← mul_assoc, Nat.repeat, ih, ExtendedMantissa.shiftRightOne]
    simp

/-- A canonical number has the exponent that the format wants for it. -/
theorem targetExponent_of_canonical {s : Sign} {m : Nat} {e : Int} {positive : 0 < m}
    (h : Canonical (.finite s m e positive)) (k : Nat) :
    Format.binary64.targetExponent (totalExponent (m * 2 ^ k) (e - k)) = e := by
  obtain ⟨small, low, -, normal⟩ := h
  have log : (m * 2 ^ k).log2 = m.log2 + k := by
    have around := (Nat.log2_eq_iff positive.ne').1 rfl
    refine (Nat.log2_eq_iff (by positivity)).2 ⟨?_, ?_⟩
    · rw [pow_add]
      exact Nat.mul_le_mul_right _ around.1
    · rw [Nat.add_right_comm, pow_add]
      exact Nat.mul_lt_mul_of_pos_right around.2 (by positivity)
  have lower := Nat.le_log2 (n := m) (k := 52) (by omega)
  have upper := Nat.log2_lt (n := m) (k := 53) (by omega)
  have bits : (Format.binary64.mantissaBits : Int) = 53 := rfl
  have least : Format.binary64.minExponent = -1074 := rfl
  rw [Format.targetExponent, totalExponent, log, bits, least]
  simp only [leadingBit] at small normal
  omega

/-- To round a canonical number, with zeros behind its mantissa, takes the zeros away. -/
theorem roundWithAccuracy_of_canonical {s : Sign} {m : Nat} {e : Int} {positive : 0 < m}
    (h : Canonical (.finite s m e positive)) (k : Nat) :
    roundWithAccuracy .binary64 s (m * 2 ^ k) (e - k) .exact = .finite s m e positive := by
  have shift (k : Nat) : shiftToTargetExponent .binary64 (m * 2 ^ k) (e - k) .exact =
      (⟨m, false, false⟩, e) := by
    have amount : (e - (e - k)).toNat = k := by omega
    rw [shiftToTargetExponent, shiftToExponent, targetExponent_of_canonical h, amount,
      ExtendedMantissa.ofMantissaAndAccuracy, shiftRight_exact, Int.sub_add_cancel]
  have again : shiftToTargetExponent .binary64 m e .exact = (⟨m, false, false⟩, e) := by
    simpa using shift 0
  rw [roundWithAccuracy, shift]
  simp only [ExtendedMantissa.roundedMantissa, ExtendedMantissa.accuracy,
    Accuracy.roundToNearestEven, again, dif_neg positive.ne']

/-! ### Sums and products with zeros and ones -/

theorem place_of_unpack {a : Float} {u : UnpackedFloat} (h : a.toModel.unpack = u) :
    place a = (Value.ofUnpacked u).place := by
  rw [place, value_eq, h]

/-- Where a result stands that the logic packs. -/
theorem place_of_pack {a : Float} {u : UnpackedFloat} (canonical : Canonical u)
    (packed : a.toModel = .pack u) : place a = (Value.ofUnpacked u).place := by
  refine place_of_unpack ?_
  rw [packed]
  exact unpack_pack canonical

theorem place_zero (s : Sign) :
    (Value.ofUnpacked (.zero s)).place = some ((0 : ℚ) : WithBotTop ℚ) := by
  rw [Value.ofUnpacked, Value.place, scaled_zero]

/-- Only zeros stand at zero. -/
theorem exists_zero_of_place {a : Float} (h : At 0 a) : ∃ s, a.toModel.unpack = .zero s := by
  rw [At] at h
  cases unpacked : a.toModel.unpack with
  | notANumber => cases (place_of_unpack unpacked).symm.trans h
  | infinity s => cases s <;> cases (place_of_unpack unpacked).symm.trans h
  | zero s => exact ⟨s, rfl⟩
  | finite s m e positive =>
    have same := (place_of_unpack unpacked).symm.trans h
    have zero : scaled (isNegative s) m e = 0 := WithBotTop.coe_injective (Option.some.inj same)
    cases s with
    | positive => exact absurd zero (scaled_pos positive e).ne'
    | negative => exact absurd zero (scaled_neg positive e).ne

theorem place_one_mul (a : Float) : place (1 * a) = place a := by
  have canonical : Canonical a.toModel.unpack := canonical_unpack _
  have product : UnpackedFloat.mul .binary64 (.finite .positive leadingBit (-52) (by decide))
      a.toModel.unpack = a.toModel.unpack := by
    cases unpacked : a.toModel.unpack with
    | notANumber => rfl
    | infinity s => cases s <;> rfl
    | zero s => cases s <;> rfl
    | finite s m e positive =>
      rw [unpacked] at canonical
      have sign : .positive * s = s := by cases s <;> rfl
      have zeros : leadingBit * m = m * 2 ^ 52 := Nat.mul_comm _ _
      have exponent : -52 + e = e - (52 : Nat) := by omega
      rw [UnpackedFloat.mul, sign, zeros, exponent, roundWithAccuracy_of_canonical canonical]
  have packed : (1 * a).toModel = .pack a.toModel.unpack := by
    conv_rhs => rw [← product]
    rfl
  rw [place_of_pack canonical packed, place_of_unpack rfl]

theorem place_zero_mul {a : Float} (finite : IsFinite a) : At 0 (0 * a) := by
  obtain ⟨q, there⟩ := finite
  have product : ∃ s, UnpackedFloat.mul .binary64 (.zero .positive) a.toModel.unpack = .zero s := by
    cases unpacked : a.toModel.unpack with
    | notANumber => cases (place_of_unpack unpacked).symm.trans there
    | infinity s => cases s <;> cases (place_of_unpack unpacked).symm.trans there
    | zero s => exact ⟨_, rfl⟩
    | finite s m e positive => exact ⟨_, rfl⟩
  obtain ⟨s, product⟩ := product
  have canonical : Canonical (.zero s) := trivial
  have packed : (0 * a).toModel = .pack (.zero s) := by
    rw [← product]
    rfl
  rw [At, place_of_pack canonical packed, place_zero]

/-- A sum with a zero is the other summand, up to the sign of a zero. -/
theorem add_zero_cases (u : UnpackedFloat) (s : Sign) :
    UnpackedFloat.add .binary64 (.zero s) u = UnpackedFloat.add .binary64 u (.zero s) ∧
      (UnpackedFloat.add .binary64 u (.zero s) = u ∨
        ∃ t t', u = .zero t ∧ UnpackedFloat.add .binary64 u (.zero s) = .zero t') := by
  cases u with
  | notANumber => exact ⟨rfl, .inl rfl⟩
  | infinity t => exact ⟨rfl, .inl rfl⟩
  | zero t => cases s <;> cases t <;> exact ⟨rfl, .inr ⟨_, _, rfl, rfl⟩⟩
  | finite t m e positive => exact ⟨rfl, .inl rfl⟩

/-- To add a zero, from either side, does not move a double. -/
theorem place_add_zero {a z : Float} (zero : At 0 z) :
    place (a + z) = place a ∧ place (z + a) = place a := by
  obtain ⟨s, unpacked⟩ := exists_zero_of_place zero
  obtain ⟨comm, sum⟩ := add_zero_cases a.toModel.unpack s
  have right :
      (a + z).toModel = .pack (UnpackedFloat.add .binary64 a.toModel.unpack (.zero s)) := by
    rw [← unpacked]
    rfl
  have left :
      (z + a).toModel = .pack (UnpackedFloat.add .binary64 a.toModel.unpack (.zero s)) := by
    rw [← comm, ← unpacked]
    rfl
  rcases sum with same | ⟨t, t', zero', same⟩
  · rw [same] at right left
    rw [place_of_pack (canonical_unpack _) right, place_of_pack (canonical_unpack _) left,
      place_of_unpack rfl]
    exact ⟨rfl, rfl⟩
  · have canonical : Canonical (.zero t') := trivial
    rw [same] at right left
    rw [place_of_pack canonical right, place_of_pack canonical left, place_of_unpack zero',
      place_zero, place_zero]
    exact ⟨rfl, rfl⟩

theorem at_zero : At 0 0 := (place_of_unpack rfl).trans (place_zero .positive)

/-- A unit row picks out an entry of finite doubles, as a number. -/
theorem selects_place : RowMatrix.Selects place IsFinite where
  one_mul a _ := place_one_mul a
  zero_mul _ finite := (place_zero_mul finite).trans at_zero.symm
  zero_add _ _ none := (place_add_zero (none.trans at_zero)).2
  add_zero _ _ none := (place_add_zero (none.trans at_zero)).1

end ControlHierarchy.Double
