import ControlHierarchy.Scalar
import Mathlib

/-!
# Reading a double

The logic knows a double through its unpacked form: a sign, a mantissa and an
exponent, or one of the special values. The running program reads the same
double off its bits, as a `Value`. Here the two readings are shown to be one
(`value_eq`).

The unpacked form of a double is canonical: its mantissa has 53 bits, or its
exponent is the least one. Packing a canonical form loses nothing, so that
negation, which is defined on unpacked forms, turns the sign of a value and
leaves the rest (`value_neg`).
-/

namespace ControlHierarchy.Double

open Float.Model Float.Model.UnpackedFloat

/-- What unpacking gives: special values, and finite numbers in the one form
that the format has for them. -/
def Canonical : UnpackedFloat → Prop
  | .finite _ m e _ => m < 2 * leadingBit ∧ -1074 ≤ e ∧ e ≤ 971 ∧ (leadingBit ≤ m ∨ e = -1074)
  | _ => True

section Fields

variable (b : BitVec 64)

theorem toNat_unpackMantissa : (@unpackMantissa .binary64 b).toNat = b.toNat % leadingBit := by
  simp [unpackMantissa, leadingBit]

theorem toNat_unpackExponent :
    (@unpackExponent .binary64 b).toNat = b.toNat / leadingBit % 0x800 := by
  simp [unpackExponent, leadingBit, Nat.shiftRight_eq_div_pow]

/-- The leading bit, which is not stored, stands above the stored ones. -/
theorem toNat_leadingBit (m : BitVec 52) : (1#1 ++ m).toNat = leadingBit + m.toNat := by
  rw [BitVec.toNat_append, ← Nat.shiftLeft_add_eq_or_of_lt m.isLt]
  rfl

theorem unpackExponent_eq_full :
    @unpackExponent .binary64 b = -1#_ ↔ b.toNat / leadingBit % 0x800 = 0x7FF := by
  rw [← BitVec.toNat_inj, toNat_unpackExponent]
  rfl

theorem unpackExponent_eq_zero :
    @unpackExponent .binary64 b = 0#_ ↔ b.toNat / leadingBit % 0x800 = 0 := by
  rw [← BitVec.toNat_inj, toNat_unpackExponent]
  rfl

theorem unpackMantissa_eq_zero : @unpackMantissa .binary64 b = 0#_ ↔ b.toNat % leadingBit = 0 := by
  rw [← BitVec.toNat_inj, toNat_unpackMantissa]
  rfl

theorem unpackSign_eq_zero : @unpackSign .binary64 b = 0#1 ↔ b.toNat / 0x8000000000000000 ≠ 1 := by
  have bound : b.toNat < 2 ^ 64 := b.isLt
  rw [← BitVec.toNat_inj]
  simp [unpackSign, Nat.shiftRight_eq_div_pow]
  omega

/-- The five forms of a double, told apart by its exponent and its fraction. -/
theorem unpack_cases :
    let s := Sign.ofBitVec (@unpackSign .binary64 b)
    let e := b.toNat / leadingBit % 0x800
    let f := b.toNat % leadingBit
    (e = 0x7FF ∧ f = 0 ∧ UnpackedFloat.unpack .binary64 b = .infinity s) ∨
      (e = 0x7FF ∧ f ≠ 0 ∧ UnpackedFloat.unpack .binary64 b = .notANumber) ∨
      (e = 0 ∧ f = 0 ∧ UnpackedFloat.unpack .binary64 b = .zero s) ∨
      (e = 0 ∧ ∃ positive : 0 < f, UnpackedFloat.unpack .binary64 b =
        .finite s f (-1074) positive) ∨
      (e ≠ 0 ∧ e ≠ 0x7FF ∧ ∃ positive : 0 < leadingBit + f,
        UnpackedFloat.unpack .binary64 b = .finite s (leadingBit + f) (e - 1075) positive) := by
  intro s e f
  have mantissa : (@unpackMantissa .binary64 b).toNat = f := toNat_unpackMantissa b
  have exponent : (@unpackExponent .binary64 b).toNat = e := toNat_unpackExponent b
  have implicit := toNat_leadingBit (@unpackMantissa .binary64 b)
  have bias : Format.binary64.exponentBias = 1023 := rfl
  rw [UnpackedFloat.unpack]
  by_cases full : e = 0x7FF
  · rw [if_pos ((unpackExponent_eq_full b).2 full)]
    by_cases none : f = 0
    · exact .inl ⟨full, none, if_pos ((unpackMantissa_eq_zero b).2 none)⟩
    · exact .inr (.inl ⟨full, none, if_neg (mt (unpackMantissa_eq_zero b).1 none)⟩)
  · rw [if_neg (mt (unpackExponent_eq_full b).1 full)]
    by_cases zero : e = 0
    · rw [if_pos ((unpackExponent_eq_zero b).2 zero)]
      by_cases none : f = 0
      · exact .inr (.inr (.inl ⟨zero, none, dif_pos ((unpackMantissa_eq_zero b).2 none)⟩))
      · refine .inr (.inr (.inr (.inl ⟨zero, by omega, ?_⟩)))
        rw [dif_neg (mt (unpackMantissa_eq_zero b).1 none)]
        simp only [mantissa, exponent, zero, bias]
        rfl
    · rw [if_neg (mt (unpackExponent_eq_zero b).1 zero)]
      refine .inr (.inr (.inr (.inr ⟨zero, full, by simp [leadingBit], ?_⟩)))
      simp only [implicit, mantissa, exponent, bias]
      rfl

end Fields

/-- Whether a sign is negative. -/
def isNegative : Sign → Bool
  | .negative => true
  | .positive => false

/-- The value of an unpacked double. -/
def Value.ofUnpacked : UnpackedFloat → Value
  | .notANumber => .undefined
  | .infinity s => .infinite (isNegative s)
  | .zero s => .finite (isNegative s) 0 (-1074)
  | .finite s m e _ => .finite (isNegative s) m e

theorem isNegative_ofBitVec_unpackSign (b : BitVec 64) :
    isNegative (Sign.ofBitVec (@unpackSign .binary64 b)) = (b.toNat / 0x8000000000000000 == 1) := by
  have clear := unpackSign_eq_zero b
  rw [Sign.ofBitVec]
  split <;> simp_all [isNegative]

theorem canonical_unpack (b : BitVec 64) : Canonical (UnpackedFloat.unpack .binary64 b) := by
  obtain ⟨-, -, h⟩ | ⟨-, -, h⟩ | ⟨-, -, h⟩ | ⟨-, positive, h⟩ | ⟨notZero, notFull, positive, h⟩ :=
    unpack_cases b
  · rw [h]; trivial
  · rw [h]; trivial
  · rw [h]; trivial
  · rw [h]
    have bound : b.toNat % leadingBit < leadingBit := Nat.mod_lt _ (by decide)
    exact ⟨by omega, le_refl _, by norm_num, .inr rfl⟩
  · rw [h]
    simp only [Canonical, leadingBit] at *
    omega

/-- The running program and the logic read a double alike. -/
theorem value_eq (a : Float) : value a = .ofUnpacked a.toModel.unpack := by
  have sign := isNegative_ofBitVec_unpackSign a.toModel.toBits.toBitVec
  change _ = Value.ofUnpacked (UnpackedFloat.unpack .binary64 a.toModel.toBits.toBitVec)
  change (if a.toModel.toBits.toBitVec.toNat / leadingBit % 0x800 = 0x7FF then
      if a.toModel.toBits.toBitVec.toNat % leadingBit = 0 then Value.infinite _ else Value.undefined
    else if a.toModel.toBits.toBitVec.toNat / leadingBit % 0x800 = 0 then
      Value.finite _ _ _
    else Value.finite _ _ _) = _
  obtain ⟨full, none, h⟩ | ⟨full, none, h⟩ | ⟨zero, none, h⟩ | ⟨zero, positive, h⟩ |
      ⟨notZero, notFull, positive, h⟩ :=
    unpack_cases a.toModel.toBits.toBitVec
  · rw [h, if_pos full, if_pos none, Value.ofUnpacked, sign]
    rfl
  · rw [h, if_pos full, if_neg none, Value.ofUnpacked]
  · rw [h, if_neg (by omega), if_pos zero, Value.ofUnpacked, sign]
    exact congrArg (Value.finite _ · _) none
  · rw [h, if_neg (by omega), if_pos zero, Value.ofUnpacked, sign]
    rfl
  · rw [h, if_neg notFull, if_neg notZero, Value.ofUnpacked, sign]
    rfl

/-! ### Negation -/

theorem unpackSign_packComponents (s : Sign) (e : BitVec 11) (m : BitVec 52) :
    Sign.ofBitVec (unpackSign (packComponents .binary64 s e m)) = s := by
  have sign : unpackSign (packComponents .binary64 s e m) = s.toBitVec := by
    ext i hi
    obtain rfl : i = 0 := by omega
    simp only [unpackSign, packComponents, BitVec.extractLsb, BitVec.getElem_cast,
      BitVec.getElem_extractLsb']
    change (s.toBitVec ++ e ++ m).getLsbD 63 = _
    rw [BitVec.getLsbD_append, BitVec.getLsbD_append]
    rfl
  rw [sign]
  cases s <;> rfl

/-- Fields that are neither full nor empty unpack to a number with a leading bit. -/
theorem unpack_packComponents_normal {s : Sign} {e : BitVec 11} {m : BitVec 52} {mantissa : Nat}
    {exponent : Int} (positive : 0 < mantissa) (notZero : e.toNat ≠ 0) (notFull : e.toNat ≠ 0x7FF)
    (hm : leadingBit + m.toNat = mantissa) (he : (e.toNat : Int) - 1075 = exponent) :
    UnpackedFloat.unpack .binary64 (packComponents .binary64 s e m) =
    .finite s mantissa exponent positive := by
  have sign := unpackSign_packComponents s e m
  have fraction : (packComponents .binary64 s e m).toNat % leadingBit = m.toNat := by
    rw [← toNat_unpackMantissa, unpackMantissa_packComponents]
  have biased : (packComponents .binary64 s e m).toNat / leadingBit % 0x800 = e.toNat := by
    rw [← toNat_unpackExponent, unpackExponent_packComponents]
  obtain ⟨full, -⟩ | ⟨full, -⟩ | ⟨zero, -⟩ | ⟨zero, -⟩ | ⟨-, -, _, h⟩ :=
    unpack_cases (packComponents .binary64 s e m)
  · omega
  · omega
  · omega
  · omega
  · rw [h, UnpackedFloat.finite.injEq]
    exact ⟨sign, by omega, by omega⟩

/-- Fields with an empty exponent unpack to a number without a leading bit. -/
theorem unpack_packComponents_subnormal {s : Sign} {m : BitVec 52} {mantissa : Nat}
    (positive : 0 < mantissa) (hm : m.toNat = mantissa) :
    UnpackedFloat.unpack .binary64 (packComponents .binary64 s 0#11 m) =
    .finite s mantissa (-1074) positive := by
  have sign := unpackSign_packComponents s 0#11 m
  have fraction : (packComponents .binary64 s 0#11 m).toNat % leadingBit = m.toNat := by
    rw [← toNat_unpackMantissa, unpackMantissa_packComponents]
  have biased : (packComponents .binary64 s 0#11 m).toNat / leadingBit % 0x800 = 0 := by
    rw [← toNat_unpackExponent, unpackExponent_packComponents]
    rfl
  obtain ⟨full, -⟩ | ⟨full, -⟩ | ⟨-, none, -⟩ | ⟨-, _, h⟩ | ⟨notZero, -⟩ :=
    unpack_cases (packComponents .binary64 s 0#11 m)
  · omega
  · omega
  · omega
  · rw [h, UnpackedFloat.finite.injEq]
    exact ⟨sign, by omega, rfl⟩
  · omega

/-- Packing a canonical form and unpacking it again loses nothing. -/
theorem unpack_pack {u : UnpackedFloat} (h : Canonical u) :
    UnpackedFloat.unpack .binary64 (UnpackedFloat.pack .binary64 u) = u := by
  cases u with
  | notANumber => rfl
  | infinity s => cases s <;> rfl
  | zero s => cases s <;> rfl
  | finite s m e positive =>
    obtain ⟨small, low, high, normal⟩ := h
    have bias : Format.binary64.exponentBias = 1023 := rfl
    have log : m.log2 + 1 = Format.binary64.mantissaBits ↔ leadingBit ≤ m := by
      have lower := Nat.le_log2 (n := m) (k := 52) (by omega)
      have upper := Nat.log2_lt (n := m) (k := 53) (by omega)
      change m.log2 + 1 = 53 ↔ _
      simp only [leadingBit] at *
      omega
    rw [UnpackedFloat.pack]
    simp only [bias]
    rw [if_neg (by norm_num; omega)]
    by_cases implicit : leadingBit ≤ m
    · rw [if_pos (log.2 implicit)]
      apply unpack_packComponents_normal <;> simp only [BitVec.toNat_ofNat, leadingBit] at *
        <;> omega
    · obtain rfl : e = -1074 := normal.resolve_left implicit
      rw [if_neg (mt log.1 implicit)]
      apply unpack_packComponents_subnormal
      simp only [BitVec.toNat_ofNat, leadingBit] at *
      omega

/-- The number of the opposite sign. -/
def Value.neg : Value → Value
  | .undefined => .undefined
  | .infinite negative => .infinite !negative
  | .finite negative m e => .finite (!negative) m e

theorem isNegative_neg (s : Sign) : isNegative (-s) = !isNegative s := by
  cases s <;> rfl

theorem canonical_neg {u : UnpackedFloat} (h : Canonical u) : Canonical u.neg := by
  cases u <;> exact h

theorem value_neg (a : Float) : value (-a) = (value a).neg := by
  have canonical := canonical_neg (canonical_unpack a.toModel.toBits.toBitVec)
  have unpacked : (-a).toModel.unpack = a.toModel.unpack.neg := unpack_pack canonical
  rw [value_eq, value_eq, unpacked]
  cases a.toModel.unpack <;> simp [UnpackedFloat.neg, Value.ofUnpacked, Value.neg, isNegative_neg]

end ControlHierarchy.Double
