import GraphScript.Decimal.Binary
import Mathlib

/-!
# Proofs/Decimal/Double — doubles and what they are taken apart into

Taking a double apart loses nothing (`classify_injective`): its parts are those of the model of
doubles, in which only one double is no number.  The parts of an absolute value are those of the
double without its sign (`classify_abs`).  A finite double has the one mantissa and exponent that
the format allows it (`Binary.Canonical`, `canonical_of_classify`).
-/

namespace GraphScript.Decimal

open Float.Model (Format UnpackedFloat)
open Float.Model.UnpackedFloat

/-! ## Parts -/

/-- A double of the model by its parts. -/
def Kind.ofUnpacked : UnpackedFloat → Kind
  | .notANumber => .nan
  | .infinity s => .infinite (s == .negative)
  | .zero s => .zero (s == .negative)
  | .finite s m e _ => .finite (s == .negative) ⟨m, e⟩

/-- A number is known by its sign, its kind and its parts. -/
theorem Kind.ofUnpacked_injective : Function.Injective Kind.ofUnpacked := by
  have hsign : ∀ s t : Sign, (s == .negative) = (t == .negative) → s = t := by
    rintro (_ | _) (_ | _) h
    · rfl
    · cases h
    · cases h
    · rfl
  intro u v h
  cases u <;> cases v <;> simp only [ofUnpacked, reduceCtorEq, Kind.infinite.injEq, Kind.zero.injEq,
    Kind.finite.injEq, Binary.mk.injEq] at h ⊢
  · rw [hsign _ _ h]
  · rw [hsign _ _ h]
  · obtain ⟨hs, rfl, rfl⟩ := h
    rw [hsign _ _ hs]

section Fields

variable (bits : UInt64)

/-- The exponent is read from eleven bits. -/
theorem toNat_unpackExponent :
    (@unpackExponent .binary64 bits.toBitVec).toNat = bits.toNat / 0x10000000000000 % 0x800 := by
  rw [unpackExponent_def, BitVec.extractLsb'_toNat, Nat.shiftRight_eq_div_pow]
  rfl

/-- The mantissa is read from the lowest fifty-two bits. -/
theorem toNat_unpackMantissa :
    (@unpackMantissa .binary64 bits.toBitVec).toNat = bits.toNat % 0x10000000000000 := by
  rw [unpackMantissa_def, BitVec.extractLsb'_toNat, Nat.shiftRight_eq_div_pow]
  simp [Format.binary64]

/-- The mantissa of a normal double, with the bit that is not stored. -/
theorem toNat_implicit_append : (1#1 ++ @unpackMantissa .binary64 bits.toBitVec).toNat =
    0x10000000000000 + bits.toNat % 0x10000000000000 := by
  rw [BitVec.toNat_append, ← Nat.shiftLeft_add_eq_or_of_lt (BitVec.isLt _), toNat_unpackMantissa]
  rfl

/-- The sign is read from the highest bit. -/
theorem ofBitVec_unpackSign :
    (Sign.ofBitVec (@unpackSign .binary64 bits.toBitVec) == .negative) =
      (bits.toNat / 0x8000000000000000 == 1) := by
  have hlt := bits.toNat_lt
  have hone : (@unpackSign .binary64 bits.toBitVec).toNat = bits.toNat / 0x8000000000000000 := by
    rw [unpackSign_def, BitVec.extractLsb'_toNat, Nat.shiftRight_eq_div_pow]
    show bits.toNat / 0x8000000000000000 % 2 = _
    omega
  rw [← hone]
  generalize @unpackSign .binary64 bits.toBitVec = sign
  revert sign
  decide

end Fields

/-- **A double is taken apart into the parts it has in the model.** -/
theorem classify_eq_ofUnpacked (x : Float) : classify x = .ofUnpacked x.toModel.unpack := by
  have he := toNat_unpackExponent x.toBits
  have hm := toNat_unpackMantissa x.toBits
  have hs := ofBitVec_unpackSign x.toBits
  have hmax : (@unpackExponent .binary64 x.toBits.toBitVec = -1#_) ↔
      x.toBits.toNat / 0x10000000000000 % 0x800 = 2047 := by
    rw [← he, ← BitVec.toNat_inj]
    rfl
  have hleast : (@unpackExponent .binary64 x.toBits.toBitVec = 0#_) ↔
      x.toBits.toNat / 0x10000000000000 % 0x800 = 0 := by
    rw [← he, ← BitVec.toNat_inj]
    rfl
  have hzero : (@unpackMantissa .binary64 x.toBits.toBitVec = 0#_) ↔
      x.toBits.toNat % 0x10000000000000 = 0 := by
    rw [← hm, ← BitVec.toNat_inj]
    rfl
  have hunpack : x.toModel.unpack = unpack .binary64 x.toBits.toBitVec := rfl
  rw [hunpack]
  simp only [classify, unpack, hmax, hleast, hzero, beq_iff_eq, ← hs]
  split_ifs
  · rfl
  · rfl
  · rfl
  · rename_i hexponent _
    simp only [Kind.ofUnpacked, hm, he, hexponent]
    rfl
  · simp only [Kind.ofUnpacked, he, ← toNat_implicit_append x.toBits]
    rfl

/-- **Taking a double apart loses nothing.** -/
theorem classify_injective : Function.Injective classify := by
  intro x y h
  rw [classify_eq_ofUnpacked, classify_eq_ofUnpacked] at h
  have hbits :=
    (unpack_inj_of_valid x.toModel.valid y.toModel.valid).mp (Kind.ofUnpacked_injective h)
  exact Float.toBits_inj.mp (UInt64.toBitVec_inj.mp hbits)

/-! ## Absolute values -/

/-- A double by its parts, without its sign. -/
def Kind.abs : Kind → Kind
  | .nan => .nan
  | .infinite _ => .infinite false
  | .zero _ => .zero false
  | .finite _ b => .finite false b

/-- Whether a double has a sign. -/
def Kind.negative : Kind → Bool
  | .nan => false
  | .infinite negative | .zero negative | .finite negative _ => negative

theorem Kind.negative_abs (k : Kind) : k.abs.negative = false := by cases k <;> rfl

/-- The absolute value has the parts of the number, without the sign. -/
theorem Kind.ofUnpacked_abs (u : UnpackedFloat) : ofUnpacked u.abs = (ofUnpacked u).abs := by
  cases u <;> rfl

section Bits

variable {spec : Format} (b : BitVec spec.numBits)

/-- The bits with the sign cleared. -/
def clearSign : BitVec spec.numBits :=
  packComponents spec .positive (unpackExponent b) (unpackMantissa b)

/-- Clearing the bit of the sign takes the absolute value. -/
theorem unpack_clearSign : unpack spec (clearSign b) = (unpack spec b).abs := by
  have hsign : Sign.ofBitVec Sign.positive.toBitVec = .positive := rfl
  simp only [unpack, clearSign, unpackExponent_packComponents, unpackMantissa_packComponents,
    unpackSign_packComponents, hsign]
  split
  · split <;> rfl
  · split
    · split <;> rfl
    · rfl

theorem valid_clearSign (hb : spec.Valid b) : spec.Valid (clearSign b) := by
  refine ⟨fun he hm => ?_⟩
  simp only [clearSign, unpackExponent_packComponents, unpackMantissa_packComponents] at he hm
  rw [hb.eq_packedNaN he hm]
  simp only [clearSign, packedNaN, unpackExponent_packComponents, unpackMantissa_packComponents]

/-- An absolute value is packed into bits that it is unpacked from. -/
theorem unpack_pack_abs (hb : spec.Valid b) (hspec : 2 ≤ spec.exponentBits) :
    unpack spec (pack spec (unpack spec b).abs) = (unpack spec b).abs := by
  rw [← unpack_clearSign, pack_unpack_of_valid (valid_clearSign b hb) hspec]

end Bits

/-- **The parts of an absolute value are those of the double, without its sign.** -/
theorem classify_abs (x : Float) : classify x.abs = (classify x).abs := by
  have habs : x.abs.toModel.unpack = x.toModel.unpack.abs :=
    unpack_pack_abs _ x.toModel.valid (by decide)
  rw [classify_eq_ofUnpacked, classify_eq_ofUnpacked, habs, Kind.ofUnpacked_abs]

/-! ## Finite doubles -/

/-- The mantissa and the exponent of a finite double that is not zero. -/
structure Binary.Canonical (b : Binary) : Prop where
  pos : 0 < b.mantissa
  lt : b.mantissa < 0x20000000000000
  least : -1074 ≤ b.exponent
  normal : b.exponent = -1074 ∨ 0x10000000000000 ≤ b.mantissa

/-- The parts of a finite double are in range. -/
theorem canonical_of_classify {x : Float} {negative : Bool} {b : Binary}
    (h : classify x = .finite negative b) : b.Canonical := by
  have hf := Nat.mod_lt x.toBits.toNat (show 0 < 0x10000000000000 by decide)
  simp only [classify] at h
  split at h
  · split at h <;> simp at h
  · split at h
    · split at h
      · simp at h
      · rename_i hne
        obtain ⟨-, rfl⟩ := Kind.finite.inj h
        have hne := of_decide_eq_false (Bool.eq_false_iff.mpr hne)
        exact ⟨Nat.pos_of_ne_zero hne, by simp only; omega, le_refl _, .inl rfl⟩
    · rename_i hne
      obtain ⟨-, rfl⟩ := Kind.finite.inj h
      exact ⟨by simp only; omega, by simp only; omega, by simp at hne; simp only; omega,
        .inr (by simp only; omega)⟩

end GraphScript.Decimal
