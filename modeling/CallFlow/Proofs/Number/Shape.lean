import Mathlib.Algebra.Group.Nat.Defs
import Mathlib.Tactic.SplitIfs
import CallFlow.Number.Binary

/-!
# A fraction is its shape

Of the 64 bits of a fraction its shape has the sign, the exponent and the
digits, so two fractions of one shape have the same bits, and are the same
(`Binary.shape_injective`). The one shape that leaves bits out is that of no
number, and of that there is a single fraction.

A finite shape is *normal*: its digits are so many that no other shape has its
value, unless it is counted in the smallest power there is.
-/

namespace CallFlow

namespace Shape

/-- Whether a whole number with a power of two is the shape of a fraction: it has
53 digits, or fewer if they are counted in the smallest power. -/
structure Normal (m : Nat) (q : Int) : Prop where
  /-- There are at most 53 digits. -/
  lt : m < 2 ^ 53
  /-- The power is not below the smallest. -/
  smallest_le : smallestPower ≤ q
  /-- There are no fewer digits, but for the smallest power. -/
  le_of_ne : q ≠ smallestPower → 2 ^ 52 ≤ m

theorem bits_eq {bits : Nat} (h : bits < 2 ^ 64) :
    bits = bits / 2 ^ 63 % 2 * 2 ^ 63 + bits / 2 ^ 52 % 2 ^ 11 * 2 ^ 52 + bits % 2 ^ 52 := by
  omega

/-- **A finite shape that is read off bits is normal.** -/
theorem normal_of_ofBits {bits : Nat} {negative : Bool} {m : Nat} {q : Int}
    (h : ofBits bits = .finite negative m q) : Normal m q := by
  have hdigits : bits % 2 ^ 52 < 2 ^ 52 := Nat.mod_lt _ (by decide)
  unfold ofBits at h
  dsimp only [Nat.pow_eq, fractionBits] at h
  split at h
  · split at h <;> cases h
  · split at h
    · obtain ⟨-, rfl, rfl⟩ := h
      exact ⟨by omega, Int.le_refl _, fun hne => absurd rfl hne⟩
    · obtain ⟨-, rfl, rfl⟩ := h
      exact ⟨by omega, by simp only [smallestPower]; omega, fun _ => by omega⟩

/-- **Bits are known by their shape**, unless it is that of no number. -/
theorem eq_of_ofBits_eq {bits others : Nat} (hbits : bits < 2 ^ 64) (hothers : others < 2 ^ 64)
    (h : ofBits bits = ofBits others) (hdefined : ofBits bits ≠ .undefined) : bits = others := by
  rw [bits_eq hbits, bits_eq hothers]
  have hsign : bits / 2 ^ 63 % 2 < 2 := Nat.mod_lt _ (by decide)
  have hsign' : others / 2 ^ 63 % 2 < 2 := Nat.mod_lt _ (by decide)
  have hdigits : bits % 2 ^ 52 < 2 ^ 52 := Nat.mod_lt _ (by decide)
  have hdigits' : others % 2 ^ 52 < 2 ^ 52 := Nat.mod_lt _ (by decide)
  unfold ofBits at h hdefined
  dsimp only [Nat.pow_eq, fractionBits, smallestPower] at h hdefined
  generalize bits / 2 ^ 63 % 2 = sign at *
  generalize others / 2 ^ 63 % 2 = sign' at *
  generalize bits / 2 ^ 52 % 2 ^ 11 = exponent at *
  generalize others / 2 ^ 52 % 2 ^ 11 = exponent' at *
  generalize bits % 2 ^ 52 = digits at *
  generalize others % 2 ^ 52 = digits' at *
  -- the two are in the same case, and agree part by part
  split_ifs at h hdefined <;> simp_all <;> omega

end Shape

namespace Binary

theorem eq_of_toBits_eq {x y : Float} (h : x.toBits = y.toBits) : x = y := by
  obtain ⟨⟨bits, _⟩⟩ := x
  obtain ⟨⟨others, _⟩⟩ := y
  obtain rfl : bits = others := h
  rfl

section Parts

open Float.Model

variable (x : Float)

theorem toNat_unpackExponent :
    (@UnpackedFloat.unpackExponent .binary64 x.toModel.toBits.toBitVec).toNat
      = x.toBits.toNat / 2 ^ 52 % 2 ^ 11 := by
  show _ = x.toModel.toBits.toBitVec.toNat / 2 ^ 52 % 2 ^ 11
  simp [UnpackedFloat.unpackExponent, Nat.shiftRight_eq_div_pow]

theorem toNat_unpackMantissa :
    (@UnpackedFloat.unpackMantissa .binary64 x.toModel.toBits.toBitVec).toNat
      = x.toBits.toNat % 2 ^ 52 := by
  show _ = x.toModel.toBits.toBitVec.toNat % 2 ^ 52
  simp [UnpackedFloat.unpackMantissa]

end Parts

open Float.Model in
/-- **There is a single fraction that is no number.** -/
theorem toBits_of_undefined {x : Float} (h : shape x = .undefined) :
    x.toBits.toBitVec = UnpackedFloat.packedNaN .binary64 := by
  unfold shape Shape.ofBits at h
  dsimp only [Nat.pow_eq, Shape.fractionBits] at h
  rw [← toNat_unpackExponent, ← toNat_unpackMantissa] at h
  split at h
  next hfull =>
    split at h
    · cases h
    next hsome =>
      refine x.toModel.valid.eq_packedNaN (BitVec.eq_of_toNat_eq hfull) fun hzero => hsome ?_
      rw [hzero]
      rfl
  next => split at h <;> cases h

/-- **A fraction is known by its shape.** -/
theorem shape_injective : Function.Injective shape := by
  intro x y h
  refine eq_of_toBits_eq ?_
  by_cases hdefined : shape x = .undefined
  · rw [← UInt64.toBitVec_inj, toBits_of_undefined hdefined, toBits_of_undefined (h ▸ hdefined)]
  · exact UInt64.toNat_inj.mp (Shape.eq_of_ofBits_eq x.toBits.toNat_lt y.toBits.toNat_lt h hdefined)

end Binary

end CallFlow
