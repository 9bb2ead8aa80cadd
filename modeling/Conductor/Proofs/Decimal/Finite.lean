import Conductor.Proofs.Decimal.Order

/-! Which operations on doubles stay within the range, and which give a number at all. -/

namespace Conductor.Decimal

open Float.Model (UnpackedFloat Format totalExponent)
open Float.Model.UnpackedFloat (Sign ExtendedMantissa)

variable {x y : Float} {u : UnpackedFloat}

/-- A result that is not too large to be packed as a finite double. -/
def Packable : UnpackedFloat → Prop
  | .finite _ _ e _ => e ≤ 971
  | .zero _ => True
  | _ => False

theorem isFinite_unpack {b : BitVec 64} (h : @UnpackedFloat.unpackExponent .binary64 b ≠ -1#11) :
    (UnpackedFloat.unpack .binary64 b).isFinite = true := by
  unfold UnpackedFloat.unpack
  dsimp only
  rw [if_neg h]
  split
  · split <;> rfl
  · rfl

theorem isFinite_unpack_pack (h : Packable u) :
    (UnpackedFloat.unpack .binary64 (UnpackedFloat.pack .binary64 u)).isFinite = true := by
  refine isFinite_unpack ?_
  match u with
  | .infinity _ | .notANumber => cases h
  | .zero s =>
    change UnpackedFloat.unpackExponent (UnpackedFloat.packComponents .binary64 s 0 0) ≠ -1#11
    rw [UnpackedFloat.unpackExponent_packComponents]
    decide
  | .finite s m e hm =>
    change e ≤ 971 at h
    have hbiased : (e + 1023 + 52).toNat < 2 ^ 11 - 1 := by omega
    unfold UnpackedFloat.pack
    dsimp only
    split
    · next hlarge =>
      change 2 ^ 11 ≤ (e + 1023 + 52).toNat + 1 at hlarge
      omega
    · split
      · rw [UnpackedFloat.unpackExponent_packComponents]
        intro heq
        have hnat := congrArg BitVec.toNat heq
        rw [BitVec.toNat_ofNat] at hnat
        change (e + 1023 + 52).toNat % 2 ^ 11 = 2 ^ 11 - 1 at hnat
        omega
      · rw [UnpackedFloat.unpackExponent_packComponents]
        decide

theorem isNaN_of_isFinite_unpacked (h : u.isFinite = true) : u.isNaN = false := by
  match u with
  | .notANumber => cases h
  | .infinity _ | .zero _ | .finite _ _ _ _ => rfl

theorem isNaN_unpack_pack (h : u.isNaN ≠ true) :
    (UnpackedFloat.unpack .binary64 (UnpackedFloat.pack .binary64 u)).isNaN = false := by
  have hinfinity (s : Sign) :
      (UnpackedFloat.unpack .binary64 (UnpackedFloat.packedInfinity .binary64 s)).isNaN = false := by
    cases s <;> decide
  match u with
  | .notANumber => exact absurd rfl h
  | .infinity s => exact hinfinity s
  | .zero s => exact isNaN_of_isFinite_unpacked (isFinite_unpack_pack (u := .zero s) trivial)
  | .finite s m e hm =>
    by_cases he : e ≤ 971
    · exact isNaN_of_isFinite_unpacked (isFinite_unpack_pack (u := .finite s m e hm) he)
    · have hlarge : 2 ^ 11 ≤ (e + 1023 + 52).toNat + 1 := by omega
      have hpack : UnpackedFloat.pack .binary64 (.finite s m e hm) =
          UnpackedFloat.packedInfinity .binary64 s := if_pos hlarge
      rw [hpack]
      exact hinfinity s

theorem shiftRight_succ (em : ExtendedMantissa) (n : ℕ) :
    em >>> (n + 1) = (em >>> n).shiftRightOne := rfl

theorem mantissa_shiftRight (em : ExtendedMantissa) (n : ℕ) :
    (em >>> n).mantissa = em.mantissa / 2 ^ n := by
  induction n with
  | zero => exact (Nat.div_one _).symm
  | succ n ih =>
    rw [shiftRight_succ, pow_succ, ← Nat.div_div_eq_div_mul, ← ih]
    rfl

theorem targetExponent_totalExponent (m : ℕ) (e : ℤ) :
    Format.binary64.targetExponent (totalExponent m e) = max (m.log2 + 1 + e - 53) (-1074) := rfl

theorem roundedMantissa_le (em : ExtendedMantissa) : em.roundedMantissa ≤ em.mantissa + 1 := by
  obtain ⟨m, _ | _, _ | _⟩ := em
  · exact Nat.le_succ m
  · exact Nat.le_succ m
  · change m + m % 2 ≤ m + 1
    omega
  · exact le_refl _

/-- Rounding moves the exponent up to where 53 digits are left, and once more if they are rounded up to
54. -/
theorem packable_roundWithAccuracy {s : Sign} {m : ℕ} {e : ℤ}
    (h : max e (m.log2 - 52 + e) < 971) :
    Packable (UnpackedFloat.roundWithAccuracy .binary64 s m e .exact) := by
  obtain ⟨k, hk⟩ : ∃ k, k = (max (m.log2 + 1 + e - 53) (-1074) - e).toNat := ⟨_, rfl⟩
  obtain ⟨r, hr⟩ : ∃ r, r = (ExtendedMantissa.mk m false false >>> k).roundedMantissa := ⟨_, rfl⟩
  have hdigits : m / 2 ^ k < 2 ^ 53 := by
    refine (Nat.div_lt_iff_lt_mul (Nat.two_pow_pos k)).mpr ?_
    calc m < 2 ^ (m.log2 + 1) := Nat.lt_log2_self
      _ ≤ 2 ^ (53 + k) := Nat.pow_le_pow_right (by decide) (by omega)
      _ = 2 ^ 53 * 2 ^ k := Nat.pow_add 2 53 k
  have hrounded : r ≤ 2 ^ 53 := by
    have hle := roundedMantissa_le (ExtendedMantissa.mk m false false >>> k)
    rw [mantissa_shiftRight, ← hr] at hle
    exact hle.trans hdigits
  have hlog : r.log2 ≤ 53 := by
    rw [Nat.log2_eq_log_two, ← Nat.log_pow one_lt_two 53]
    exact Nat.log_mono_right hrounded
  unfold UnpackedFloat.roundWithAccuracy UnpackedFloat.shiftToTargetExponent UnpackedFloat.shiftToExponent
  dsimp only
  rw [targetExponent_totalExponent, ← hk]
  change Packable (if hm : _ = 0 then _ else _)
  split
  · trivial
  · -- The second shift is one place at most, after a carry.
    change e + k + (Format.binary64.targetExponent (totalExponent
      (ExtendedMantissa.mk m false false >>> k).roundedMantissa _) - (e + k)).toNat ≤ 971
    rw [targetExponent_totalExponent, ← hr]
    omega

theorem isFinite_iff : isFinite x = true ↔ x.toModel.unpack.isFinite = true := by
  constructor
  · intro h
    rw [unpack_of_isFinite h]
    split <;> rfl
  · intro h
    by_contra hnot
    have hlast : x.toBits.toNat / twoTo 52 % 2048 = 2047 := by simpa [isFinite] using hnot
    have hexponent : @UnpackedFloat.unpackExponent .binary64 x.toBits.toBitVec = -1#11 :=
      BitVec.eq_of_toNat_eq ((toNat_exponent _).trans hlast)
    change (UnpackedFloat.unpack .binary64 x.toBits.toBitVec).isFinite = true at h
    unfold UnpackedFloat.unpack at h
    dsimp only at h
    rw [if_pos hexponent] at h
    split at h <;> cases h

theorem isNaN_of_isFinite (h : isFinite x = true) : x.isNaN = false :=
  isNaN_of_isFinite_unpacked (isFinite_iff.mp h)

theorem isFinite_mul (hx : isFinite x = true) {s : Sign} {m : ℕ} {e : ℤ} {hm : 0 < m}
    (hy : y.toModel.unpack = .finite s m e hm) (hdigits : m < 2 ^ 53) (he : e < -54) :
    isFinite (x * y) = true := by
  refine isFinite_iff.mpr (isFinite_unpack_pack (u := UnpackedFloat.mul _ _ _) ?_)
  rw [hy]
  obtain ⟨hproper, -⟩ := Parts.ofFloat_spec hx
  rw [unpack_of_isFinite hx]
  split
  · have hlog : ((Parts.ofFloat x).significand * m).log2 ≤ 106 := by
      have hproduct : (Parts.ofFloat x).significand * m ≤ 2 ^ 53 * 2 ^ 53 :=
        Nat.mul_le_mul hproper.significand_lt.le hdigits.le
      rw [← Nat.pow_add] at hproduct
      rw [Nat.log2_eq_log_two, ← Nat.log_pow one_lt_two 106]
      exact Nat.log_mono_right hproduct
    have hgreatest := hproper.greatest
    refine packable_roundWithAccuracy ?_
    omega
  · trivial

theorem isNaN_roundWithAccuracy (s : Sign) (m : ℕ) (e : ℤ) :
    (UnpackedFloat.roundWithAccuracy .binary64 s m e .exact).isNaN ≠ true := by
  change (if hm : _ = 0 then UnpackedFloat.zero s else _ : UnpackedFloat).isNaN ≠ true
  split <;> exact Bool.false_ne_true

theorem isNaN_normalize (m e : ℤ) (s : Sign) : (UnpackedFloat.normalize .binary64 m e s).isNaN ≠ true := by
  unfold UnpackedFloat.normalize
  split
  · exact isNaN_roundWithAccuracy _ _ _
  · exact Bool.false_ne_true
  · exact isNaN_roundWithAccuracy _ _ _

theorem isNaN_add (hx : x.isNaN = false) (hy : isFinite y = true) : (x + y).isNaN = false := by
  have hx' := unpack_ne_notANumber hx
  rw [isFinite_iff] at hy
  refine isNaN_unpack_pack (u := UnpackedFloat.add _ _ _) ?_
  match hu : x.toModel.unpack, hv : y.toModel.unpack with
  | .notANumber, _ => exact absurd hu hx'
  | _, .notANumber => rw [hv] at hy; cases hy
  | _, .infinity _ => rw [hv] at hy; cases hy
  | .infinity _, .zero _ | .infinity _, .finite _ _ _ _ => exact Bool.false_ne_true
  | .zero s, .zero t => cases s <;> cases t <;> exact Bool.false_ne_true
  | .zero _, .finite _ _ _ _ | .finite _ _ _ _, .zero _ => exact Bool.false_ne_true
  | .finite _ _ _ _, .finite _ _ _ _ => exact isNaN_normalize _ _ _

theorem toNat_ofNat_of_lt {n : ℕ} (h : n < infinityBits) : (UInt64.ofNat n).toNat = n := by
  change n < 2047 * 2 ^ 52 at h
  change n % 2 ^ 64 = n
  omega

/-- Bits below those of infinity are those of a finite double. -/
theorem unpackExponent_ofNat {n : ℕ} (h : n < infinityBits) :
    @UnpackedFloat.unpackExponent .binary64 (UInt64.ofNat n).toBitVec ≠ -1#11 := by
  have hnat : (UInt64.ofNat n).toBitVec.toNat = n := toNat_ofNat_of_lt h
  change n < 2047 * 2 ^ 52 at h
  intro heq
  have := congrArg BitVec.toNat heq
  rw [toNat_exponent, hnat] at this
  change _ = 2047 at this
  omega

theorem isFinite_ofBits {n : ℕ} (h : n < infinityBits) :
    isFinite (Float.ofBits (UInt64.ofNat n)) = true := by
  have hexponent := unpackExponent_ofNat h
  rw [isFinite_iff, unpack_ofBits]
  · exact isFinite_unpack hexponent
  · exact decide_eq_false fun hnan => hexponent hnan.1

theorem toNat_toBits_ofBits {n : ℕ} (h : n < infinityBits) :
    (Float.ofBits (UInt64.ofNat n)).toBits.toNat = n := by
  have hnumber : ¬ @UnpackedFloat.isNaNBits .binary64 (UInt64.ofNat n).toBitVec = true := fun hnan =>
    unpackExponent_ofNat h (of_decide_eq_true hnan).1
  have hbits : (Float.ofBits (UInt64.ofNat n)).toBits.toBitVec = (UInt64.ofNat n).toBitVec := by
    change UnpackedFloat.pack .binary64 (UnpackedFloat.unpack .binary64 (UInt64.ofNat n).toBitVec) = _
    rw [UnpackedFloat.pack_unpack, if_neg hnumber]
  exact (congrArg BitVec.toNat hbits).trans (toNat_ofNat_of_lt h)

theorem isFinite_signed (h : isFinite x = true) (negative : Bool) :
    isFinite (signed negative x) = true := by
  unfold signed
  split
  · refine isFinite_iff.mpr (isFinite_unpack_pack (u := x.toModel.unpack.neg) ?_)
    obtain ⟨hproper, -⟩ := Parts.ofFloat_spec h
    rw [unpack_of_isFinite h]
    split
    · exact hproper.greatest
    · trivial
  · exact h

theorem isFinite_of_quotient? {n : ℤ} {den : ℕ} (h : quotient? n den = some x) : isFinite x = true := by
  unfold quotient? at h
  split at h
  · next hbits =>
    cases h
    refine isFinite_signed ?_ _
    unfold nearest
    rw [Nat.min_eq_left hbits.le]
    exact isFinite_ofBits hbits
  · cases h

end Conductor.Decimal
