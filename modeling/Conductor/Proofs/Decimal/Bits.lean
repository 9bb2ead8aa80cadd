import Conductor.Proofs.Decimal.Written
import Mathlib

/-! Doubles and their bits: a double is its magnitude with its sign. The lemmas on packed doubles are in no part
of the library that could be imported by itself, so all of it is imported here. -/

namespace Conductor.Decimal

open Float.Model (UnpackedFloat Format)

variable {x : Float}

/-- Two doubles whose bits differ in the sign only are each other's negation. -/
theorem unpack_eq_neg {a b : BitVec 64}
    (hexponent : @UnpackedFloat.unpackExponent .binary64 a = @UnpackedFloat.unpackExponent .binary64 b)
    (hmantissa : @UnpackedFloat.unpackMantissa .binary64 a = @UnpackedFloat.unpackMantissa .binary64 b)
    (ha : @UnpackedFloat.unpackSign .binary64 a = 0#1) (hb : @UnpackedFloat.unpackSign .binary64 b = 1#1) :
    UnpackedFloat.unpack .binary64 b = (UnpackedFloat.unpack .binary64 a).neg := by
  unfold UnpackedFloat.unpack
  dsimp only
  simp only [hexponent, hmantissa, ha, hb]
  split_ifs <;> rfl

section Fields

variable (b : BitVec 64)

theorem toNat_exponent : (@UnpackedFloat.unpackExponent .binary64 b).toNat = b.toNat / 2 ^ 52 % 2 ^ 11 := by
  rw [UnpackedFloat.unpackExponent_def, BitVec.extractLsb'_toNat, Nat.shiftRight_eq_div_pow]

theorem toNat_mantissa : (@UnpackedFloat.unpackMantissa .binary64 b).toNat = b.toNat % 2 ^ 52 := by
  rw [UnpackedFloat.unpackMantissa_def, BitVec.extractLsb'_toNat, Nat.shiftRight_zero]

theorem toNat_sign : (@UnpackedFloat.unpackSign .binary64 b).toNat = b.toNat / 2 ^ 63 % 2 := by
  rw [UnpackedFloat.unpackSign_def, BitVec.extractLsb'_toNat, Nat.shiftRight_eq_div_pow]
  rfl

end Fields

theorem isNaNBits_toBits (hx : x.isNaN = false) :
    @UnpackedFloat.isNaNBits .binary64 x.toBits.toBitVec = false := by
  refine Bool.eq_false_iff.mpr fun h => ?_
  have hpacked := x.toModel.valid.eq_packedNaN (of_decide_eq_true h).1 (of_decide_eq_true h).2
  have hnan : x.toModel.unpack.isNaN = true :=
    (UnpackedFloat.isNaN_unpack_iff_of_valid x.toModel.valid).mpr hpacked
  exact Bool.false_ne_true (hx.symm.trans hnan)

/-- Packing undoes unpacking for all but NaN, of which there is one pattern only. -/
theorem unpack_ofBits {a : UInt64} (ha : @UnpackedFloat.isNaNBits .binary64 a.toBitVec = false) :
    (Float.ofBits a).toModel.unpack = UnpackedFloat.unpack .binary64 a.toBitVec := by
  change UnpackedFloat.unpack .binary64
    (UnpackedFloat.pack .binary64 (UnpackedFloat.unpack .binary64 a.toBitVec)) = _
  rw [UnpackedFloat.pack_unpack, if_neg (Bool.eq_false_iff.mp ha)]

theorem neg_ofBits {a : UInt64} (hlt : a.toNat < 2 ^ 63) (hx : x.isNaN = false)
    (hbits : x.toBits.toNat = a.toNat + 2 ^ 63) : -Float.ofBits a = x := by
  have hnat : x.toBits.toBitVec.toNat = a.toBitVec.toNat + 2 ^ 63 := hbits
  have hlt' : a.toBitVec.toNat < 2 ^ 63 := hlt
  -- The patterns differ in the sign only: their other fields are read off below it.
  have hexponent : @UnpackedFloat.unpackExponent .binary64 a.toBitVec =
      @UnpackedFloat.unpackExponent .binary64 x.toBits.toBitVec := by
    refine BitVec.eq_of_toNat_eq ?_
    rw [toNat_exponent, toNat_exponent, hnat]
    omega
  have hmantissa : @UnpackedFloat.unpackMantissa .binary64 a.toBitVec =
      @UnpackedFloat.unpackMantissa .binary64 x.toBits.toBitVec := by
    refine BitVec.eq_of_toNat_eq ?_
    rw [toNat_mantissa, toNat_mantissa, hnat]
    omega
  have ha : @UnpackedFloat.unpackSign .binary64 a.toBitVec = 0#1 := by
    refine BitVec.eq_of_toNat_eq ?_
    rw [toNat_sign]
    change _ = 0
    omega
  have hb : @UnpackedFloat.unpackSign .binary64 x.toBits.toBitVec = 1#1 := by
    refine BitVec.eq_of_toNat_eq ?_
    rw [toNat_sign, hnat]
    change _ = 1
    omega
  have hnumber : @UnpackedFloat.isNaNBits .binary64 a.toBitVec = false := by
    have h := isNaNBits_toBits hx
    rwa [UnpackedFloat.isNaNBits, ← hexponent, ← hmantissa] at h
  have hunpack := unpack_ofBits hnumber
  refine Float.toBits_inj.mp (UInt64.toBitVec_inj.mp ?_)
  change UnpackedFloat.pack .binary64 (Float.ofBits a).toModel.unpack.neg = _
  rw [hunpack, ← unpack_eq_neg hexponent hmantissa ha hb, UnpackedFloat.pack_unpack,
    if_neg (Bool.eq_false_iff.mp (isNaNBits_toBits hx))]

/-- A number is its magnitude with its sign. -/
theorem signed_ofBits (hx : x.isNaN = false) :
    signed (isNegative x) (Float.ofBits (UInt64.ofNat (x.toBits.toNat % 2 ^ 63))) = x := by
  have hlt := x.toBits.toNat_lt
  have hmod : (UInt64.ofNat (x.toBits.toNat % 2 ^ 63)).toNat = x.toBits.toNat % 2 ^ 63 := by
    rw [UInt64.toNat_ofNat']
    omega
  unfold signed isNegative
  change (if (x.toBits.toNat / 2 ^ 63 == 1) = true then _ else _) = _
  split
  · next hsign =>
    rw [beq_iff_eq] at hsign
    exact neg_ofBits (by omega) hx (by omega)
  · next hsign =>
    rw [beq_iff_eq] at hsign
    rw [Nat.mod_eq_of_lt (by omega), UInt64.ofNat_toNat, Float.ofBits_toBits]

/-- What is no finite number but a number has the magnitude of infinity. -/
theorem magnitude_of_not_isFinite (hx : x.isNaN = false) (h : isFinite x = false) :
    x.toBits.toNat % 2 ^ 63 = infinityBits := by
  have hexponent : x.toBits.toNat / twoTo 52 % 2048 = 2047 := by simpa [isFinite] using h
  change x.toBits.toNat / 2 ^ 52 % 2048 = 2047 at hexponent
  have hnumber := isNaNBits_toBits hx
  unfold UnpackedFloat.isNaNBits at hnumber
  rw [decide_eq_false_iff_not, not_and_not_right] at hnumber
  have hmantissa := congrArg BitVec.toNat (hnumber (BitVec.eq_of_toNat_eq (by
    rw [toNat_exponent]
    exact hexponent)))
  rw [toNat_mantissa] at hmantissa
  have hzero : x.toBits.toNat % 2 ^ 52 = 0 := hmantissa
  change _ = 2047 * 2 ^ 52
  omega

theorem Parts.ofFloat_spec (h : isFinite x = true) : (Parts.ofFloat x).Proper ∧
    (Parts.ofFloat x).bits = x.toBits.toNat % 2 ^ 63 := by
  have hne : x.toBits.toNat / twoTo 52 % 2048 ≠ 2047 := by simpa [isFinite] using h
  change x.toBits.toNat / 2 ^ 52 % 2048 ≠ 2047 at hne
  have hfraction : x.toBits.toNat % 2 ^ 52 < 2 ^ 52 := Nat.mod_lt _ (by decide)
  have hlt := x.toBits.toNat_lt
  unfold Parts.ofFloat
  dsimp only
  split
  · next hzero =>
    change x.toBits.toNat / 2 ^ 52 % 2048 = 0 at hzero
    refine ⟨⟨?_, le_refl (-1074 : ℤ), (by decide : (-1074 : ℤ) ≤ 971), .inr rfl⟩, ?_⟩
    · change x.toBits.toNat % 2 ^ 52 < 2 ^ 53
      omega
    · change (-1074 + 1074 : ℤ).toNat * twoTo 52 + x.toBits.toNat % twoTo 52 = _
      rw [show (-1074 + 1074 : ℤ).toNat = 0 from rfl, Nat.zero_mul, Nat.zero_add]
      change x.toBits.toNat % 2 ^ 52 = _
      omega
  · next hpos =>
    change x.toBits.toNat / 2 ^ 52 % 2048 ≠ 0 at hpos
    refine ⟨⟨?_, ?_, ?_, .inl (Nat.le_add_right _ _)⟩, ?_⟩
    · change 2 ^ 52 + x.toBits.toNat % 2 ^ 52 < 2 ^ 53
      omega
    · change -1074 ≤ ((x.toBits.toNat / 2 ^ 52 % 2048 : ℕ) : ℤ) - 1075
      omega
    · change ((x.toBits.toNat / 2 ^ 52 % 2048 : ℕ) : ℤ) - 1075 ≤ 971
      omega
    · change (((x.toBits.toNat / 2 ^ 52 % 2048 : ℕ) : ℤ) - 1075 + 1074).toNat * 2 ^ 52 +
        (2 ^ 52 + x.toBits.toNat % 2 ^ 52) = _
      omega

/-- A finite double is written as a numeral that is read as it. -/
theorem exists_numeral_render (style : Style) (h : isFinite x = true) (hx : x.isNaN = false) :
    ∃ n : Numeral, render style x = (if isNegative x then ['-'] else []) ++ n.text ∧
      signed (isNegative x) (nearestDecimal n.digits n.last) = x := by
  obtain ⟨hproper, hbits⟩ := Parts.ofFloat_spec h
  have hmagnitude : signed (isNegative x) (Float.ofBits (UInt64.ofNat (Parts.ofFloat x).bits)) = x := by
    rw [hbits]
    exact signed_ofBits hx
  unfold render
  rw [hx, h]
  simp only [Bool.false_eq_true, if_false, Bool.not_true]
  by_cases hzero : (Parts.ofFloat x).significand = 0
  · refine ⟨.zero, ?_, ?_⟩
    · rw [if_pos hzero]
      rfl
    · have hnone : (Parts.ofFloat x).bits = 0 := by
        have hleast := hproper.normal.resolve_left (by omega)
        rw [Parts.bits, hzero, hleast]
        rfl
      rw [hnone] at hmagnitude
      exact hmagnitude
  · have hpos := Nat.pos_of_ne_zero hzero
    have hnearest := Parts.nearest_shortest hproper hpos
    have hdigits : (shortest (Parts.ofFloat x)).digits ≠ 0 := by
      intro h0
      have := hnearest.pos hpos
      rw [Digits.value, h0, Nat.cast_zero, zero_mul] at this
      exact absurd this (not_le.mpr (by positivity))
    obtain ⟨n, htext, hvalue⟩ := Digits.exists_numeral style hdigits
    refine ⟨n, by rw [if_neg hzero, htext], ?_⟩
    have hread : (Parts.ofFloat x).Nearest (n.digits * 10 ^ n.last) := (congrArg _ hvalue).mpr hnearest
    rw [nearestDecimal_eq hproper hpos hread]
    exact hmagnitude

end Conductor.Decimal
