import Conductor.Decimal.Nearest

/-! Doubles that equal themselves: all but what is no number. -/

namespace Conductor.Decimal

open Float.Model (UnpackedFloat)

variable {x : Float}

theorem compare_self_unpacked {u : UnpackedFloat} (h : u ≠ .notANumber) :
    u.compare u = some .eq := by
  match u with
  | .notANumber => exact absurd rfl h
  | .infinity s => cases s <;> rfl
  | .zero s => rfl
  | .finite .positive m e _ =>
    change some ((compare e e).then (compare m m)) = some .eq
    rw [Std.ReflOrd.compare_self, Std.ReflOrd.compare_self]
    rfl
  | .finite .negative m e _ =>
    change some ((compare e e).then (compare m m)).swap = some .eq
    rw [Std.ReflOrd.compare_self, Std.ReflOrd.compare_self]
    rfl

theorem beq_self (h : x.toModel.unpack ≠ .notANumber) : (x == x) = true := by
  change (x.toModel.unpack.compare x.toModel.unpack == some .eq) = true
  rw [compare_self_unpacked h]
  rfl

/-- What is no number is not at least zero. -/
theorem beq_self_of_nonneg (h : x ≥ 0.0) : (x == x) = true := by
  refine beq_self fun hx => ?_
  have hle : ((0.0 : Float).toModel.unpack.compare x.toModel.unpack).any (·.isLE) = true :=
    of_decide_eq_true h
  have hnone : ∀ u : UnpackedFloat, u.compare .notANumber = none := by
    intro u
    match u with
    | .notANumber | .infinity _ | .zero _ | .finite _ _ _ _ => rfl
  rw [hx, hnone] at hle
  cases hle

/-- The exponent of a double is that of its bits. -/
theorem toNat_unpackExponent (x : Float) :
    (@UnpackedFloat.unpackExponent .binary64 x.toModel.toBits.toBitVec).toNat =
      x.toBits.toNat / twoTo 52 % 2048 := by
  unfold UnpackedFloat.unpackExponent
  rw [BitVec.toNat_cast, BitVec.extractLsb_toNat, Nat.shiftRight_eq_div_pow]
  rfl

theorem beq_self_of_isFinite (h : isFinite x = true) : (x == x) = true := by
  refine beq_self fun hx => ?_
  -- What is no number has the greatest exponent.
  have hexponent : @UnpackedFloat.unpackExponent .binary64 x.toModel.toBits.toBitVec = -1#11 := by
    refine Decidable.byContradiction fun hne => ?_
    unfold Float.Model.unpack UnpackedFloat.unpack at hx
    dsimp only at hx
    rw [if_neg hne] at hx
    by_cases hzero : @UnpackedFloat.unpackExponent .binary64 x.toModel.toBits.toBitVec = 0#11
    · rw [if_pos hzero] at hx
      by_cases hmantissa : @UnpackedFloat.unpackMantissa .binary64 x.toModel.toBits.toBitVec = 0#52
      · rw [dif_pos hmantissa] at hx
        cases hx
      · rw [dif_neg hmantissa] at hx
        cases hx
    · rw [if_neg hzero] at hx
      cases hx
  have hnat := toNat_unpackExponent x
  rw [hexponent] at hnat
  unfold isFinite at h
  rw [← hnat] at h
  cases h

end Conductor.Decimal
