import Conductor.Number
import Conductor.Proofs.Decimal.Bits

/-! The order of doubles is that of what they stand for: rational numbers, with an infinity on either side. -/

namespace Conductor.Decimal

open Float.Model (UnpackedFloat)
open Float.Model.UnpackedFloat (Sign)

/-- What an unpacked double stands for. What is no number stands for zero. -/
def extent : UnpackedFloat → WithBot (WithTop ℚ)
  | .infinity .negative => ⊥
  | .infinity .positive => ⊤
  | .notANumber => ((0 : ℚ) : WithTop ℚ)
  | .zero _ => ((0 : ℚ) : WithTop ℚ)
  | .finite s m e _ => ((s.apply m * 2 ^ e : ℚ) : WithTop ℚ)

/-- What a double stands for. -/
def value (x : Float) : WithBot (WithTop ℚ) := extent x.toModel.unpack

/-- A finite double in the form that is compared: as many digits as there are places for. -/
def Canonical : UnpackedFloat → Prop
  | .finite _ m e _ => m < 2 ^ 53 ∧ -1074 ≤ e ∧ (2 ^ 52 ≤ m ∨ e = -1074)
  | _ => True

def signOf (negative : Bool) : Sign := if negative then .negative else .positive

variable {x y : Float}

theorem ofBitVec_unpackSign (x : Float) :
    Sign.ofBitVec (@UnpackedFloat.unpackSign .binary64 x.toBits.toBitVec) = signOf (isNegative x) := by
  have hsign := toNat_sign x.toBits.toBitVec
  have hlt := x.toBits.toNat_lt
  have hbits : x.toBits.toBitVec.toNat = x.toBits.toNat := rfl
  unfold signOf isNegative
  change _ = if (x.toBits.toNat / 2 ^ 63 == 1) = true then _ else _
  split
  · next h =>
    rw [beq_iff_eq] at h
    have : @UnpackedFloat.unpackSign .binary64 x.toBits.toBitVec = 1#1 :=
      BitVec.eq_of_toNat_eq (by rw [hsign, hbits, h]; rfl)
    rw [this]
    rfl
  · next h =>
    rw [beq_iff_eq] at h
    have : @UnpackedFloat.unpackSign .binary64 x.toBits.toBitVec = 0#1 :=
      BitVec.eq_of_toNat_eq (by rw [hsign, hbits]; change _ = 0; omega)
    rw [this]
    rfl

theorem ofFloat_of_eq_zero (h : x.toBits.toNat / 2 ^ 52 % 2 ^ 11 = 0) :
    Parts.ofFloat x = ⟨isNegative x, x.toBits.toNat % 2 ^ 52, -1074⟩ := by
  change x.toBits.toNat / twoTo 52 % 2048 = 0 at h
  unfold Parts.ofFloat
  rw [h]
  rfl

theorem ofFloat_of_ne_zero (h : x.toBits.toNat / 2 ^ 52 % 2 ^ 11 ≠ 0) :
    Parts.ofFloat x = ⟨isNegative x, 2 ^ 52 + x.toBits.toNat % 2 ^ 52,
      ((x.toBits.toNat / 2 ^ 52 % 2 ^ 11 : ℕ) : ℤ) - 1075⟩ := by
  unfold Parts.ofFloat
  dsimp only
  split
  · next hzero => exact absurd hzero h
  · rfl

/-- A finite double unpacks to its parts. -/
theorem unpack_of_isFinite (h : isFinite x = true) : x.toModel.unpack =
    if hm : 0 < (Parts.ofFloat x).significand then
      .finite (signOf (isNegative x)) (Parts.ofFloat x).significand (Parts.ofFloat x).exponent hm
    else .zero (signOf (isNegative x)) := by
  have hne : x.toBits.toNat / twoTo 52 % 2048 ≠ 2047 := by simpa [isFinite] using h
  have hexponent : (@UnpackedFloat.unpackExponent .binary64 x.toBits.toBitVec).toNat =
      x.toBits.toNat / 2 ^ 52 % 2 ^ 11 := toNat_exponent x.toBits.toBitVec
  have hmantissa : (@UnpackedFloat.unpackMantissa .binary64 x.toBits.toBitVec).toNat =
      x.toBits.toNat % 2 ^ 52 := toNat_mantissa x.toBits.toBitVec
  have hlast : ¬ @UnpackedFloat.unpackExponent .binary64 x.toBits.toBitVec = -1#11 := fun h => by
    rw [h] at hexponent
    exact hne hexponent.symm
  change UnpackedFloat.unpack .binary64 x.toBits.toBitVec = _
  unfold UnpackedFloat.unpack
  dsimp only
  rw [if_neg hlast, ofBitVec_unpackSign]
  by_cases hzero : @UnpackedFloat.unpackExponent .binary64 x.toBits.toBitVec = 0#11
  · -- Without an exponent the digits are those that are stored.
    rw [hzero] at hexponent
    rw [if_pos hzero, ofFloat_of_eq_zero hexponent.symm]
    by_cases hnone : @UnpackedFloat.unpackMantissa .binary64 x.toBits.toBitVec = 0#52
    · rw [hnone] at hmantissa
      rw [dif_pos hnone, dif_neg (by rw [← hmantissa]; exact lt_irrefl 0)]
    · have hpos : 0 < x.toBits.toNat % 2 ^ 52 := by
        refine Nat.pos_of_ne_zero fun h0 => hnone (BitVec.eq_of_toNat_eq ?_)
        rw [hmantissa, h0]
        rfl
      rw [dif_neg hnone, dif_pos hpos]
      congr 1
      rw [hzero]
      rfl
  · -- With an exponent there is one more digit before them.
    have hpos : x.toBits.toNat / 2 ^ 52 % 2 ^ 11 ≠ 0 := fun h0 => by
      refine hzero (BitVec.eq_of_toNat_eq ?_)
      rw [hexponent, h0]
      rfl
    rw [if_neg hzero, ofFloat_of_ne_zero hpos, dif_pos (Nat.add_pos_left (by decide) _)]
    congr 1
    · rw [BitVec.toNat_append, hmantissa]
      exact (Nat.shiftLeft_add_eq_or_of_lt (Nat.mod_lt _ (by decide : 0 < 2 ^ 52)) 1).symm
    · rw [hexponent]
      rfl

theorem canonical_unpack (x : Float) : Canonical x.toModel.unpack := by
  by_cases h : isFinite x = true
  · obtain ⟨hproper, -⟩ := Parts.ofFloat_spec h
    rw [unpack_of_isFinite h]
    split
    · exact ⟨hproper.significand_lt, hproper.least, hproper.normal⟩
    · trivial
  · rw [Bool.not_eq_true] at h
    have hexponent : @UnpackedFloat.unpackExponent .binary64 x.toBits.toBitVec = -1#11 := by
      refine BitVec.eq_of_toNat_eq ?_
      rw [toNat_exponent]
      have : x.toBits.toNat / twoTo 52 % 2048 = 2047 := by simpa [isFinite] using h
      exact this
    change Canonical (UnpackedFloat.unpack .binary64 x.toBits.toBitVec)
    unfold UnpackedFloat.unpack
    dsimp only
    rw [if_pos hexponent]
    split <;> trivial

/-- A smaller exponent makes a smaller number: the digits of the greater one are all used. -/
theorem mul_zpow_lt {m n : ℕ} {e f : ℤ} (hm : m < 2 ^ 53) (he : -1074 ≤ e) (hn : 2 ^ 52 ≤ n ∨ f = -1074)
    (hlt : e < f) : (m * 2 ^ e : ℚ) < n * 2 ^ f := by
  have hn' : 2 ^ 52 ≤ n := hn.resolve_right (by omega)
  calc (m * 2 ^ e : ℚ) < 2 ^ 53 * 2 ^ e := by gcongr; exact_mod_cast hm
    _ = 2 ^ 52 * 2 ^ (e + 1) := by rw [zpow_add₀ two_ne_zero, zpow_one]; ring
    _ ≤ 2 ^ 52 * 2 ^ f := by gcongr; exacts [one_le_two, hlt]
    _ ≤ n * 2 ^ f := by gcongr; exact_mod_cast hn'

theorem compares_then {m n : ℕ} {e f : ℤ} (hm : m < 2 ^ 53 ∧ -1074 ≤ e ∧ (2 ^ 52 ≤ m ∨ e = -1074))
    (hn : n < 2 ^ 53 ∧ -1074 ≤ f ∧ (2 ^ 52 ≤ n ∨ f = -1074)) :
    ((compare e f).then (compare m n)).Compares (m * 2 ^ e : ℚ) (n * 2 ^ f) := by
  rcases lt_trichotomy e f with h | rfl | h
  · rw [compare_lt_iff_lt.mpr h]
    exact mul_zpow_lt hm.1 hm.2.1 hn.2.2 h
  · have hpos : (0 : ℚ) < 2 ^ e := by positivity
    rw [compare_eq_iff_eq.mpr rfl]
    change (compare m n).Compares _ _
    rcases lt_trichotomy m n with h | rfl | h
    · rw [compare_lt_iff_lt.mpr h]
      exact mul_lt_mul_of_pos_right (by exact_mod_cast h) hpos
    · rw [compare_eq_iff_eq.mpr rfl]
      rfl
    · rw [compare_gt_iff_gt.mpr h]
      exact mul_lt_mul_of_pos_right (by exact_mod_cast h) hpos
  · rw [compare_gt_iff_gt.mpr h]
    exact mul_zpow_lt hn.1 hn.2.1 hm.2.2 h

theorem compares_coe {o : Ordering} {q r : ℚ} (h : o.Compares q r) :
    o.Compares ((q : WithTop ℚ) : WithBot (WithTop ℚ)) ((r : WithTop ℚ) : WithBot (WithTop ℚ)) := by
  match o with
  | .lt => exact WithBot.coe_lt_coe.mpr (WithTop.coe_lt_coe.mpr h)
  | .eq => exact congrArg (fun q : ℚ => ((q : WithTop ℚ) : WithBot (WithTop ℚ))) h
  | .gt => exact WithBot.coe_lt_coe.mpr (WithTop.coe_lt_coe.mpr h)

theorem compares_neg {o : Ordering} {q r : ℚ} (h : o.Compares q r) : o.swap.Compares (-q) (-r) := by
  match o with
  | .lt => exact neg_lt_neg h
  | .eq => exact congrArg Neg.neg h
  | .gt => exact neg_lt_neg h

theorem apply_negative (n : ℕ) : ((Sign.negative.apply n : ℤ) : ℚ) = -n := by
  change ((-(n : ℤ) : ℤ) : ℚ) = -n
  push_cast
  rfl

theorem apply_positive (n : ℕ) : ((Sign.positive.apply n : ℤ) : ℚ) = n := rfl

/-- Numbers compare as what they stand for. -/
theorem exists_compare {u v : UnpackedFloat} (hu : Canonical u) (hv : Canonical v) (hu' : u ≠ .notANumber)
    (hv' : v ≠ .notANumber) : ∃ o, u.compare v = some o ∧ o.Compares (extent u) (extent v) := by
  have below (q : ℚ) : (⊥ : WithBot (WithTop ℚ)) < (q : WithTop ℚ) := WithBot.bot_lt_coe _
  have above (q : ℚ) : ((q : WithTop ℚ) : WithBot (WithTop ℚ)) < ⊤ :=
    WithBot.coe_lt_coe.mpr (WithTop.coe_lt_top q)
  have hpos {m : ℕ} (hm : 0 < m) (e : ℤ) : (0 : ℚ) < m * 2 ^ e := by positivity
  match u, v with
  | .notANumber, _ => exact absurd rfl hu'
  | _, .notANumber => exact absurd rfl hv'
  | .infinity .negative, .infinity .negative => exact ⟨_, rfl, rfl⟩
  | .infinity .negative, .infinity .positive => exact ⟨_, rfl, bot_lt_top⟩
  | .infinity .positive, .infinity .negative => exact ⟨_, rfl, bot_lt_top⟩
  | .infinity .positive, .infinity .positive => exact ⟨_, rfl, rfl⟩
  | .infinity .negative, .zero _ => exact ⟨_, rfl, below 0⟩
  | .infinity .negative, .finite _ _ _ _ => exact ⟨_, rfl, below _⟩
  | .infinity .positive, .zero _ => exact ⟨_, rfl, above 0⟩
  | .infinity .positive, .finite _ _ _ _ => exact ⟨_, rfl, above _⟩
  | .zero _, .infinity .negative => exact ⟨_, rfl, below 0⟩
  | .finite _ _ _ _, .infinity .negative => exact ⟨_, rfl, below _⟩
  | .zero _, .infinity .positive => exact ⟨_, rfl, above 0⟩
  | .finite _ _ _ _, .infinity .positive => exact ⟨_, rfl, above _⟩
  | .zero _, .zero _ => exact ⟨_, rfl, rfl⟩
  | .zero _, .finite .positive m e h =>
    exact ⟨.lt, rfl, compares_coe (o := .lt) (hpos h e)⟩
  | .zero _, .finite .negative m e h =>
    refine ⟨.gt, rfl, compares_coe (o := .gt) ?_⟩
    rw [apply_negative, neg_mul]
    exact neg_neg_of_pos (hpos h e)
  | .finite .positive m e h, .zero _ =>
    exact ⟨.gt, rfl, compares_coe (o := .gt) (hpos h e)⟩
  | .finite .negative m e h, .zero _ =>
    refine ⟨.lt, rfl, compares_coe (o := .lt) ?_⟩
    rw [apply_negative, neg_mul]
    exact neg_neg_of_pos (hpos h e)
  | .finite .negative m e h, .finite .positive n f h' =>
    refine ⟨.lt, rfl, compares_coe (o := .lt) ?_⟩
    rw [apply_negative, neg_mul]
    exact (neg_neg_of_pos (hpos h e)).trans (hpos h' f)
  | .finite .positive m e h, .finite .negative n f h' =>
    refine ⟨.gt, rfl, compares_coe (o := .gt) ?_⟩
    rw [apply_negative, neg_mul]
    exact (neg_neg_of_pos (hpos h' f)).trans (hpos h e)
  | .finite .positive m e _, .finite .positive n f _ => exact ⟨_, rfl, compares_coe (compares_then hu hv)⟩
  | .finite .negative m e _, .finite .negative n f _ =>
    refine ⟨_, rfl, compares_coe ?_⟩
    rw [apply_negative, apply_negative, neg_mul, neg_mul]
    exact compares_neg (compares_then hu hv)

theorem unpack_ne_notANumber (hx : x.isNaN = false) : x.toModel.unpack ≠ .notANumber := fun h => by
  change x.toModel.unpack.isNaN = false at hx
  rw [h] at hx
  cases hx

section Compared

variable (hx : x.isNaN = false) (hy : y.isNaN = false)
include hx hy

theorem exists_compare_unpack : ∃ o, x.toModel.unpack.compare y.toModel.unpack = some o ∧
    o.Compares (value x) (value y) :=
  exists_compare (canonical_unpack x) (canonical_unpack y) (unpack_ne_notANumber hx)
    (unpack_ne_notANumber hy)

theorem lt_iff_value : x < y ↔ value x < value y := by
  obtain ⟨o, ho, hcompares⟩ := exists_compare_unpack hx hy
  refine (decide_eq_true_iff : _ ↔ x.toModel < y.toModel).trans ?_
  change (x.toModel.unpack.compare y.toModel.unpack == some .lt) = true ↔ _
  rw [ho, ← hcompares.eq_lt]
  cases o <;> decide

theorem le_iff_value : x ≤ y ↔ value x ≤ value y := by
  obtain ⟨o, ho, hcompares⟩ := exists_compare_unpack hx hy
  refine (decide_eq_true_iff : _ ↔ x.toModel ≤ y.toModel).trans ?_
  change (x.toModel.unpack.compare y.toModel.unpack).any (·.isLE) = true ↔ _
  rw [ho, ← hcompares.ne_gt]
  cases o <;> decide

theorem beq_iff_value : (x == y) = true ↔ value x = value y := by
  obtain ⟨o, ho, hcompares⟩ := exists_compare_unpack hx hy
  change (x.toModel.unpack.compare y.toModel.unpack == some .eq) = true ↔ _
  rw [ho, ← hcompares.eq_eq]
  cases o <;> decide

end Compared

theorem negative_ofFloat (x : Float) : (Parts.ofFloat x).negative = isNegative x := by
  unfold Parts.ofFloat
  dsimp only
  split <;> rfl

/-- The rational that a finite double stands for. -/
def rational (x : Float) : ℚ :=
  (if isNegative x then -1 else 1) * ((Parts.ofFloat x).num / (Parts.ofFloat x).den)

theorem value_of_isFinite (h : isFinite x = true) : value x = (rational x : WithTop ℚ) := by
  rw [value, unpack_of_isFinite h, rational, Parts.num_div_den]
  split
  · unfold signOf extent
    dsimp only
    split
    · rw [apply_negative, neg_mul, neg_one_mul]
    · rw [apply_positive, one_mul]
  · next hzero =>
    rw [Nat.pos_iff_ne_zero, not_not] at hzero
    rw [hzero, Nat.cast_zero, zero_mul, mul_zero]
    rfl

theorem value_of_not_isFinite (hx : x.isNaN = false) (h : isFinite x = false) :
    value x = if isNegative x then ⊥ else ⊤ := by
  have hlast : x.toBits.toNat / twoTo 52 % 2048 = 2047 := by simpa [isFinite] using h
  have hexponent : @UnpackedFloat.unpackExponent .binary64 x.toBits.toBitVec = -1#11 :=
    BitVec.eq_of_toNat_eq ((toNat_exponent _).trans hlast)
  have hmantissa : @UnpackedFloat.unpackMantissa .binary64 x.toBits.toBitVec = 0#52 := by
    have hnumber := isNaNBits_toBits hx
    unfold UnpackedFloat.isNaNBits at hnumber
    rw [decide_eq_false_iff_not, not_and_not_right] at hnumber
    exact hnumber hexponent
  change extent (UnpackedFloat.unpack .binary64 x.toBits.toBitVec) = _
  unfold UnpackedFloat.unpack
  dsimp only
  rw [if_pos hexponent, if_pos hmantissa, ofBitVec_unpackSign, signOf]
  split <;> rfl

end Conductor.Decimal

namespace Conductor.Number

open Decimal (value)

/-- What a number stands for. -/
def extent : Number → WithBot (WithTop ℚ)
  | .int n => ((n : ℚ) : WithTop ℚ)
  | .double x => value x

def isNaN : Number → Bool
  | .int _ => false
  | .double x => x.isNaN

/-- A double is less than a number if what it stands for is. -/
theorem exceeds_iff {x : Float} {n : Number} (hx : x.isNaN = false) (hn : n.isNaN = false) :
    n.exceeds x = true ↔ value x < n.extent := by
  match n with
  | .double y => exact decide_eq_true_iff.trans (Decimal.lt_iff_value hx hn)
  | .int n =>
    unfold exceeds
    dsimp only
    rw [hx, if_neg Bool.false_ne_true]
    by_cases hfinite : Decimal.isFinite x = true
    · have hden : (0 : ℚ) < (Decimal.Parts.ofFloat x).den := by exact_mod_cast Decimal.twoTo_pos _
      rw [hfinite, Bool.not_true, if_neg Bool.false_ne_true, decide_eq_true_iff,
        Decimal.value_of_isFinite hfinite, Decimal.negative_ofFloat]
      refine Iff.trans ?_ (WithBot.coe_lt_coe.trans WithTop.coe_lt_coe).symm
      rw [Decimal.rational, mul_div_assoc', div_lt_iff₀ hden, ← Int.cast_lt (R := ℚ)]
      split
      · push_cast
        rw [neg_one_mul]
      · push_cast
        rw [one_mul]
    · rw [Bool.not_eq_true] at hfinite
      rw [hfinite, Bool.not_false, if_pos rfl, Decimal.value_of_not_isFinite hx hfinite]
      split
      · next h => exact iff_of_true h (WithBot.bot_lt_coe _)
      · next h => exact iff_of_false h not_top_lt

/-- One number is at most another; what is no number is neither. -/
structure AtMost (m n : Number) : Prop where
  left : m.isNaN = false
  right : n.isNaN = false
  extent_le : m.extent ≤ n.extent

/-- What is less than a number is less than a greater one. -/
theorem AtMost.exceeds {m n : Number} (h : m.AtMost n) {x : Float} (hx : x.isNaN = false)
    (hm : m.exceeds x = true) : n.exceeds x = true :=
  (exceeds_iff hx h.right).mpr (lt_of_lt_of_le ((exceeds_iff hx h.left).mp hm) h.extent_le)

end Conductor.Number
