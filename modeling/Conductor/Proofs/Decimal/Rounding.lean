import Conductor.Decimal.Shortest
import Mathlib.Algebra.Order.Field.Power
import Mathlib.Data.Int.Log
import Mathlib.Data.Rat.Cast.Order
import Mathlib.Data.Rat.Floor
import Mathlib.Tactic.FieldSimp
import Mathlib.Tactic.Linarith
import Mathlib.Tactic.NormNum
import Mathlib.Tactic.Positivity
import Mathlib.Tactic.Ring

/-! Which rationals round to a double. All of them have the same nearest bits. -/

namespace Conductor.Decimal

/-- Powers with a positive and a negative part, as they stand in numerators and denominators. -/
theorem pow_toNat_div (b : ℚ) (e : ℤ) : b ^ e.toNat / b ^ (-e).toNat = b ^ e := by
  rcases le_total 0 e with he | he
  · rw [Int.toNat_of_nonpos (by omega : -e ≤ 0), pow_zero, div_one]
    conv_rhs => rw [← Int.toNat_of_nonneg he, zpow_natCast]
  · rw [Int.toNat_of_nonpos he, pow_zero, one_div, ← zpow_natCast, Int.toNat_of_nonneg (by omega), zpow_neg,
      inv_inv]

theorem cast_twoTo (n : ℕ) : (twoTo n : ℚ) = 2 ^ n := by
  change ((2 ^ n : ℕ) : ℚ) = 2 ^ n
  norm_num

theorem cast_tenTo (n : ℕ) : (tenTo n : ℚ) = 10 ^ n := by
  change ((10 ^ n : ℕ) : ℚ) = 10 ^ n
  norm_num

theorem twoTo_pos (n : ℕ) : 0 < twoTo n := Nat.pow_pos (by decide)

theorem tenTo_pos (n : ℕ) : 0 < tenTo n := Nat.pow_pos (by decide)

theorem roundDiv_of_le {a b m : ℕ} (hb : 0 < b) (hle : 2 * (m * b) ≤ 2 * a + b)
    (hge : 2 * a ≤ 2 * (m * b) + b)
    (hodd : m % 2 = 1 → 2 * (m * b) < 2 * a + b ∧ 2 * a < 2 * (m * b) + b) : roundDiv a b = m := by
  obtain ⟨q, r, hr, rfl⟩ : ∃ q r, r < b ∧ a = q * b + r :=
    ⟨a / b, a % b, Nat.mod_lt a hb, (Nat.div_add_mod' a b).symm⟩
  have hdiv : (q * b + r) / b = q := by
    rw [Nat.add_comm, Nat.add_mul_div_right r q hb, Nat.div_eq_of_lt hr, Nat.zero_add]
  have hmod : (q * b + r) % b = r := by
    rw [Nat.add_comm, Nat.add_mul_mod_self_right, Nat.mod_eq_of_lt hr]
  -- The quotient is `m`, or one less when the fraction is rounded up.
  have hcases : m = q ∨ m = q + 1 := by
    have h₁ : ¬ q + 2 ≤ m := fun h => by
      have := Nat.mul_le_mul_right b h
      rw [Nat.add_mul] at this
      omega
    have h₂ : ¬ m + 1 ≤ q := fun h => by
      have := Nat.mul_le_mul_right b h
      rw [Nat.add_mul] at this
      omega
    omega
  unfold roundDiv
  simp only [hdiv, hmod]
  rcases hcases with rfl | rfl
  · have hdown : 2 * r < b ∨ 2 * r = b ∧ m % 2 = 0 := by
      by_cases hm : m % 2 = 1
      · have := hodd hm
        omega
      · omega
    rw [if_pos hdown]
  · have hup : ¬ (2 * r < b ∨ 2 * r = b ∧ q % 2 = 0) := by
      rw [Nat.add_mul, Nat.one_mul] at hle hodd
      by_cases hm : (q + 1) % 2 = 1
      · have := hodd hm
        omega
      · omega
    rw [if_neg hup]

/-- The nearest natural number is the one that is half a unit away at most, at the even one exactly half. -/
theorem roundDiv_eq {a b m : ℕ} (hb : 0 < b) (hlow : (m : ℚ) - 1 / 2 ≤ a / b)
    (hhigh : (a / b : ℚ) ≤ m + 1 / 2)
    (hodd : m % 2 = 1 → (m : ℚ) - 1 / 2 < a / b ∧ (a / b : ℚ) < m + 1 / 2) : roundDiv a b = m := by
  have hbq : (0 : ℚ) < b := by exact_mod_cast hb
  rw [le_div_iff₀ hbq] at hlow
  rw [div_le_iff₀ hbq] at hhigh
  rw [lt_div_iff₀ hbq, div_lt_iff₀ hbq] at hodd
  refine roundDiv_of_le hb ?_ ?_ fun hm => ?_
  · have : (2 * (m * b) : ℚ) ≤ 2 * a + b := by linarith
    exact_mod_cast this
  · have : (2 * a : ℚ) ≤ 2 * (m * b) + b := by linarith
    exact_mod_cast this
  · have h₁ : (2 * (m * b) : ℚ) < 2 * a + b := by linarith [(hodd hm).1]
    have h₂ : (2 * a : ℚ) < 2 * (m * b) + b := by linarith [(hodd hm).2]
    exact ⟨by exact_mod_cast h₁, by exact_mod_cast h₂⟩

variable {num den : ℕ}

theorem scaled_div (num den : ℕ) (e : ℤ) :
    ((num * twoTo (-e).toNat : ℕ) : ℚ) / (den * twoTo e.toNat : ℕ) = num / den / 2 ^ e := by
  have hpow := pow_toNat_div 2 (-e)
  rw [neg_neg] at hpow
  push_cast
  rw [cast_twoTo, cast_twoTo, mul_div_mul_comm, hpow, zpow_neg, ← div_eq_mul_inv]

/-- The exponent of the last place of a quotient when it has 53 binary digits. -/
def place (num den : ℕ) : ℤ :=
  let guess : ℤ := num.log2 - den.log2 - 53
  if num * twoTo (-guess).toNat < twoTo 53 * (den * twoTo guess.toNat) then guess else guess + 1

theorem nearestBits_of_ne_zero (h : num ≠ 0) : nearestBits num den =
    (max (place num den) (-1074) + 1074).toNat * twoTo 52 +
      roundDiv (num * twoTo (-max (place num den) (-1074)).toNat)
        (den * twoTo (max (place num den) (-1074)).toNat) := if_neg h

/-- The binary digits of a quotient are those of the numerator less those of the denominator, or one more. -/
theorem log_div (hn : 0 < num) (hd : 0 < den) :
    (num.log2 : ℤ) - den.log2 - 1 ≤ Int.log 2 (num / den : ℚ) ∧
      Int.log 2 (num / den : ℚ) < (num.log2 : ℤ) - den.log2 + 1 := by
  have hdq : (0 : ℚ) < den := by exact_mod_cast hd
  have hx : (0 : ℚ) < num / den := div_pos (by exact_mod_cast hn) hdq
  have hnum : (2 : ℚ) ^ num.log2 ≤ num ∧ (num : ℚ) < 2 ^ (num.log2 + 1) :=
    ⟨by exact_mod_cast Nat.log2_self_le hn.ne', by exact_mod_cast Nat.lt_log2_self⟩
  have hden : (2 : ℚ) ^ den.log2 ≤ den ∧ (den : ℚ) ≤ 2 ^ (den.log2 + 1) :=
    ⟨by exact_mod_cast Nat.log2_self_le hd.ne', by exact_mod_cast (Nat.lt_log2_self).le⟩
  have hpow (a : ℤ) (b c : ℕ) (h : a + b = c) : (2 : ℚ) ^ a * 2 ^ b = 2 ^ c := by
    rw [← zpow_natCast, ← zpow_natCast, ← zpow_add₀ two_ne_zero, h]
  constructor
  · refine (Int.zpow_le_iff_le_log (by decide : 1 < 2) hx).mp ((le_div_iff₀ hdq).mpr ?_)
    push_cast
    calc (2 : ℚ) ^ ((num.log2 : ℤ) - den.log2 - 1) * den
        ≤ 2 ^ ((num.log2 : ℤ) - den.log2 - 1) * 2 ^ (den.log2 + 1) := by gcongr; exact hden.2
      _ = 2 ^ num.log2 := hpow _ _ _ (by push_cast; ring)
      _ ≤ num := hnum.1
  · refine (Int.lt_zpow_iff_log_lt (by decide : 1 < 2) hx).mp ((div_lt_iff₀ hdq).mpr ?_)
    push_cast
    calc (num : ℚ) < 2 ^ (num.log2 + 1) := hnum.2
      _ = 2 ^ ((num.log2 : ℤ) - den.log2 + 1) * 2 ^ den.log2 := (hpow _ _ _ (by push_cast; ring)).symm
      _ ≤ 2 ^ ((num.log2 : ℤ) - den.log2 + 1) * den := by gcongr; exact hden.1

theorem place_eq (hn : 0 < num) (hd : 0 < den) : place num den = Int.log 2 (num / den : ℚ) - 52 := by
  have hx : (0 : ℚ) < num / den := div_pos (by exact_mod_cast hn) (by exact_mod_cast hd)
  obtain ⟨hlow, hhigh⟩ := log_div hn hd
  obtain ⟨guess, hguess⟩ : ∃ g : ℤ, g = num.log2 - den.log2 - 53 := ⟨_, rfl⟩
  -- The comparison asks whether the quotient lies below `2 ^ (guess + 53)`.
  have hcond : num * twoTo (-guess).toNat < twoTo 53 * (den * twoTo guess.toNat) ↔
      Int.log 2 (num / den : ℚ) < guess + 53 := by
    have hpos : (0 : ℚ) < (den * twoTo guess.toNat : ℕ) := by exact_mod_cast Nat.mul_pos hd (twoTo_pos _)
    have hpow : (0 : ℚ) < 2 ^ guess := by positivity
    rw [← Int.lt_zpow_iff_log_lt (by decide : 1 < 2) hx, ← @Nat.cast_lt ℚ, Nat.cast_mul (twoTo 53),
      ← div_lt_iff₀ hpos, scaled_div, div_lt_iff₀ hpow, cast_twoTo, Nat.cast_ofNat, add_comm,
      zpow_add₀ two_ne_zero]
    rfl
  unfold place
  dsimp only
  rw [← hguess]
  split
  · next h =>
    have := hcond.mp h
    omega
  · next h =>
    have := mt hcond.mpr h
    omega

/-- Rounding to `m` places of a quotient's own, or of the least ones. -/
theorem nearestBits_of_log (hn : 0 < num) (hd : 0 < den) {e : ℤ} {m : ℕ}
    (he : max (Int.log 2 (num / den : ℚ) - 52) (-1074) = e) (hlow : (m : ℚ) - 1 / 2 ≤ num / den / 2 ^ e)
    (hhigh : num / den / 2 ^ e ≤ (m : ℚ) + 1 / 2)
    (hodd : m % 2 = 1 → (m : ℚ) - 1 / 2 < num / den / 2 ^ e ∧ num / den / 2 ^ e < (m : ℚ) + 1 / 2) :
    nearestBits num den = (e + 1074).toNat * twoTo 52 + m := by
  rw [nearestBits_of_ne_zero hn.ne', place_eq hn hd, he]
  rw [← scaled_div] at hlow hhigh hodd
  rw [roundDiv_eq (Nat.mul_pos hd (twoTo_pos _)) hlow hhigh hodd]

/-- A point in quarters of a double's last place rounds to the double. -/
def Interval.Holds (i : Interval) (y : ℚ) : Prop :=
  if i.closed = true then i.low ≤ y ∧ y ≤ i.high else i.low < y ∧ y < i.high

namespace Parts

variable {p : Parts} {x : ℚ}

/-- The double is the one nearest to `x`. -/
def Nearest (p : Parts) (x : ℚ) : Prop := (Interval.ofParts p).Holds (x / 2 ^ (p.exponent - 2))

/-- The parts are those of a finite double. -/
structure Proper (p : Parts) : Prop where
  significand_lt : p.significand < 2 ^ 53
  least : -1074 ≤ p.exponent
  greatest : p.exponent ≤ 971
  normal : 2 ^ 52 ≤ p.significand ∨ p.exponent = -1074

/-- The bits of the magnitude. -/
def bits (p : Parts) : ℕ := (p.exponent + 1074).toNat * twoTo 52 + p.significand

theorem cast_low (hpos : 0 < p.significand) : ((Interval.ofParts p).low : ℚ) =
    if p.significand = 2 ^ 52 ∧ -1074 < p.exponent then 4 * (p.significand : ℚ) - 1
    else 4 * (p.significand : ℚ) - 2 := by
  change (((if p.significand = 2 ^ 52 ∧ -1074 < p.exponent then 4 * p.significand - 1
    else 4 * p.significand - 2 : ℕ)) : ℚ) = _
  split
  · rw [Nat.cast_sub (by omega)]
    norm_num
  · rw [Nat.cast_sub (by omega)]
    norm_num

theorem cast_high (p : Parts) : ((Interval.ofParts p).high : ℚ) = 4 * p.significand + 2 := by
  change ((4 * p.significand + 2 : ℕ) : ℚ) = _
  norm_num

theorem div_zpow_sub_two (x : ℚ) (e : ℤ) : x / 2 ^ (e - 2) = 4 * (x / 2 ^ e) := by
  rw [zpow_sub₀ two_ne_zero, div_div_eq_mul_div]
  norm_num
  ring

theorem Nearest.quarters (h : p.Nearest x) :
    (Interval.ofParts p).low ≤ 4 * (x / 2 ^ p.exponent) ∧
    4 * (x / 2 ^ p.exponent) ≤ (Interval.ofParts p).high ∧
    (p.significand % 2 = 1 → (Interval.ofParts p).low < 4 * (x / 2 ^ p.exponent) ∧
      4 * (x / 2 ^ p.exponent) < (Interval.ofParts p).high) := by
  unfold Nearest Interval.Holds at h
  rw [div_zpow_sub_two] at h
  split at h
  · next hclosed =>
    have heven : p.significand % 2 = 0 := of_decide_eq_true hclosed
    exact ⟨h.1, h.2, fun hodd => by omega⟩
  · exact ⟨h.1.le, h.2.le, fun _ => h⟩

/-- The interval in places: a point is at most half a place away from the double, and less than that below a
power of two. -/
theorem Nearest.bounds (h : p.Nearest x) (hpos : 0 < p.significand) :
    p.significand - 1 / 2 ≤ x / 2 ^ p.exponent ∧ x / 2 ^ p.exponent ≤ p.significand + 1 / 2 ∧
    (p.significand % 2 = 1 →
      p.significand - 1 / 2 < x / 2 ^ p.exponent ∧ x / 2 ^ p.exponent < p.significand + 1 / 2) ∧
    (p.significand = 2 ^ 52 → -1074 < p.exponent → p.significand - 1 / 4 ≤ x / 2 ^ p.exponent) := by
  obtain ⟨hlow, hhigh, hodd⟩ := h.quarters
  rw [cast_low hpos] at hlow hodd
  rw [cast_high] at hhigh hodd
  by_cases hpower : p.significand = 2 ^ 52 ∧ -1074 < p.exponent
  · rw [if_pos hpower] at hlow hodd
    refine ⟨by linarith, by linarith, fun ho => ?_, fun _ _ => by linarith⟩
    have := hodd ho
    constructor <;> linarith
  · rw [if_neg hpower] at hlow hodd
    refine ⟨by linarith, by linarith, fun ho => ?_, fun hm he => absurd ⟨hm, he⟩ hpower⟩
    have := hodd ho
    constructor <;> linarith

theorem Nearest.pos (h : p.Nearest x) (hpos : 0 < p.significand) : 2 ^ (p.exponent - 1) ≤ x := by
  have he : (0 : ℚ) < 2 ^ p.exponent := by positivity
  have hm : (1 : ℚ) ≤ p.significand := by exact_mod_cast hpos
  have hhalf : (1 / 2 : ℚ) ≤ x / 2 ^ p.exponent := by linarith [(h.bounds hpos).1]
  calc (2 : ℚ) ^ (p.exponent - 1) = 1 / 2 * 2 ^ p.exponent := by
        rw [zpow_sub₀ two_ne_zero, zpow_one]
        ring
    _ ≤ x := (le_div_iff₀ he).mp hhalf

theorem Nearest.lt (h : p.Nearest x) (hpos : 0 < p.significand) (hp : p.Proper) :
    x < 2 ^ (p.exponent + 53) := by
  have he : (0 : ℚ) < 2 ^ p.exponent := by positivity
  have hm : (p.significand : ℚ) + 1 ≤ 2 ^ 53 := by exact_mod_cast hp.significand_lt
  have hplaces : x / 2 ^ p.exponent < 2 ^ 53 := by linarith [(h.bounds hpos).2.1]
  calc x < 2 ^ 53 * 2 ^ p.exponent := (div_lt_iff₀ he).mp hplaces
    _ = 2 ^ (p.exponent + 53) := by
        rw [zpow_add₀ two_ne_zero, mul_comm]
        rfl

/-- Right below a power of two the places are half as wide, and the quotient is rounded up to the power. -/
theorem Nearest.below (h : p.Nearest x) (hp : p.Proper) (hpos : 0 < p.significand)
    (hnormal : p.exponent ≠ -1074) (hlt : x < 2 ^ (p.exponent + 52)) :
    p.significand = 2 ^ 52 ∧ 2 ^ (p.exponent + 51) ≤ x ∧ 2 ^ 53 - 1 / 2 ≤ x / 2 ^ (p.exponent - 1) ∧
      x / 2 ^ (p.exponent - 1) < 2 ^ 53 := by
  have he : (0 : ℚ) < 2 ^ p.exponent := by positivity
  have hpow (k : ℕ) : (2 : ℚ) ^ (p.exponent + k) = 2 ^ k * 2 ^ p.exponent := by
    rw [zpow_add₀ two_ne_zero, zpow_natCast, mul_comm]
  have hplaces : x / 2 ^ p.exponent < 2 ^ 52 := (div_lt_iff₀ he).mpr (hpow 52 ▸ hlt)
  -- A greater significand would be more than half a place away.
  have hm : p.significand = 2 ^ 52 := by
    refine le_antisymm (Nat.le_of_not_lt fun hgt => ?_) (hp.normal.resolve_right hnormal)
    have hgt' : (2 : ℚ) ^ 52 + 1 ≤ p.significand := by exact_mod_cast hgt
    linarith [(h.bounds hpos).1]
  have hquarter : 2 ^ 52 - 1 / 4 ≤ x / 2 ^ p.exponent := by
    have hbound := (h.bounds hpos).2.2.2 hm (lt_of_le_of_ne hp.least (Ne.symm hnormal))
    rw [hm] at hbound
    push_cast at hbound
    exact hbound
  have hhalf : x / 2 ^ (p.exponent - 1) = 2 * (x / 2 ^ p.exponent) := by
    rw [zpow_sub₀ two_ne_zero, zpow_one, div_div_eq_mul_div]
    ring
  refine ⟨hm, hpow 51 ▸ (le_div_iff₀ he).mp ?_, ?_, ?_⟩
  · linarith
  · linarith
  · linarith

/-- All rationals that round to a double have its bits as their nearest ones. -/
theorem Proper.nearestBits_eq (hp : p.Proper) (hpos : 0 < p.significand) {num den : ℕ} (hd : 0 < den)
    (h : p.Nearest (num / den)) : nearestBits num den = p.bits := by
  have hx : (0 : ℚ) < num / den := lt_of_lt_of_le (by positivity) (h.pos hpos)
  have hn : 0 < num := by
    refine Nat.pos_of_ne_zero fun h0 => ?_
    rw [h0, Nat.cast_zero, zero_div] at hx
    exact lt_irrefl _ hx
  have hlog {k : ℤ} : (num / den : ℚ) < 2 ^ k ↔ Int.log 2 (num / den : ℚ) < k := by
    exact_mod_cast Int.lt_zpow_iff_log_lt (by decide : 1 < 2) hx
  have hgreatest : Int.log 2 (num / den : ℚ) < p.exponent + 53 := hlog.mp (h.lt hpos hp)
  have hleast := hp.least
  by_cases hfull : p.exponent = -1074 ∨ ¬ (num / den : ℚ) < 2 ^ (p.exponent + 52)
  · -- The quotient is rounded at the double's own place.
    obtain ⟨hlow, hhigh, hodd, -⟩ := h.bounds hpos
    refine nearestBits_of_log hn hd ?_ hlow hhigh hodd
    rw [hlog] at hfull
    omega
  · -- It lies right below a power of two, where the places are finer, and is rounded up to the power.
    obtain ⟨hnormal, hlt⟩ := not_or.mp hfull
    obtain ⟨hm, hge, hlow, hhigh⟩ := h.below hp hpos hnormal (not_not.mp hlt)
    have hbits : nearestBits num den = (p.exponent - 1 + 1074).toNat * twoTo 52 + 2 ^ 53 := by
      refine nearestBits_of_log hn hd ?_ ?_ ?_ fun ho => absurd ho (by decide)
      · rw [← not_lt, hlog] at hge
        rw [not_not, hlog] at hlt
        omega
      · push_cast
        exact hlow
      · push_cast
        linarith
    rw [hbits, bits, hm]
    change _ * 2 ^ 52 + _ = _ * 2 ^ 52 + _
    omega

theorem Proper.bits_lt (hp : p.Proper) : p.bits < infinityBits := by
  have h₁ := hp.significand_lt
  have h₂ := hp.greatest
  unfold bits infinityBits
  change _ * 2 ^ 52 + _ < 2047 * 2 ^ 52
  omega

end Parts

theorem lt_tenTo_length (n : ℕ) : n < 10 ^ (Nat.toDigits 10 n).length :=
  (Nat.length_toDigits_le_iff (by decide) Nat.length_toDigits_pos).mp le_rfl

theorem tenTo_length_le {n : ℕ} (hn : n ≠ 0) : 10 ^ ((Nat.toDigits 10 n).length - 1) ≤ n := by
  rcases Nat.eq_zero_or_pos ((Nat.toDigits 10 n).length - 1) with h | h
  · rw [h, pow_zero]
    exact Nat.pos_of_ne_zero hn
  · refine Nat.le_of_not_lt fun hlt => ?_
    have := (Nat.length_toDigits_le_iff (by decide) h).mpr hlt
    omega

/-- The place of the first digit of a decimal. -/
theorem pow_length_le {n : ℕ} (hn : n ≠ 0) (e : ℤ) :
    (10 : ℚ) ^ (((Nat.toDigits 10 n).length : ℤ) - 1 + e) ≤ n * 10 ^ e ∧
      (n * 10 ^ e : ℚ) < 10 ^ (((Nat.toDigits 10 n).length : ℤ) + e) := by
  have hlow : (10 : ℚ) ^ ((Nat.toDigits 10 n).length - 1) ≤ n := by exact_mod_cast tenTo_length_le hn
  have hhigh : (n : ℚ) < 10 ^ (Nat.toDigits 10 n).length := by exact_mod_cast lt_tenTo_length n
  have hone := Nat.length_toDigits_pos (b := 10) (n := n)
  constructor
  · rw [zpow_add₀ (by norm_num), show ((Nat.toDigits 10 n).length : ℤ) - 1 =
      (((Nat.toDigits 10 n).length - 1 : ℕ) : ℤ) by omega, zpow_natCast]
    gcongr
  · rw [zpow_add₀ (by norm_num), zpow_natCast]
    gcongr

/-- A decimal that rounds to a double is read as it: the guards of the reader are far off. -/
theorem nearestDecimal_eq {p : Parts} (hp : p.Proper) (hpos : 0 < p.significand) {digits : ℕ} {exponent : ℤ}
    (h : p.Nearest (digits * 10 ^ exponent)) :
    nearestDecimal digits exponent = Float.ofBits (UInt64.ofNat p.bits) := by
  -- What rounds to a double lies between `10 ^ (-330)` and `10 ^ 309`.
  have hlow : (10 : ℚ) ^ (-330 : ℤ) ≤ digits * 10 ^ exponent := by
    have hpow : (2 : ℚ) ^ 1075 ≤ 10 ^ 330 := by
      exact_mod_cast (by decide +kernel : 2 ^ 1075 ≤ 10 ^ 330)
    calc (10 : ℚ) ^ (-330 : ℤ) = (10 ^ 330)⁻¹ := rfl
      _ ≤ (2 ^ 1075)⁻¹ := inv_anti₀ (by positivity) hpow
      _ = 2 ^ (-1075 : ℤ) := rfl
      _ ≤ 2 ^ (p.exponent - 1) := zpow_le_zpow_right₀ one_le_two (by linarith [hp.least])
      _ ≤ digits * 10 ^ exponent := h.pos hpos
  have hhigh : digits * 10 ^ exponent < (10 : ℚ) ^ (309 : ℤ) := by
    calc digits * 10 ^ exponent < (2 : ℚ) ^ (p.exponent + 53) := h.lt hpos hp
      _ ≤ 2 ^ (1024 : ℤ) := zpow_le_zpow_right₀ one_le_two (by linarith [hp.greatest])
      _ ≤ (10 : ℚ) ^ (309 : ℤ) := by exact_mod_cast (by decide +kernel : 2 ^ 1024 ≤ 10 ^ 309)
  have hdigits : digits ≠ 0 := by
    rintro rfl
    rw [Nat.cast_zero, zero_mul] at hlow
    exact absurd hlow (not_le.mpr (by positivity))
  obtain ⟨hfirst, hfirst'⟩ := pow_length_le hdigits exponent
  have hten : (1 : ℚ) < 10 := by norm_num
  have hlength := (zpow_lt_zpow_iff_right₀ hten).mp (lt_of_le_of_lt hfirst hhigh)
  have hlength' := (zpow_lt_zpow_iff_right₀ hten).mp (lt_of_le_of_lt hlow hfirst')
  have hquotient : ((digits * tenTo exponent.toNat : ℕ) : ℚ) / (tenTo (-exponent).toNat : ℕ) =
      digits * 10 ^ exponent := by
    rw [Nat.cast_mul, cast_tenTo, cast_tenTo, mul_div_assoc, pow_toNat_div]
  have hbits := hp.nearestBits_eq hpos (tenTo_pos _) (hquotient ▸ h)
  unfold nearestDecimal nearest
  rw [if_neg hdigits, hbits, Nat.min_eq_left hp.bits_lt.le]
  dsimp only
  rw [if_neg (by omega), if_neg (by omega)]

end Conductor.Decimal
