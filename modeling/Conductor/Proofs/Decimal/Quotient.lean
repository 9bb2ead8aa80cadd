import Conductor.Proofs.Decimal.Finite

/-! The double nearest to a quotient. No double is nearer to it, so that a greater quotient has no smaller
double; and a quotient has a nearest double until it is half a place above the greatest one. -/

namespace Conductor.Decimal

variable {a b num den n : ℕ} {x y : Float} {q r : ℚ}

/-- A finite double to which no finite double is nearer. -/
structure IsNearest (x : Float) (q : ℚ) : Prop where
  finite : isFinite x = true
  le : ∀ y, isFinite y = true → |rational x - q| ≤ |rational y - q|

section Order

theorem le_iff_rational (hx : isFinite x = true) (hy : isFinite y = true) :
    x ≤ y ↔ rational x ≤ rational y := by
  rw [le_iff_value (isNaN_of_isFinite hx) (isNaN_of_isFinite hy), value_of_isFinite hx, value_of_isFinite hy]
  exact WithBot.coe_le_coe.trans WithTop.coe_le_coe

theorem lt_iff_rational (hx : isFinite x = true) (hy : isFinite y = true) :
    x < y ↔ rational x < rational y := by
  rw [lt_iff_value (isNaN_of_isFinite hx) (isNaN_of_isFinite hy), value_of_isFinite hx, value_of_isFinite hy]
  exact WithBot.coe_lt_coe.trans WithTop.coe_lt_coe

/-- A double is nearest to what it stands for. -/
theorem isNearest_rational (h : isFinite x = true) : IsNearest x (rational x) := by
  refine ⟨h, fun y _ => ?_⟩
  rw [sub_self, abs_zero]
  exact abs_nonneg _

theorem IsNearest.rational_eq (h : IsNearest x (rational y)) (hy : isFinite y = true) :
    rational x = rational y := by
  have hnear := h.le y hy
  rw [sub_self, abs_zero, abs_nonpos_iff] at hnear
  exact sub_eq_zero.mp hnear

/-- Rounding keeps a double on its side of every other one. -/
theorem IsNearest.le_of_le (h : IsNearest x q) (hy : isFinite y = true) (hle : q ≤ rational y) : x ≤ y := by
  rw [le_iff_rational h.finite hy]
  have hnear := h.le y hy
  rw [abs_of_nonneg (sub_nonneg.mpr hle)] at hnear
  linarith [le_abs_self (rational x - q)]

theorem IsNearest.ge_of_ge (h : IsNearest x q) (hy : isFinite y = true) (hge : rational y ≤ q) : y ≤ x := by
  rw [le_iff_rational hy h.finite]
  have hnear := h.le y hy
  rw [abs_of_nonpos (sub_nonpos.mpr hge)] at hnear
  linarith [neg_abs_le (rational x - q)]

/-- Rounding is monotone. -/
theorem IsNearest.le_of_lt (hx : IsNearest x q) (hy : IsNearest y r) (hlt : q < r) : x ≤ y := by
  by_contra hnot
  rw [le_iff_rational hx.finite hy.finite, not_le] at hnot
  have hx' := sq_le_sq.mpr (hx.le y hy.finite)
  have hy' := sq_le_sq.mpr (hy.le x hx.finite)
  -- Each of the two quotients lies on its own side of the middle between the doubles.
  have hhigh : rational x + rational y ≤ 2 * q := by
    by_contra hmiddle
    nlinarith [mul_pos (sub_pos.mpr hnot) (sub_pos.mpr (not_le.mp hmiddle))]
  have hlow : 2 * r ≤ rational x + rational y := by
    by_contra hmiddle
    nlinarith [mul_pos (sub_pos.mpr hnot) (sub_pos.mpr (not_le.mp hmiddle))]
  linarith

end Order

section Places

/-- The nearest natural number is at most half a unit away, and less than that if it is odd. -/
theorem roundDiv_near (hb : 0 < b) : |(roundDiv a b : ℚ) - a / b| ≤ 1 / 2 ∧
    (roundDiv a b % 2 = 1 → |(roundDiv a b : ℚ) - a / b| < 1 / 2) := by
  have hbq : (0 : ℚ) < b := by exact_mod_cast hb
  have hmod : ((a % b : ℕ) : ℚ) < b := by exact_mod_cast Nat.mod_lt a hb
  have hquotient : (a / b : ℚ) = (a / b : ℕ) + (a % b : ℕ) / b := by
    have hdiv : ((a / b : ℕ) : ℚ) * b + (a % b : ℕ) = a := by exact_mod_cast Nat.div_add_mod' a b
    rw [← hdiv, add_div, mul_div_cancel_right₀ _ hbq.ne']
  have hfraction : (0 : ℚ) ≤ (a % b : ℕ) / b := by positivity
  unfold roundDiv
  dsimp only
  rw [hquotient]
  split
  · next h =>
    have hhalf : ((a % b : ℕ) : ℚ) / b ≤ 1 / 2 := by
      have hle : 2 * (a % b) ≤ b := by omega
      have hcast : (2 * (a % b : ℕ) : ℚ) ≤ b := by exact_mod_cast hle
      rw [div_le_iff₀ hbq]
      linarith
    rw [sub_add_cancel_left, abs_neg, abs_of_nonneg hfraction]
    refine ⟨hhalf, fun hodd => ?_⟩
    have hlt : 2 * (a % b) < b := by omega
    have hcast : (2 * (a % b : ℕ) : ℚ) < b := by exact_mod_cast hlt
    rw [div_lt_iff₀ hbq]
    linarith
  · next h =>
    have hhalf : (1 / 2 : ℚ) ≤ (a % b : ℕ) / b := by
      have hle : b ≤ 2 * (a % b) := by omega
      have hcast : (b : ℚ) ≤ 2 * (a % b : ℕ) := by exact_mod_cast hle
      rw [le_div_iff₀ hbq]
      linarith
    have hone : ((a % b : ℕ) : ℚ) / b ≤ 1 := (div_le_one₀ hbq).mpr hmod.le
    push_cast
    rw [add_sub_add_left_eq_sub, abs_of_nonneg (sub_nonneg.mpr hone)]
    refine ⟨by linarith, fun hodd => ?_⟩
    have hlt : b < 2 * (a % b) := by omega
    have hcast : (b : ℚ) < 2 * (a % b : ℕ) := by exact_mod_cast hlt
    have hstrict : (1 / 2 : ℚ) < (a % b : ℕ) / b := by
      rw [lt_div_iff₀ hbq]
      linarith
    linarith

/-- A quotient in places of `2 ^ e`, of which it has 53 binary digits unless the places are the least ones,
and the nearest number `m` of places. -/
structure Placed (num den : ℕ) (e : ℤ) (m : ℕ) : Prop where
  bits : nearestBits num den = (e + 1074).toNat * twoTo 52 + m
  least : -1074 ≤ e
  low : e = -1074 ∨ 2 ^ 52 ≤ (num / den : ℚ) / 2 ^ e
  high : (num / den : ℚ) / 2 ^ e < 2 ^ 53
  near : |(m : ℚ) - num / den / 2 ^ e| ≤ 1 / 2
  odd : m % 2 = 1 → |(m : ℚ) - num / den / 2 ^ e| < 1 / 2

theorem exists_placed (hn : 0 < num) (hd : 0 < den) : ∃ e m, Placed num den e m := by
  have hx : (0 : ℚ) < num / den := div_pos (by exact_mod_cast hn) (by exact_mod_cast hd)
  obtain ⟨e, he⟩ : ∃ e, e = max (place num den) (-1074) := ⟨_, rfl⟩
  have hpow : (0 : ℚ) < 2 ^ e := by positivity
  have hplaces (k : ℕ) : (2 : ℚ) ^ k * 2 ^ e = 2 ^ (e + k) := by
    rw [zpow_add₀ two_ne_zero, zpow_natCast, mul_comm]
  obtain ⟨hnear, hodd⟩ := roundDiv_near (a := num * twoTo (-e).toNat) (Nat.mul_pos hd (twoTo_pos e.toNat))
  rw [scaled_div] at hnear hodd
  refine ⟨e, roundDiv (num * twoTo (-e).toNat) (den * twoTo e.toNat), ?_, ?_, ?_, ?_, hnear, hodd⟩
  · rw [nearestBits_of_ne_zero hn.ne', ← he]
  · rw [he]
    exact le_max_right _ _
  · rw [place_eq hn hd] at he
    by_cases hleast : e = -1074
    · exact .inl hleast
    · refine .inr ((le_div_iff₀ hpow).mpr ?_)
      rw [hplaces]
      exact (Int.zpow_le_iff_le_log (by decide : 1 < 2) hx).mpr (by push_cast; omega)
  · rw [place_eq hn hd] at he
    rw [div_lt_iff₀ hpow, hplaces]
    exact (Int.lt_zpow_iff_log_lt (by decide : 1 < 2) hx).mpr (by push_cast; omega)

variable {e : ℤ} {m : ℕ}

theorem Placed.le (h : Placed num den e m) : m ≤ 2 ^ 53 := by
  have hnear := abs_le.mp h.near
  have hlt : (m : ℚ) < (2 ^ 53 + 1 : ℕ) := by
    push_cast
    linarith [h.high, hnear.2]
  exact Nat.lt_succ_iff.mp (by exact_mod_cast hlt)

theorem Placed.normal (h : Placed num den e m) : e = -1074 ∨ 2 ^ 52 ≤ m := by
  refine h.low.imp_right fun hlow => ?_
  have hnear := abs_le.mp h.near
  have hlt : ((2 ^ 52 : ℕ) : ℚ) < (m + 1 : ℕ) := by
    push_cast
    linarith [hnear.1]
  exact Nat.lt_succ_iff.mp (by exact_mod_cast hlt)

/-- No whole number of places is nearer than `m`. -/
theorem Placed.le_of_int (h : Placed num den e m) (k : ℤ) :
    |(m : ℚ) - num / den / 2 ^ e| ≤ |(k : ℚ) - num / den / 2 ^ e| := by
  by_cases hk : k = m
  · rw [hk, Int.cast_natCast]
  · have hapart : (1 : ℚ) ≤ |(k : ℚ) - m| := by
      have hone : 1 ≤ |k - m| := Int.one_le_abs (sub_ne_zero.mpr hk)
      exact_mod_cast hone
    have htriangle := abs_sub_le (k : ℚ) (num / den / 2 ^ e) m
    rw [abs_sub_comm (num / den / 2 ^ e : ℚ) m] at htriangle
    linarith [h.near]

end Places

section Rounded

variable {e : ℤ} {m : ℕ}

/-- The double with certain bits stands for `m` places if they are those of `m` places. A carry into the
next power of two changes the places and not what they come to. -/
theorem rational_ofBits (hlt : n < infinityBits) (hn : n = (e + 1074).toNat * twoTo 52 + m)
    (hleast : -1074 ≤ e) (hm : m ≤ 2 ^ 53) (hnormal : e = -1074 ∨ 2 ^ 52 ≤ m) :
    rational (Float.ofBits (UInt64.ofNat n)) = m * 2 ^ e := by
  obtain ⟨x, hx⟩ : ∃ x, x = Float.ofBits (UInt64.ofNat n) := ⟨_, rfl⟩
  have htoBits : x.toBits.toNat = n := hx ▸ toNat_toBits_ofBits hlt
  obtain ⟨hproper, hbits⟩ := Parts.ofFloat_spec (hx ▸ isFinite_ofBits hlt : isFinite x = true)
  change n < 2047 * 2 ^ 52 at hlt
  change n = (e + 1074).toNat * 2 ^ 52 + m at hn
  rw [htoBits, Nat.mod_eq_of_lt (by omega)] at hbits
  change ((Parts.ofFloat x).exponent + 1074).toNat * 2 ^ 52 + (Parts.ofFloat x).significand = n at hbits
  have hsign : isNegative x = false := by
    unfold isNegative
    rw [htoBits, beq_eq_false_iff_ne]
    change n / 2 ^ 63 ≠ 1
    omega
  rw [← hx, rational, hsign, if_neg Bool.false_ne_true, one_mul, Parts.num_div_den]
  have hsignificand := hproper.significand_lt
  have hexponent := hproper.least
  have hfull := hproper.normal
  by_cases hcarry : m = 2 ^ 53
  · have hplace : (Parts.ofFloat x).exponent = e + 1 := by omega
    have hpower : (Parts.ofFloat x).significand = 2 ^ 52 := by omega
    rw [hplace, hpower, hcarry, zpow_add₀ two_ne_zero]
    push_cast
    ring
  · have hplace : (Parts.ofFloat x).exponent = e := by omega
    have hsame : (Parts.ofFloat x).significand = m := by omega
    rw [hplace, hsame]

/-- A finite double is a whole number of places. -/
theorem exists_rational (hy : isFinite y = true) :
    ∃ (k : ℤ) (f : ℤ), rational y = k * 2 ^ f ∧ -1074 ≤ f ∧ |(k : ℚ)| < 2 ^ 53 := by
  obtain ⟨hproper, -⟩ := Parts.ofFloat_spec hy
  have hlt : ((Parts.ofFloat y).significand : ℚ) < 2 ^ 53 := by exact_mod_cast hproper.significand_lt
  rw [rational, Parts.num_div_den]
  split
  · refine ⟨-(Parts.ofFloat y).significand, _, ?_, hproper.least, ?_⟩
    · push_cast
      ring
    · push_cast
      rwa [abs_neg, abs_of_nonneg (Nat.cast_nonneg _)]
  · refine ⟨(Parts.ofFloat y).significand, _, ?_, hproper.least, ?_⟩
    · push_cast
      ring
    · push_cast
      rwa [abs_of_nonneg (Nat.cast_nonneg _)]

/-- The nearest number of places is no farther away than any double. -/
theorem Placed.le_of_isFinite (h : Placed num den e m) (hy : isFinite y = true) :
    |(m * 2 ^ e : ℚ) - num / den| ≤ |rational y - num / den| := by
  obtain ⟨k, f, hk, hf, hlt⟩ := exists_rational hy
  have hpow : (0 : ℚ) < 2 ^ e := by positivity
  have hscale (z : ℚ) : |z * 2 ^ e - num / den| = |z - num / den / 2 ^ e| * 2 ^ e := by
    rw [← abs_of_pos hpow, ← abs_mul, abs_of_pos hpow, sub_mul, div_mul_cancel₀ _ hpow.ne']
  rcases le_or_gt e f with hle | hfiner
  · -- The double is a whole number of the quotient's places.
    have hwhole : rational y = ((k * 2 ^ (f - e).toNat : ℤ) : ℚ) * 2 ^ e := by
      rw [hk]
      push_cast
      rw [mul_assoc, ← zpow_natCast, Int.toNat_of_nonneg (by omega), ← zpow_add₀ two_ne_zero,
        sub_add_cancel]
    rw [hwhole, hscale, hscale]
    exact mul_le_mul_of_nonneg_right (h.le_of_int _) hpow.le
  · -- The double is below the power of two that the quotient is not below.
    have hlow : (2 : ℚ) ^ 52 * 2 ^ e ≤ num / den := (le_div_iff₀ hpow).mp (h.low.resolve_left (by omega))
    have hbelow : rational y ≤ 2 ^ 52 * 2 ^ e := by
      calc rational y = k * 2 ^ f := hk
        _ ≤ 2 ^ 53 * 2 ^ f := by gcongr; exact (le_abs_self _).trans hlt.le
        _ ≤ 2 ^ 53 * 2 ^ (e - 1) := by gcongr; exacts [one_le_two, by omega]
        _ = (2 : ℚ) ^ 52 * 2 ^ e := by rw [zpow_sub₀ two_ne_zero, zpow_one]; ring
    have hpower := h.le_of_int (2 ^ 52)
    rw [Int.cast_pow, Int.cast_ofNat] at hpower
    calc |(m * 2 ^ e : ℚ) - num / den| ≤ |2 ^ 52 * 2 ^ e - (num : ℚ) / den| := by
          rw [hscale, hscale]
          exact mul_le_mul_of_nonneg_right hpower hpow.le
      _ = num / den - 2 ^ 52 * 2 ^ e := by rw [abs_sub_comm, abs_of_nonneg (sub_nonneg.mpr hlow)]
      _ ≤ num / den - rational y := by linarith
      _ ≤ |rational y - num / den| := by rw [abs_sub_comm]; exact le_abs_self _

theorem isNearest_nearest (hd : 0 < den) (h : nearestBits num den < infinityBits) :
    IsNearest (nearest num den) (num / den) := by
  unfold nearest
  rw [Nat.min_eq_left h.le]
  refine ⟨isFinite_ofBits h, fun y hy => ?_⟩
  rcases Nat.eq_zero_or_pos num with rfl | hn
  · have hzero : rational (Float.ofBits (UInt64.ofNat (nearestBits 0 den))) = ((0 : ℕ) : ℚ) * 2 ^ (-1074 : ℤ) :=
      rational_ofBits h rfl le_rfl (Nat.zero_le _) (.inl rfl)
    rw [hzero, Nat.cast_zero, zero_mul, zero_div, sub_zero, abs_zero]
    exact abs_nonneg _
  · obtain ⟨e, m, hplaced⟩ := exists_placed hn hd
    rw [rational_ofBits h hplaced.bits hplaced.least hplaced.le hplaced.normal]
    exact hplaced.le_of_isFinite hy

end Rounded

section Range

/-- The middle between the greatest double and the next power of two: from there on nothing has a nearest
double. -/
def rangeEnd : ℕ := twoTo 1024 - twoTo 970

theorem twoTo_le_twoTo (h : a ≤ b) : twoTo a ≤ twoTo b := Nat.pow_le_pow_right two_pos h

/-- The greatest places are those of `2 ^ 971`. -/
theorem cast_rangeEnd : (rangeEnd : ℚ) = (2 ^ 53 - 1 / 2) * 2 ^ (971 : ℤ) := by
  have hpower : (2 : ℚ) ^ 1024 = 2 ^ 53 * 2 ^ 971 := pow_add 2 53 971
  have hplace : (2 : ℚ) ^ 971 = 2 ^ 970 * 2 := pow_succ 2 970
  have hcast : (2 : ℚ) ^ (971 : ℤ) = 2 ^ 971 := zpow_natCast 2 971
  have hle : twoTo 970 ≤ twoTo 1024 := twoTo_le_twoTo (by decide)
  rw [rangeEnd, Nat.cast_sub hle, cast_twoTo, cast_twoTo, hcast, hpower, hplace]
  generalize (2 : ℚ) ^ 970 = half
  ring

theorem rangeEnd_pos : 0 < rangeEnd := by
  have hpos : (0 : ℚ) < rangeEnd := by
    rw [cast_rangeEnd]
    positivity
  exact_mod_cast hpos

theorem nearestBits_lt_iff (hd : 0 < den) :
    nearestBits num den < infinityBits ↔ (num / den : ℚ) < rangeEnd := by
  rw [cast_rangeEnd]
  rcases Nat.eq_zero_or_pos num with rfl | hn
  · refine iff_of_true (by decide : (0 : ℕ) < infinityBits) ?_
    rw [Nat.cast_zero, zero_div]
    positivity
  · obtain ⟨e, m, h⟩ := exists_placed hn hd
    have hpow : (0 : ℚ) < 2 ^ e := by positivity
    have hhigh := (div_lt_iff₀ hpow).mp h.high
    have hmost := h.le
    have hleast := h.least
    have hnormal := h.normal
    rw [h.bits]
    change (e + 1074).toNat * 2 ^ 52 + m < 2047 * 2 ^ 52 ↔ _
    rcases lt_trichotomy e 971 with hlt | rfl | hgt
    · refine iff_of_true (by omega) ?_
      calc (num / den : ℚ) < 2 ^ 53 * 2 ^ e := hhigh
        _ ≤ 2 ^ 53 * 2 ^ (970 : ℤ) := by gcongr; exacts [one_le_two, by omega]
        _ = 2 ^ 52 * 2 ^ (971 : ℤ) := by rw [show (971 : ℤ) = 970 + 1 from rfl, zpow_add_one₀ two_ne_zero]; ring
        _ ≤ (2 ^ 53 - 1 / 2) * 2 ^ (971 : ℤ) := by gcongr; norm_num
    · -- The quotient has the greatest places: it is rounded up to the power of two from the middle on.
      have hnear := abs_le.mp h.near
      rw [← div_lt_iff₀ hpow]
      constructor
      · intro hbits
        by_cases hlast : m = 2 ^ 53 - 1
        · have hodd := abs_lt.mp (h.odd (by omega))
          have hm : (m : ℚ) + 1 = 2 ^ 53 := by exact_mod_cast (by omega : m + 1 = 2 ^ 53)
          linarith [hodd.1]
        · have hm : (m : ℚ) + 2 ≤ 2 ^ 53 := by exact_mod_cast (by omega : m + 2 ≤ 2 ^ 53)
          linarith [hnear.1]
      · intro hbelow
        have hm : (m : ℚ) < (2 ^ 53 : ℕ) := by
          push_cast
          linarith [hnear.2]
        have hm' : m < 2 ^ 53 := by exact_mod_cast hm
        omega
    · refine iff_of_false (by omega) (not_lt.mpr ?_)
      have hlow := (le_div_iff₀ hpow).mp (h.low.resolve_left (by omega))
      calc ((2 : ℚ) ^ 53 - 1 / 2) * 2 ^ (971 : ℤ) ≤ 2 ^ 53 * 2 ^ (971 : ℤ) := by gcongr; norm_num
        _ = 2 ^ 52 * 2 ^ (972 : ℤ) := by rw [show (972 : ℤ) = 971 + 1 from rfl, zpow_add_one₀ two_ne_zero]; ring
        _ ≤ 2 ^ 52 * 2 ^ e := by gcongr; exacts [one_le_two, by omega]
        _ ≤ num / den := hlow

/-- An integer has no nearest double if it is too large. -/
theorem ofInt?_eq_none_iff {n : ℤ} : ofInt? n = none ↔ rangeEnd ≤ n.natAbs := by
  have hbits : nearestBits n.natAbs 1 < infinityBits ↔ (n.natAbs / (1 : ℕ) : ℚ) < rangeEnd :=
    nearestBits_lt_iff one_pos
  rw [Nat.cast_one, div_one, Nat.cast_lt] at hbits
  rw [← not_lt, ← hbits, ofInt?, quotient?]
  split
  · next h => exact iff_of_false (Option.some_ne_none _) (not_not.mpr h)
  · next h => exact iff_of_true rfl h

/-- At least halved, an integer up to the power of two next to the greatest double is in the range. -/
theorem exists_quotient? {n : ℤ} (hd : 2 ≤ den) (h : n.natAbs < twoTo 1024) : ∃ x, quotient? n den = some x := by
  have hden : (2 : ℚ) ≤ den := by exact_mod_cast hd
  have hlt : (n.natAbs : ℚ) < 2 ^ 53 * 2 ^ (971 : ℤ) := by
    calc (n.natAbs : ℚ) < twoTo 1024 := by exact_mod_cast h
      _ = 2 ^ (53 + 971 : ℤ) := by
          rw [cast_twoTo, ← zpow_natCast]
          rfl
      _ = 2 ^ 53 * 2 ^ (971 : ℤ) := zpow_add₀ two_ne_zero 53 971
  have hbits : nearestBits n.natAbs den < infinityBits := by
    rw [nearestBits_lt_iff (by omega), cast_rangeEnd]
    calc (n.natAbs / den : ℚ) ≤ n.natAbs / 2 :=
          div_le_div_of_nonneg_left (Nat.cast_nonneg _) two_pos hden
      _ < 2 ^ 52 * 2 ^ (971 : ℤ) := by linarith
      _ ≤ (2 ^ 53 - 1 / 2) * 2 ^ (971 : ℤ) := by gcongr; norm_num
  exact ⟨_, if_pos hbits⟩

end Range

end Conductor.Decimal
