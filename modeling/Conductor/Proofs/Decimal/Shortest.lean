import Conductor.Proofs.Decimal.Rounding

/-! The shortest digits of a double round to it. Seventeen are always enough: the grid that has them is finer
than the doubles are. -/

namespace Conductor.Decimal

variable {p : Parts} {d : Digits} {grid : ℤ}

def Digits.value (d : Digits) : ℚ := d.digits * 10 ^ d.exponent

/-- Taking zeros off leaves the value. -/
theorem value_trimZeros (fuel : ℕ) (d : Digits) : (d.trimZeros fuel).value = d.value := by
  induction fuel generalizing d with
  | zero => rfl
  | succ fuel ih =>
    unfold Digits.trimZeros
    split
    · next h =>
      rw [ih]
      have hten : (d.digits : ℚ) = ((d.digits / 10 : ℕ) : ℚ) * 10 := by
        exact_mod_cast (Nat.div_mul_cancel (Nat.dvd_of_mod_eq_zero h.2)).symm
      rw [Digits.value, Digits.value, hten, zpow_add₀ (by norm_num), zpow_one]
      ring
    · rfl

namespace Parts

/-- The grid points of `onGrid?` in quarters of the last place. -/
theorem mul_unit_le (p : Parts) (grid : ℤ) (a c : ℕ) :
    (a * (twoTo (p.exponent - 2).toNat * tenTo (-grid).toNat) ≤
      c * (twoTo (2 - p.exponent).toNat * tenTo grid.toNat) ↔
        (a : ℚ) ≤ c * 10 ^ grid / 2 ^ (p.exponent - 2)) ∧
    (c * (twoTo (2 - p.exponent).toNat * tenTo grid.toNat) ≤
      a * (twoTo (p.exponent - 2).toNat * tenTo (-grid).toNat) ↔
        (c * 10 ^ grid / 2 ^ (p.exponent - 2) : ℚ) ≤ a) := by
  have htwo := pow_toNat_div 2 (p.exponent - 2)
  have hten := pow_toNat_div 10 grid
  rw [neg_sub] at htwo
  have hA : (0 : ℚ) < 2 ^ (p.exponent - 2).toNat := by positivity
  have hB : (0 : ℚ) < 2 ^ (2 - p.exponent).toNat := by positivity
  have hC : (0 : ℚ) < 10 ^ grid.toNat := by positivity
  have hD : (0 : ℚ) < 10 ^ (-grid).toNat := by positivity
  have hkey : (c * 10 ^ grid / 2 ^ (p.exponent - 2) : ℚ) =
      c * (2 ^ (2 - p.exponent).toNat * 10 ^ grid.toNat) /
        (2 ^ (p.exponent - 2).toNat * 10 ^ (-grid).toNat) := by
    rw [← htwo, ← hten]
    field_simp
  rw [hkey, le_div_iff₀ (by positivity), div_le_iff₀ (by positivity)]
  simp only [← cast_twoTo, ← cast_tenTo]
  constructor
  · exact_mod_cast Iff.rfl
  · exact_mod_cast Iff.rfl

theorem contains_iff (p : Parts) (grid : ℤ) (c : ℕ) :
    (Interval.ofParts p).contains (twoTo (p.exponent - 2).toNat * tenTo (-grid).toNat)
      (twoTo (2 - p.exponent).toNat * tenTo grid.toNat) c = true ↔ p.Nearest (c * 10 ^ grid) := by
  obtain ⟨hlow, hlow'⟩ := mul_unit_le p grid (Interval.ofParts p).low c
  obtain ⟨hhigh', hhigh⟩ := mul_unit_le p grid (Interval.ofParts p).high c
  unfold Interval.contains Nearest Interval.Holds
  split
  · rw [Bool.and_eq_true, decide_eq_true_eq, decide_eq_true_eq, hlow, hhigh]
  · rw [Bool.and_eq_true, decide_eq_true_eq, decide_eq_true_eq, ← not_le, ← not_le, hlow', hhigh', not_le,
      not_le]

theorem nearest_of_onGrid? (h : onGrid? p grid = some d) : p.Nearest d.value := by
  unfold onGrid? at h
  dsimp only at h
  split at h
  · next hbelow habove =>
    cases h
    split
    · exact (contains_iff p grid _).mp hbelow
    · exact (contains_iff p grid _).mp habove
  · next hbelow _ =>
    cases h
    exact (contains_iff p grid _).mp hbelow
  · next _ habove =>
    cases h
    exact (contains_iff p grid _).mp habove
  · cases h

/-- Less than half a place away, and less than a quarter below a power of two, is near enough. -/
theorem nearest_of_lt {x : ℚ} (hpos : 0 < p.significand) (hlow : p.significand - 1 / 2 < x / 2 ^ p.exponent)
    (hpower : p.significand = 2 ^ 52 → p.significand - 1 / 4 < x / 2 ^ p.exponent)
    (hhigh : x / 2 ^ p.exponent < p.significand + 1 / 2) : p.Nearest x := by
  have hquarter := div_zpow_sub_two x p.exponent
  have hlow' : ((Interval.ofParts p).low : ℚ) < x / 2 ^ (p.exponent - 2) := by
    rw [cast_low hpos, hquarter]
    split
    · next h => linarith [hpower h.1]
    · linarith
  have hhigh' : x / 2 ^ (p.exponent - 2) < ((Interval.ofParts p).high : ℚ) := by
    rw [cast_high, hquarter]
    linarith
  unfold Nearest Interval.Holds
  split
  · exact ⟨hlow'.le, hhigh'.le⟩
  · exact ⟨hlow', hhigh'⟩

/-- A grid whose step is less than a place, and less than half of one below a power of two, has a point near
enough on one of the two sides of the value. -/
theorem nearest_or_nearest (hp : p.Proper) (hpos : 0 < p.significand)
    (hfine : 10 ^ grid * 10 ^ 16 ≤ (p.significand * 2 ^ p.exponent : ℚ)) {c : ℕ}
    (hbelow : (c * 10 ^ grid / 2 ^ p.exponent : ℚ) ≤ p.significand)
    (habove : (p.significand : ℚ) < (c + 1 : ℕ) * 10 ^ grid / 2 ^ p.exponent) :
    p.Nearest (c * 10 ^ grid) ∨ p.Nearest ((c + 1 : ℕ) * 10 ^ grid) := by
  have he : (0 : ℚ) < 2 ^ p.exponent := by positivity
  have hm : (p.significand : ℚ) < 2 ^ 53 := by exact_mod_cast hp.significand_lt
  -- A step of the grid, in places of the double.
  obtain ⟨s, hs⟩ : ∃ s : ℚ, s = 10 ^ grid / 2 ^ p.exponent := ⟨_, rfl⟩
  have hplaces (c : ℕ) : (c * 10 ^ grid / 2 ^ p.exponent : ℚ) = c * s := by rw [hs, mul_div_assoc]
  have hsmall : s * 10 ^ 16 ≤ p.significand := by
    rw [hs, div_mul_eq_mul_div, div_le_iff₀ he]
    exact hfine
  rw [hplaces] at hbelow habove
  push_cast at habove
  by_cases hnear : p.significand - 1 / 2 < c * s ∧ (p.significand = 2 ^ 52 → p.significand - 1 / 4 < c * s)
  · refine .inl (nearest_of_lt hpos ?_ ?_ ?_) <;> rw [hplaces]
    · exact hnear.1
    · exact hnear.2
    · linarith
  · -- The point below is too far off, and a step is short enough for the next one to be near.
    have hfar : c * s + s < p.significand + 1 / 2 := by
      rcases not_and_or.mp hnear with h | h
      · linarith
      · obtain ⟨hm52, h⟩ := Classical.not_imp.mp h
        rw [hm52] at h hsmall ⊢
        push_cast at h hsmall ⊢
        linarith
    refine .inr (nearest_of_lt hpos ?_ ?_ ?_) <;> rw [hplaces] <;> push_cast
    · linarith
    · intro _
      linarith
    · linarith

theorem isSome_onGrid? (hp : p.Proper) (hpos : 0 < p.significand)
    (hfine : 10 ^ grid * 10 ^ 16 ≤ (p.significand * 2 ^ p.exponent : ℚ)) :
    (onGrid? p grid).isSome = true := by
  have hmid : ((Interval.ofParts p).mid : ℚ) = 4 * p.significand := by
    change ((4 * p.significand : ℕ) : ℚ) = _
    push_cast
    rfl
  obtain ⟨unit, hunit⟩ : ∃ u, u = twoTo (p.exponent - 2).toNat * tenTo (-grid).toNat := ⟨_, rfl⟩
  obtain ⟨step, hstep⟩ : ∃ u, u = twoTo (2 - p.exponent).toNat * tenTo grid.toNat := ⟨_, rfl⟩
  have hpositive : 0 < step := hstep ▸ Nat.mul_pos (twoTo_pos _) (tenTo_pos _)
  -- The last grid point that is not above the value.
  obtain ⟨c, hc⟩ : ∃ c, c = (Interval.ofParts p).mid * unit / step := ⟨_, rfl⟩
  have hbelow : (c * 10 ^ grid / 2 ^ p.exponent : ℚ) ≤ p.significand := by
    have hle : c * step ≤ (Interval.ofParts p).mid * unit := hc ▸ Nat.div_mul_le_self _ _
    rw [hunit, hstep] at hle
    have h := (mul_unit_le p grid _ _).2.mp hle
    rw [div_zpow_sub_two, hmid] at h
    linarith
  have habove : (p.significand : ℚ) < (c + 1 : ℕ) * 10 ^ grid / 2 ^ p.exponent := by
    have hlt : (Interval.ofParts p).mid * unit < (c + 1) * step := by
      rw [hc, Nat.add_mul, Nat.one_mul]
      exact Nat.lt_div_mul_add hpositive
    rw [hunit, hstep] at hlt
    have h := (mul_unit_le p grid _ _).2.not.mp (not_le.mpr hlt)
    rw [div_zpow_sub_two, hmid] at h
    linarith
  have hcontains := nearest_or_nearest hp hpos hfine hbelow habove
  rw [← contains_iff, ← contains_iff, ← hunit, ← hstep] at hcontains
  unfold onGrid?
  dsimp only
  rw [← hunit, ← hstep, ← hc]
  rcases hcontains with h | h <;> rw [h] <;> split <;> simp_all

/-- The search on finer and finer grids ends at a hit, if it comes to a grid that has one. -/
theorem nearest_firstGrid {k : ℤ} (fuel n : ℕ) (h : (onGrid? p (k - (n + fuel : ℕ))).isSome = true) :
    p.Nearest (firstGrid p k (fuel + 1) n).value := by
  induction fuel generalizing n with
  | zero =>
    obtain ⟨d, hd⟩ := Option.isSome_iff_exists.mp h
    rw [Nat.add_zero] at hd
    rw [firstGrid, hd]
    exact nearest_of_onGrid? hd
  | succ fuel ih =>
    rw [firstGrid]
    split
    · next d hd => exact nearest_of_onGrid? hd
    · refine ih (n + 1) ?_
      rw [Nat.add_right_comm]
      exact h

theorem num_div_den (p : Parts) : (p.num : ℚ) / p.den = p.significand * 2 ^ p.exponent := by
  have hpow := pow_toNat_div 2 p.exponent
  unfold num den
  rw [Nat.cast_mul, cast_twoTo, cast_twoTo, mul_div_assoc, hpow]

theorem reaches_iff (p : Parts) (k : ℤ) :
    p.num * tenTo (-k).toNat ≥ p.den * tenTo k.toNat ↔ (10 : ℚ) ^ k ≤ p.significand * 2 ^ p.exponent := by
  have hden : (0 : ℚ) < p.den := by exact_mod_cast twoTo_pos _
  have hten : (0 : ℚ) < 10 ^ (-k).toNat := by positivity
  rw [← num_div_den, ← pow_toNat_div 10 k, div_le_div_iff₀ hten hden, ge_iff_le, mul_comm p.den]
  simp only [← cast_tenTo]
  exact_mod_cast Iff.rfl

/-- Powers of ten against powers of two, with 59 / 196 just below the logarithm of two and 28 / 93 just
above it. -/
theorem tenTo_le_twoTo {a b : ℤ} (hpos : 0 ≤ b → 196 * a ≤ 59 * b) (hneg : b < 0 → 93 * a ≤ 28 * b) :
    (10 : ℚ) ^ a ≤ 2 ^ b := by
  have hten : (1 : ℚ) ≤ 10 := by norm_num
  rcases le_or_gt 0 b with hb | hb
  · refine (pow_le_pow_iff_left₀ (by positivity) (by positivity) (by decide : 196 ≠ 0)).mp ?_
    calc ((10 : ℚ) ^ a) ^ 196 = 10 ^ (196 * a) := by
          rw [← zpow_natCast, ← zpow_mul, mul_comm]
          rfl
      _ ≤ 10 ^ (59 * b) := zpow_le_zpow_right₀ hten (hpos hb)
      _ = ((10 : ℚ) ^ 59) ^ b := by
          rw [← zpow_natCast, ← zpow_mul]
          rfl
      _ ≤ ((2 : ℚ) ^ 196) ^ b := zpow_le_zpow_left₀ hb (by positivity) (by norm_num)
      _ = (2 ^ b) ^ 196 := by rw [← zpow_natCast, ← zpow_natCast, ← zpow_mul, ← zpow_mul, mul_comm]
  · refine (pow_le_pow_iff_left₀ (by positivity) (by positivity) (by decide : 93 ≠ 0)).mp ?_
    have hinv : ((10 : ℚ) ^ 28) ^ b ≤ (2 ^ 93) ^ b := by
      obtain ⟨n, rfl⟩ : ∃ n : ℕ, b = -n := ⟨(-b).toNat, by omega⟩
      rw [zpow_neg, zpow_neg, zpow_natCast, zpow_natCast]
      refine inv_anti₀ (by positivity) ?_
      gcongr
      norm_num
    calc ((10 : ℚ) ^ a) ^ 93 = 10 ^ (93 * a) := by
          rw [← zpow_natCast, ← zpow_mul, mul_comm]
          rfl
      _ ≤ 10 ^ (28 * b) := zpow_le_zpow_right₀ hten (hneg hb)
      _ = ((10 : ℚ) ^ 28) ^ b := by
          rw [← zpow_natCast, ← zpow_mul]
          rfl
      _ ≤ (2 ^ 93) ^ b := hinv
      _ = (2 ^ b) ^ 93 := by rw [← zpow_natCast, ← zpow_natCast, ← zpow_mul, ← zpow_mul, mul_comm]

/-- The value reaches the decimal place that `decimalPlaces` puts its first digit in. -/
theorem pow_decimalPlaces_le (hp : p.Proper) (hpos : 0 < p.significand) :
    (10 : ℚ) ^ (decimalPlaces p - 1) ≤ p.significand * 2 ^ p.exponent := by
  have hm : (2 : ℚ) ^ p.significand.log2 ≤ p.significand := by exact_mod_cast Nat.log2_self_le hpos.ne'
  have hlog : p.significand.log2 < 53 := (Nat.log2_lt hpos.ne').mpr hp.significand_lt
  have hleast := hp.least
  have hgreatest := hp.greatest
  unfold decimalPlaces
  dsimp only
  simp only [decide_eq_true_eq, reaches_iff]
  split_ifs with h₁ h₂
  · rw [show ((p.significand.log2 : ℤ) + p.exponent) * 30103 / 100000 + 2 - 1 =
      ((p.significand.log2 : ℤ) + p.exponent) * 30103 / 100000 + 1 by ring]
    exact h₁
  · rw [add_sub_cancel_right]
    exact h₂
  · -- Neither power is reached, so the guess is one place too high at most.
    calc (10 : ℚ) ^ (((p.significand.log2 : ℤ) + p.exponent) * 30103 / 100000 - 1)
        ≤ 2 ^ ((p.significand.log2 : ℤ) + p.exponent) := tenTo_le_twoTo (by omega) (by omega)
      _ = 2 ^ p.significand.log2 * 2 ^ p.exponent := by rw [zpow_add₀ two_ne_zero, zpow_natCast]
      _ ≤ p.significand * 2 ^ p.exponent := by gcongr

/-- The shortest digits of a double round to it. -/
theorem nearest_shortest (hp : p.Proper) (hpos : 0 < p.significand) : p.Nearest (shortest p).value := by
  have hfine : (10 : ℚ) ^ (decimalPlaces p - 17) * 10 ^ 16 ≤ p.significand * 2 ^ p.exponent := by
    refine le_of_eq_of_le ?_ (pow_decimalPlaces_le hp hpos)
    rw [← zpow_natCast, ← zpow_add₀ (by norm_num)]
    congr 1
    push_cast
    ring
  have hhit : p.Nearest (firstGrid p (decimalPlaces p) 17 1).value :=
    nearest_firstGrid 16 1 (isSome_onGrid? hp hpos hfine)
  unfold shortest
  rwa [value_trimZeros]

end Parts

end Conductor.Decimal
