import Conductor.Proofs.Decimal.Numeral
import Conductor.Proofs.Decimal.Shortest

/-! The written forms of a double are numerals with the value of its digits. -/

namespace Conductor.Decimal

def Numeral.value (n : Numeral) : ℚ := n.digits * 10 ^ n.last

theorem isDigit_replicate_zero (k : ℕ) : ∀ c ∈ List.replicate k '0', c.isDigit = true := by
  intro c hc
  rw [List.eq_of_mem_replicate hc]
  rfl

theorem isDigit_append {as bs : List Char} (ha : ∀ c ∈ as, c.isDigit = true)
    (hb : ∀ c ∈ bs, c.isDigit = true) : ∀ c ∈ as ++ bs, c.isDigit = true := by
  intro c hc
  rcases List.mem_append.mp hc with h | h
  · exact ha c h
  · exact hb c h

/-- Digits of which the first is no zero. -/
structure Leading (ds : List Char) : Prop where
  isDigit : ∀ c ∈ ds, c.isDigit = true
  ne_nil : ds ≠ []
  head : ds.head? ≠ some '0'

theorem leading_natDigits {n : ℕ} (hn : n ≠ 0) : Leading (natDigits n) :=
  ⟨isDigit_natDigits n, natDigits_ne_nil n, head?_natDigits_ne hn⟩

theorem exponentPart_padded (e : ℤ) :
    ExponentPart ('e' :: (if e < 0 then '-' else '+') :: padded 2 e.natAbs) e := by
  have hdigits : ∀ c ∈ padded 2 e.natAbs, c.isDigit = true :=
    isDigit_append (isDigit_replicate_zero _) (isDigit_natDigits _)
  have hne : padded 2 e.natAbs ≠ [] := List.append_ne_nil_of_right_ne_nil _ (natDigits_ne_nil _)
  have hvalue : Nat.ofDigitChars 10 (padded 2 e.natAbs) 0 = e.natAbs := by
    rw [padded, Nat.ofDigitChars_append, Nat.ofDigitChars_replicate_zero, Nat.mul_zero,
      ofDigitChars_natDigits]
  split
  · next hneg =>
    have hpart := ExponentPart.down hne hdigits
    rwa [hvalue, show -((e.natAbs : ℕ) : ℤ) = e by omega] at hpart
  · next hneg =>
    have hpart := ExponentPart.up hne hdigits
    rwa [hvalue, show ((e.natAbs : ℕ) : ℤ) = e by omega] at hpart

namespace Leading

variable {ds : List Char} (h : Leading ds)

/-- The digits after the point and some zeros. -/
def below (zeros : ℕ) : Numeral where
  whole := ['0']
  fraction := List.replicate zeros '0' ++ ds
  tail := []
  exponent := 0
  isDigit_whole := Numeral.zero.isDigit_whole
  whole_ne_nil := Numeral.zero.whole_ne_nil
  lead := Numeral.zero.lead
  isDigit_fraction := isDigit_append (isDigit_replicate_zero zeros) h.isDigit
  exponentPart := .none
  isDouble := .inl (List.append_ne_nil_of_right_ne_nil _ h.ne_nil)

/-- The digits and some zeros before the point. -/
def above (zeros : ℕ) : Numeral where
  whole := ds ++ List.replicate zeros '0'
  fraction := ['0']
  tail := []
  exponent := 0
  isDigit_whole := isDigit_append h.isDigit (isDigit_replicate_zero zeros)
  whole_ne_nil := List.append_ne_nil_of_left_ne_nil h.ne_nil _
  lead := .inr (by
    rw [List.head?_append_of_ne_nil _ h.ne_nil]
    exact h.head)
  isDigit_fraction := Numeral.zero.isDigit_fraction
  exponentPart := .none
  isDouble := Numeral.zero.isDouble

/-- The point among the digits. -/
def between (k : ℕ) (hpos : 0 < k) (hlt : k < ds.length) : Numeral where
  whole := ds.take k
  fraction := ds.drop k
  tail := []
  exponent := 0
  isDigit_whole := fun c hc => h.isDigit c (List.mem_of_mem_take hc)
  whole_ne_nil := by
    rw [Ne, List.take_eq_nil_iff, not_or]
    exact ⟨hpos.ne', h.ne_nil⟩
  lead := .inr (by
    rw [List.head?_take, if_neg hpos.ne']
    exact h.head)
  isDigit_fraction := fun c hc => h.isDigit c (List.mem_of_mem_drop hc)
  exponentPart := .none
  isDouble := .inl (by
    rw [Ne, List.drop_eq_nil_iff]
    omega)

theorem text_below (zeros : ℕ) : (h.below zeros).text = ['0', '.'] ++ List.replicate zeros '0' ++ ds := by
  have hne := List.append_ne_nil_of_right_ne_nil (List.replicate zeros '0') h.ne_nil
  obtain ⟨c, cs, hcs⟩ := List.exists_cons_of_ne_nil hne
  simp only [Numeral.text, below, List.append_assoc, hcs, pointed]
  simp

theorem value_below (zeros : ℕ) :
    (h.below zeros).value = Nat.ofDigitChars 10 ds 0 * 10 ^ (-((zeros + ds.length : ℕ) : ℤ)) := by
  have hdigits : (h.below zeros).digits = Nat.ofDigitChars 10 ds 0 := by
    change Nat.ofDigitChars 10 (['0'] ++ (List.replicate zeros '0' ++ ds)) 0 = _
    rw [Nat.ofDigitChars_append, Nat.ofDigitChars_append, Nat.ofDigitChars_replicate_zero]
    rfl
  have hlast : (h.below zeros).last = -((zeros + ds.length : ℕ) : ℤ) := by
    change (0 : ℤ) - (List.replicate zeros '0' ++ ds).length = _
    rw [List.length_append, List.length_replicate, zero_sub]
  rw [Numeral.value, hdigits, hlast]

theorem value_above (zeros : ℕ) : (h.above zeros).value = Nat.ofDigitChars 10 ds 0 * 10 ^ (zeros : ℤ) := by
  have hdigits : (h.above zeros).digits = 10 * (10 ^ zeros * Nat.ofDigitChars 10 ds 0) := by
    change Nat.ofDigitChars 10 (ds ++ List.replicate zeros '0' ++ ['0']) 0 = _
    rw [Nat.ofDigitChars_append, Nat.ofDigitChars_append, Nat.ofDigitChars_replicate_zero]
    rfl
  have hlast : (h.above zeros).last = -1 := rfl
  rw [Numeral.value, hdigits, hlast, zpow_natCast]
  push_cast
  norm_num
  ring

theorem text_between {k : ℕ} (hpos : 0 < k) (hlt : k < ds.length) :
    (h.between k hpos hlt).text = ds.take k ++ '.' :: ds.drop k := by
  obtain ⟨c, cs, hcs⟩ := List.exists_cons_of_ne_nil (List.drop_eq_nil_iff.not.mpr (Nat.not_le.mpr hlt))
  simp only [Numeral.text, between, hcs, pointed, List.append_nil]

theorem value_between {k : ℕ} (hpos : 0 < k) (hlt : k < ds.length) :
    (h.between k hpos hlt).value = Nat.ofDigitChars 10 ds 0 * 10 ^ ((k : ℤ) - ds.length) := by
  have hdigits : (h.between k hpos hlt).digits = Nat.ofDigitChars 10 ds 0 := by
    change Nat.ofDigitChars 10 (ds.take k ++ ds.drop k) 0 = _
    rw [List.take_append_drop]
  have hlast : (h.between k hpos hlt).last = (k : ℤ) - ds.length := by
    change (0 : ℤ) - (ds.drop k).length = _
    rw [List.length_drop]
    omega
  rw [Numeral.value, hdigits, hlast]

include h

theorem exists_positional (e : ℤ) : ∃ n : Numeral, Digits.positional ds e = n.text ∧
    n.value = Nat.ofDigitChars 10 ds 0 * 10 ^ e := by
  unfold Digits.positional
  dsimp only
  split_ifs with hpoint hwhole
  · refine ⟨h.below (-((ds.length : ℤ) + e)).toNat, (h.text_below _).symm, ?_⟩
    rw [value_below]
    congr 2
    omega
  · refine ⟨h.above e.toNat, rfl, ?_⟩
    rw [value_above, Int.toNat_of_nonneg hwhole]
  · obtain ⟨k, hk⟩ : ∃ k : ℕ, (ds.length : ℤ) + e = k := ⟨((ds.length : ℤ) + e).toNat, by omega⟩
    refine ⟨h.between k (by omega) (by omega), ?_, ?_⟩
    · rw [hk, Int.toNat_natCast, text_between]
    · rw [value_between]
      congr 2
      omega

theorem exists_scientific (e : ℤ) : ∃ n : Numeral, Digits.scientific ds e = n.text ∧
    n.value = Nat.ofDigitChars 10 ds 0 * 10 ^ (e - (ds.length - 1)) := by
  obtain ⟨d, rest, rfl⟩ := List.exists_cons_of_ne_nil h.ne_nil
  obtain ⟨hd, hrest⟩ := List.forall_mem_cons.mp h.isDigit
  refine ⟨⟨[d], rest, _, e, List.forall_mem_singleton.mpr hd, List.cons_ne_nil _ _, .inr h.head, hrest,
    exponentPart_padded e, .inr (List.cons_ne_nil _ _)⟩, ?_, ?_⟩
  · cases rest <;> simp [Digits.scientific, Numeral.text, pointed]
  · rw [Numeral.value, Numeral.digits, Numeral.last, List.singleton_append, List.length_cons]
    push_cast
    rw [add_sub_cancel_right]

end Leading

/-- Both forms have the value of the digits. -/
theorem Digits.exists_numeral (style : Style) {d : Digits} (hd : d.digits ≠ 0) :
    ∃ n : Numeral, d.render style = n.text ∧ n.value = d.value := by
  have hleading := leading_natDigits hd
  unfold Digits.render Digits.value
  dsimp only
  split
  · obtain ⟨n, htext, hvalue⟩ := hleading.exists_positional d.exponent
    rw [ofDigitChars_natDigits] at hvalue
    exact ⟨n, htext, hvalue⟩
  · obtain ⟨n, htext, hvalue⟩ := hleading.exists_scientific ((natDigits d.digits).length + d.exponent - 1)
    rw [ofDigitChars_natDigits, show ((natDigits d.digits).length : ℤ) + d.exponent - 1 -
      ((natDigits d.digits).length - 1) = d.exponent by ring] at hvalue
    exact ⟨n, htext, hvalue⟩

end Conductor.Decimal
