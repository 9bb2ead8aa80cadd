import Conductor.Proofs.Decimal.Numeral
import Mathlib.Algebra.Group.Nat.Defs
import Mathlib.Data.List.Induction

/-! The digits of a natural number are the only run of digits that spells it without a needless zero in
front. -/

namespace Conductor.Decimal

variable {ds : List Char} {c : Char}

theorem toNat_of_isDigit (h : c.isDigit = true) : 48 ≤ c.toNat ∧ c.toNat < 58 := by
  obtain ⟨hlow, hhigh⟩ := Char.isDigit_iff_toNat.mp h
  exact ⟨hlow, Nat.lt_succ_of_le hhigh⟩

theorem digitChar_of_isDigit (h : c.isDigit = true) : Nat.digitChar (c.toNat - 48) = c := by
  have hall : ∀ d : Fin 10, Nat.digitChar d = Char.ofNat (48 + d) := by decide
  obtain ⟨hlow, hhigh⟩ := toNat_of_isDigit h
  have hc := hall ⟨c.toNat - 48, by omega⟩
  have hsum : 48 + (c.toNat - 48) = c.toNat := by omega
  rwa [hsum, Char.ofNat_toNat] at hc

theorem ofDigitChars_concat (ds : List Char) (c : Char) :
    Nat.ofDigitChars 10 (ds ++ [c]) 0 = 10 * Nat.ofDigitChars 10 ds 0 + (c.toNat - 48) := by
  rw [Nat.ofDigitChars_append]
  rfl

theorem natDigits_ofDigitChars (hne : ds ≠ []) (hds : ∀ c ∈ ds, c.isDigit = true)
    (hzero : ds = ['0'] ∨ ds.head? ≠ some '0') : natDigits (Nat.ofDigitChars 10 ds 0) = ds := by
  induction ds using List.reverseRecOn with
  | nil => exact absurd rfl hne
  | append_singleton ds c ih =>
    have hdigit : c.isDigit = true := hds c (List.mem_append_right _ (List.mem_singleton_self c))
    have hc := digitChar_of_isDigit hdigit
    obtain ⟨hlow, hhigh⟩ := toNat_of_isDigit hdigit
    rw [ofDigitChars_concat, natDigits, Nat.toDigits_eq_if (by decide)]
    cases ds with
    | nil =>
      have hnil : Nat.ofDigitChars 10 [] 0 = 0 := rfl
      rw [hnil, if_pos (by omega), Nat.mul_zero, Nat.zero_add, hc]
      rfl
    | cons d ds =>
      have hhead : (d :: ds).head? ≠ some '0' := by
        rcases hzero with h | h
        · simp at h
        · exact h
      have hn := ih (List.cons_ne_nil _ _) (fun x hx => hds x (List.mem_append_left _ hx)) (.inr hhead)
      -- The digits before the last one are not those of zero.
      have hpos : Nat.ofDigitChars 10 (d :: ds) 0 ≠ 0 := by
        intro h
        rw [h] at hn
        exact hhead (hn ▸ rfl)
      have hlt : c.toNat - 48 < 10 := by omega
      rw [if_neg (by omega), Nat.mul_add_div (by decide), Nat.mul_add_mod, Nat.div_eq_of_lt hlt,
        Nat.mod_eq_of_lt hlt, Nat.add_zero, hc]
      exact congrArg (· ++ [c]) hn

theorem ofDigitChars_lt (hds : ∀ c ∈ ds, c.isDigit = true) : Nat.ofDigitChars 10 ds 0 < 10 ^ ds.length := by
  induction ds using List.reverseRecOn with
  | nil => exact Nat.one_pos
  | append_singleton ds c ih =>
    have hn := ih fun x hx => hds x (List.mem_append_left _ hx)
    have hc := toNat_of_isDigit (hds c (List.mem_append_right _ (List.mem_singleton_self c)))
    rw [ofDigitChars_concat, List.length_append, List.length_singleton, Nat.pow_succ]
    omega

theorem length_natDigits_le (hne : ds ≠ []) (hds : ∀ c ∈ ds, c.isDigit = true) :
    (natDigits (Nat.ofDigitChars 10 ds 0)).length ≤ ds.length :=
  (Nat.length_toDigits_le_iff (by decide) (List.length_pos_iff.mpr hne)).mpr (ofDigitChars_lt hds)

end Conductor.Decimal
