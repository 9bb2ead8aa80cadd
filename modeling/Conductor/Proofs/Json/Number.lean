import Conductor.Json.Parser
import Conductor.Json.Render
import Conductor.Proofs.Decimal.Bits

/-! Numbers as they are written and read in JSON texts. -/

namespace Conductor.Json

open Decimal (natDigits noDigit pointed Numeral ExponentPart)

variable {ds rest : List Char}

/-- The text cannot carry on a number that ends before it. -/
def stops (s : List Char) : Bool :=
  s.head?.all fun c => !c.isDigit && c ≠ '.' && c ≠ 'e' && c ≠ 'E'

theorem noDigit_of_stops (h : stops rest = true) : noDigit rest = true := by
  cases rest with
  | nil => rfl
  | cons c rest =>
    simp only [stops, List.head?_cons, Option.all_some, Bool.and_eq_true] at h
    exact h.1.1.1

theorem digitsOf_append (hds : ∀ c ∈ ds, c.isDigit = true) (hrest : noDigit rest = true) :
    digitsOf (ds ++ rest) = (ds, rest) := by
  rw [digitsOf, List.span_eq_takeWhile_dropWhile, List.takeWhile_append_of_pos hds,
    List.dropWhile_append_of_pos hds]
  cases rest with
  | nil => simp
  | cons c rest =>
    have hc : c.isDigit = false := by simpa [noDigit] using hrest
    simp [hc]

theorem wholeOf_append (hds : ∀ c ∈ ds, c.isDigit = true) (hzero : ds = ['0'] ∨ ds.head? ≠ some '0')
    (hrest : noDigit rest = true) : wholeOf (ds ++ rest) = (ds, rest) := by
  rcases hzero with rfl | hhead
  · rfl
  · unfold wholeOf
    split
    · next s heq =>
      -- A leading zero can only be that of the rest, which begins with no digit.
      cases ds with
      | nil =>
        rw [List.nil_append] at heq
        rw [heq] at hrest
        cases hrest
      | cons d ds =>
        obtain ⟨rfl, -⟩ := List.cons.inj heq
        exact absurd rfl hhead
    · exact digitsOf_append hds hrest

theorem wholeOf_natDigits (n : Nat) (hrest : noDigit rest = true) :
    wholeOf (natDigits n ++ rest) = (natDigits n, rest) := by
  refine wholeOf_append (Decimal.isDigit_natDigits n) ?_ hrest
  by_cases hn : n = 0
  · exact .inl (hn ▸ rfl)
  · exact .inr (Decimal.head?_natDigits_ne hn)

theorem head?_ne_point_of_stops (h : stops rest = true) : rest.head? ≠ some '.' := by
  intro hpoint
  unfold stops at h
  rw [hpoint] at h
  cases h

theorem fractionOf_of_ne (h : rest.head? ≠ some '.') : fractionOf rest = ([], rest) := by
  unfold fractionOf
  split
  · exact absurd rfl h
  · rfl

theorem exponentOf_of_stops (h : stops rest = true) : exponentOf rest = ([], rest) := by
  cases rest with
  | nil => rfl
  | cons c rest =>
    have hc : ¬ (c = 'e' ∨ c = 'E') := by
      simp only [stops, List.head?_cons, Option.all_some, Bool.and_eq_true, decide_eq_true_eq] at h
      exact not_or.mpr ⟨h.1.2, h.2⟩
    exact if_neg hc

theorem unsignedNumber_natDigits (start : List Char) (negative : Bool) {n : Nat}
    (hn : (natDigits n).length ≤ Decimal.maxDigits) (hrest : stops rest = true) :
    unsignedNumber start negative (natDigits n ++ rest) =
      .ok (.int (if negative then -(n : Int) else n), rest) := by
  have htake := Decimal.takeDigits_eq (Decimal.isDigit_natDigits n) 0 0
  rw [Decimal.ofDigitChars_natDigits] at htake
  obtain ⟨d, ds, hds⟩ := List.exists_cons_of_ne_nil (Decimal.natDigits_ne_nil n)
  unfold unsignedNumber
  rw [wholeOf_natDigits n (noDigit_of_stops hrest)]
  rw [hds] at htake hn ⊢
  simp only [fractionOf_of_ne (head?_ne_point_of_stops hrest), exponentOf_of_stops hrest,
    List.isEmpty_nil, Bool.and_self, if_true, if_neg (Nat.not_lt.mpr hn), htake]

theorem cons_ne_of_isDigit {c d : Char} (hd : d.isDigit = true) (hc : c.isDigit = false) (s t : List Char) :
    d :: s ≠ c :: t := by
  intro heq
  rw [(List.cons.inj heq).1, hc] at hd
  cases hd

/-- A text that begins with a digit is no word. -/
theorem scalar_of_isDigit {d : Char} (hd : d.isDigit = true) (s : List Char) :
    scalar (d :: s) = unsignedNumber (d :: s) false (d :: s) := by
  rw [scalar]
  all_goals exact fun _ => cons_ne_of_isDigit hd rfl s _

theorem scalar_minus {d : Char} (hd : d.isDigit = true) (s : List Char) :
    scalar ('-' :: d :: s) = unsignedNumber ('-' :: d :: s) true (d :: s) := by
  rw [scalar]
  exact fun _ => cons_ne_of_isDigit hd rfl s _

theorem scalar_intDigits {n : Int} (hn : (natDigits n.natAbs).length ≤ Decimal.maxDigits)
    (hrest : stops rest = true) : scalar (Decimal.intDigits n ++ rest) = .ok (.int n, rest) := by
  obtain ⟨d, ds, hds⟩ := List.exists_cons_of_ne_nil (Decimal.natDigits_ne_nil n.natAbs)
  have hd : d.isDigit = true := Decimal.isDigit_natDigits n.natAbs d (hds ▸ List.mem_cons_self)
  unfold Decimal.intDigits
  split
  · next hneg =>
    have hread := unsignedNumber_natDigits ('-' :: (natDigits n.natAbs ++ rest)) true hn hrest
    rw [hds, List.cons_append] at hread
    rw [hds, List.cons_append, List.cons_append, scalar_minus hd, hread, if_pos rfl,
      Int.ofNat_natAbs_of_nonpos (by omega), Int.neg_neg]
  · next hpos =>
    have hread := unsignedNumber_natDigits (natDigits n.natAbs ++ rest) false hn hrest
    rw [hds, List.cons_append] at hread
    rw [hds, List.cons_append, scalar_of_isDigit hd, hread]
    simp only [Bool.false_eq_true, if_false, Int.natAbs_of_nonneg (Int.not_lt.mp hpos)]

theorem exponentOf_append {tail : List Char} {e : Int} (h : ExponentPart tail e) (hrest : stops rest = true) :
    exponentOf (tail ++ rest) = (tail, rest) := by
  cases h with
  | none => exact exponentOf_of_stops hrest
  | @up ds hne hds | @down ds hne hds =>
    have hread := digitsOf_append hds (noDigit_of_stops hrest)
    obtain ⟨c, cs, rfl⟩ := List.exists_cons_of_ne_nil hne
    rw [List.cons_append] at hread
    simp [exponentOf, hread]

theorem fractionOf_append {fraction : List Char} (hds : ∀ c ∈ fraction, c.isDigit = true)
    (hrest : noDigit rest = true ∧ rest.head? ≠ some '.') :
    fractionOf (pointed fraction ++ rest) = (pointed fraction, rest) := by
  cases fraction with
  | nil => exact fractionOf_of_ne hrest.2
  | cons d ds =>
    have hread := digitsOf_append hds hrest.1
    rw [List.cons_append] at hread
    simp [pointed, fractionOf, hread]

theorem unsignedNumber_numeral (start : List Char) (negative : Bool) (n : Numeral)
    (hrest : stops rest = true) : unsignedNumber start negative (n.text ++ rest) =
      .ok (.float (Decimal.signed negative (Decimal.nearestDecimal n.digits n.last)), rest) := by
  have htail := n.exponentPart.head ⟨noDigit_of_stops hrest, head?_ne_point_of_stops hrest⟩
  have hfraction := fractionOf_append n.isDigit_fraction htail
  have hpointed : noDigit (pointed n.fraction ++ (n.tail ++ rest)) = true := by
    cases n.fraction with
    | nil => exact htail.1
    | cons d ds => rfl
  have hwhole := wholeOf_append n.isDigit_whole n.lead hpointed
  -- A numeral with a fraction or an exponent is no integer.
  have hdouble : ((pointed n.fraction).isEmpty && n.tail.isEmpty) = false := by
    rcases n.isDouble with h | h
    · obtain ⟨d, ds, hds⟩ := List.exists_cons_of_ne_nil h
      rw [hds]
      rfl
    · rw [List.isEmpty_eq_false_iff.mpr h, Bool.and_false]
  have hread := n.unsigned?_text
  obtain ⟨c, cs, hcs⟩ := List.exists_cons_of_ne_nil n.whole_ne_nil
  unfold unsignedNumber
  unfold Numeral.text at hread ⊢
  rw [List.append_assoc, List.append_assoc, hwhole]
  rw [hcs] at hread ⊢
  simp only [hfraction, exponentOf_append n.exponentPart hrest, hdouble, Bool.false_eq_true, if_false,
    List.append_assoc, hread]

theorem exists_cons_text (n : Numeral) : ∃ d t, n.text = d :: t ∧ d.isDigit = true := by
  obtain ⟨d, ds, hds⟩ := List.exists_cons_of_ne_nil n.whole_ne_nil
  refine ⟨d, ds ++ (pointed n.fraction ++ n.tail), ?_, n.isDigit_whole d (hds ▸ List.mem_cons_self)⟩
  rw [Numeral.text, hds, List.cons_append]

/-- Every double is read back, what is no number as itself. -/
theorem scalar_float (x : Float) (hrest : stops rest = true) :
    scalar (Decimal.render .json x ++ rest) = .ok (.float x, rest) := by
  by_cases hx : x.isNaN = true
  · -- There is one NaN only.
    have hnan : x = 0.0 / 0.0 := by
      rw [Float.isNaN_eq_decide_eq_nan] at hx
      exact of_decide_eq_true hx
    unfold Decimal.render
    rw [if_pos hx, hnan]
    rfl
  · have hx := Bool.eq_false_iff.mpr hx
    by_cases hfinite : Decimal.isFinite x = true
    · obtain ⟨n, htext, hvalue⟩ := Decimal.exists_numeral_render .json hfinite hx
      obtain ⟨d, t, hcons, hd⟩ := exists_cons_text n
      have hread (start : List Char) := unsignedNumber_numeral start (Decimal.isNegative x) n hrest
      rw [hvalue, hcons, List.cons_append] at hread
      rw [htext, hcons]
      cases hsign : Decimal.isNegative x with
      | false =>
        rw [hsign] at hread
        exact (scalar_of_isDigit hd (t ++ rest)).trans (hread _)
      | true =>
        rw [hsign] at hread
        exact (scalar_minus hd (t ++ rest)).trans (hread _)
    · have hfinite := Bool.eq_false_iff.mpr hfinite
      have hvalue := Decimal.signed_ofBits hx
      rw [Decimal.magnitude_of_not_isFinite hx hfinite] at hvalue
      unfold Decimal.render
      rw [hx, hfinite]
      conv_rhs => rw [← hvalue]
      cases Decimal.isNegative x <;> rfl

end Conductor.Json
