import Conductor.Proofs.Decimal.Quotient
import Conductor.Proofs.Expression.Comparison
import Conductor.Proofs.Expression.Position

/-! Conditions that fail. Whatever a text and a context hold, only a comparison of numbers with an integer
beyond the doubles on its left fails, apart from a path that cannot be walked. -/

namespace Conductor

open Decimal (natDigits maxDigits rangeEnd)

variable {op : Operator} {c : Condition} {context : Json} {left : Option Json} {literal s : List Char}
  {f : Fault}

namespace Condition

/-- The path that a condition looks up. -/
def path : Condition → List Char
  | .comparison _ path _ => path
  | .bare path => path

/-- Everything stands for a number but an integer beyond the doubles. -/
theorem number?_eq_none_iff : number? left = none ↔ ∃ n, left = some (.int n) ∧ rangeEnd ≤ n.natAbs := by
  cases left with
  | none => simp [number?]
  | some v =>
    cases v with
    | int n => simp [number?, Decimal.ofInt?_eq_none_iff]
    | null | bool _ | float _ | str _ | arr _ | obj _ => simp [number?]

end Condition

namespace Operator

theorem ordered_eq_error_iff {holds : Float → Float → Bool} :
    ordered holds left literal = .error f ↔ Condition.number? left = none ∧ f = .integerTooLarge := by
  unfold ordered
  cases Condition.number? left with
  | none => simp [eq_comm]
  | some x => simp

/-- Displays are always compared; numbers are compared if there is one on the left. -/
theorem verdict_eq_error_iff : op.verdict left literal = .error f ↔
    op.isOrder = true ∧ Condition.number? left = none ∧ f = .integerTooLarge := by
  cases op with
  | strictEq | strictNe | eq | ne => simp [verdict, isOrder]
  | ge | le | gt | lt => simp [verdict, isOrder, ordered_eq_error_iff]

end Operator

namespace Condition

/-- The condition compares the order of an integer beyond the doubles. -/
def Exceeds (context : Json) : Condition → Prop
  | .bare _ => False
  | .comparison op path _ =>
    op.isOrder = true ∧ ∃ n, Path.resolve? context path = .ok (some (.int n)) ∧ rangeEnd ≤ n.natAbs

theorem holds_eq_error_iff : c.holds context = .error f ↔
    (∃ digits, Path.Stuck context c.path digits ∧ f = .longNumeral digits) ∨
      (c.Exceeds context ∧ f = .integerTooLarge) := by
  rw [← Path.resolve?_eq_error_iff]
  cases c with
  | bare path =>
    rw [holds, Path.lookup, Condition.path]
    cases Path.resolve? context path <;> simp [Except.map, Exceeds]
  | comparison op path literal =>
    rw [holds_comparison, Condition.path, Exceeds]
    cases Path.resolve? context path with
    | error f' => simp [Except.bind]
    | ok left => simp [Except.bind, Operator.verdict_eq_error_iff, number?_eq_none_iff, and_assoc]

end Condition

/-- The first operator of a text compares numbers, and the path to the left of it leads to an integer beyond the
doubles. -/
def Overflows (context : Json) (s : List Char) : Prop :=
  ∃ op left right n, Operator.isOrder op = true ∧ op.Cuts s left right ∧
    Path.resolve? context (Text.trim left) = .ok (some (.int n)) ∧ rangeEnd ≤ n.natAbs

theorem exceeds_ofText_iff : (Condition.ofText s).Exceeds context ↔ Overflows context s := by
  constructor
  · intro h
    cases hs : Condition.ofText s with
    | bare path =>
      rw [hs] at h
      cases h
    | comparison op path literal =>
      rw [hs] at h
      obtain ⟨horder, n, hn, hlarge⟩ := h
      obtain ⟨left, right, hcuts, rfl, rfl⟩ := Condition.ofText_eq_comparison_iff.mp hs
      exact ⟨op, left, right, n, horder, hcuts, hn, hlarge⟩
  · rintro ⟨op, left, right, n, horder, hcuts, hn, hlarge⟩
    rw [Condition.ofText_eq_comparison_iff.mpr ⟨left, right, hcuts, rfl, rfl⟩]
    exact ⟨horder, n, hn, hlarge⟩

/-- What cannot be walked apart, conditions fail in one way. -/
theorem evaluate_eq_error_iff {expression : String} : evaluate context expression = .error f ↔
    (∃ digits, Path.Stuck context (Condition.ofText expression.toList).path digits ∧
      f = .longNumeral digits) ∨
    (Overflows context expression.toList ∧ f = .integerTooLarge) := by
  rw [evaluate, Condition.holds_eq_error_iff, exceeds_ofText_iff]

/-- A condition whose path has no numeral in it that is too long to be read is true or false. It fails only if
the first operator of its text, in the order in which operators are looked for, compares numbers and an
integer beyond the doubles is found on the left. -/
theorem evaluate_fails_iff (context : Json) (expression : String)
    (hread : ∀ n, natDigits n ∈ Path.segments (Condition.ofText expression.toList).path →
      (natDigits n).length ≤ maxDigits) :
    (∀ f, evaluate context expression = .error f ↔
      Overflows context expression.toList ∧ f = .integerTooLarge) ∧
    ((∃ b, evaluate context expression = .ok b) ↔ ¬ Overflows context expression.toList) := by
  have hwalk (digits : ℕ) : ¬ Path.Stuck context (Condition.ofText expression.toList).path digits := by
    rintro ⟨steps, items, n, rest, hsegments, -, -, rfl, hlong⟩
    refine Nat.not_le.mpr hlong (hread n ?_)
    rw [hsegments]
    exact List.mem_append_right _ List.mem_cons_self
  have hfails (f : Fault) : evaluate context expression = .error f ↔
      Overflows context expression.toList ∧ f = .integerTooLarge := by
    rw [evaluate_eq_error_iff]
    exact or_iff_right fun ⟨digits, hstuck, _⟩ => hwalk digits hstuck
  refine ⟨hfails, ?_⟩
  cases hevaluate : evaluate context expression with
  | error f => exact iff_of_false nofun (not_not.mpr ((hfails f).mp hevaluate).1)
  | ok b =>
    refine iff_of_true ⟨b, rfl⟩ fun h => ?_
    cases hevaluate.symm.trans ((hfails _).mpr ⟨h, rfl⟩)

/-- The least integer beyond the doubles is too large to be compared; the one before it is not. -/
theorem evaluate_fails_rangeEnd :
    evaluate (.obj [("n", .int rangeEnd)]) "n > 1" = .error .integerTooLarge ∧
    ∃ b, evaluate (.obj [("n", .int (rangeEnd - 1 : ℕ))]) "n > 1" = .ok b := by
  have hparsed : Condition.ofText "n > 1".toList = .comparison .gt ['n'] ['1'] := by decide +kernel
  have hread (n : ℕ) (h : natDigits n ∈ Path.segments (Condition.ofText "n > 1".toList).path) :
      (natDigits n).length ≤ maxDigits := by
    rw [hparsed] at h
    rw [List.mem_singleton.mp h]
    decide
  have hfound (v : Json) : Path.resolve? (.obj [("n", v)]) ['n'] = .ok (some v) := rfl
  constructor
  · refine ((evaluate_fails_iff _ _ hread).1 _).mpr ⟨?_, rfl⟩
    rw [← exceeds_ofText_iff, hparsed]
    exact ⟨rfl, rangeEnd, hfound _, (Int.natAbs_natCast rangeEnd).ge⟩
  · refine (evaluate_fails_iff _ _ hread).2.mpr fun h => ?_
    rw [← exceeds_ofText_iff, hparsed] at h
    obtain ⟨-, n, hn, hlarge⟩ := h
    rw [hfound] at hn
    obtain rfl : ((rangeEnd - 1 : ℕ) : ℤ) = n := Json.int.inj (Option.some.inj (Except.ok.inj hn))
    rw [Int.natAbs_natCast] at hlarge
    exact absurd hlarge (Nat.not_le.mpr (Nat.sub_lt Decimal.rangeEnd_pos one_pos))

/-- A path that leads nowhere is false, but a failure if its index for a list is too long to be read. -/
theorem evaluate_long_index :
    ¬ Overflows (.obj [("a", .arr [])]) ('a' :: '.' :: Path.ones) ∧
    evaluate (.obj [("a", .arr [])]) (String.ofList ('a' :: '.' :: Path.ones)) =
      .error (.longNumeral 4301) := by
  have hsign : ∀ c ∈ 'a' :: '.' :: Path.ones, Operator.isSign c = false := by
    intro c hc
    rcases List.mem_cons.mp hc with rfl | hc
    · rfl
    rcases List.mem_cons.mp hc with rfl | hc
    · rfl
    · rw [List.eq_of_mem_replicate hc]
      rfl
  have hparsed : Condition.ofText ('a' :: '.' :: Path.ones) = .bare ('a' :: '.' :: Path.ones) := by
    rw [Condition.ofText_of_forall_not_sign hsign]
    exact congrArg Condition.bare (Path.trim_append_ones rfl ['.'])
  have hlist : Path.resolve? (.obj [("a", .arr [])]) ['a'] = .ok (some (.arr [])) := rfl
  constructor
  · rw [← exceeds_ofText_iff, hparsed]
    exact id
  · have hwalk : Path.resolve? (.obj [("a", .arr [])]) ('a' :: '.' :: Path.ones) =
        .error (.longNumeral 4301) :=
      (Path.resolve?_append_cons_of_some hlist Path.ones).trans (Path.resolve?_arr_ones [])
    rw [evaluate, String.toList_ofList, hparsed, Condition.holds, Path.lookup, hwalk]
    rfl

end Conductor
