import Conductor.Matching.Ranking
import Conductor.Proofs.Fallible
import Conductor.Proofs.Matching.Score

/-! What an agent is given for a task. There is a result where the weights are doubles and the count of
tasks is in their range, and with the default weights its score is a number. -/

namespace Conductor.Matching

variable {o : Options} {text : List Char} {ks : List (List Char)} {a : Agent} {r : Ranked}

/-- What an agent is given for a task: a rating, unless the task asks for nothing. -/
def given (o : Options) (text : List Char) (a : Agent) : Except Fault Ranked :=
  match keywords text with
  | [] => unrated o a
  | ks => rate o ks a

/-- A weight that stands for a double. -/
def IsWeight (v : Json) : Prop := ∃ w, Setting.double v = .ok w

theorem given_of_nil (h : keywords text = []) (o : Options) (a : Agent) : given o text a = unrated o a := by
  unfold given
  rw [h]

theorem given_of_ne_nil (h : keywords text ≠ []) (o : Options) (a : Agent) :
    given o text a = rate o (keywords text) a := by
  unfold given
  split
  · next hnil => exact absurd hnil h
  · rfl

section Unrated

theorem exists_number_of_double {v : Json} {w : Float} (h : Setting.double v = .ok w) :
    ∃ n, Setting.number v = .ok n ∧ n.toFloat? = some w := by
  obtain ⟨n, hn, h⟩ := exists_of_bind_ok h
  refine ⟨n, hn, ?_⟩
  cases hfloat : n.toFloat? with
  | none => rw [hfloat] at h; cases h
  | some x => rw [hfloat] at h; cases h; rfl

/-- A weight can be written into a result. -/
theorem double_eq_ok {v : Json} {w : Float} (h : Setting.double v = .ok w) :
    Reader.double (.json v) = .ok w := by
  obtain ⟨n, hn, hfloat⟩ := exists_number_of_double h
  cases v with
  | float x =>
    cases hn
    cases hfloat
    rfl
  | int k =>
    cases hn
    change Decimal.ofInt? k = some w at hfloat
    have hview : (Source.json (.int k)).view = .atom (.int k) := rfl
    simp only [Reader.double, Reader.ofAtom, hview, hfloat]
  | bool b =>
    cases hn
    cases b with
    | false => cases hfloat; rfl
    | true => cases hfloat; rfl
  | null => cases hn
  | str _ => cases hn
  | arr _ => cases hn
  | obj _ => cases hn

theorem exists_unrated (h : IsWeight o.availabilityWeight) (a : Agent) : ∃ r, unrated o a = .ok r := by
  obtain ⟨w, hw⟩ := h
  unfold unrated
  split
  · rw [double_eq_ok hw]
    exact ⟨_, rfl⟩
  · exact ⟨_, rfl⟩

theorem unrated_spec (h : unrated o a = .ok r) : r.agent = a ∧ r.score = 0.0 := by
  unfold unrated at h
  split at h
  · obtain ⟨bonus, -, h⟩ := exists_of_bind_ok h
    cases h
    exact ⟨rfl, rfl⟩
  · cases h
    exact ⟨rfl, rfl⟩

end Unrated

section Rated

theorem exists_experienceBonus {weight : Json} {tasks : Int} (h : IsWeight weight)
    (hcount : tasks.natAbs < Number.beyondDoubles) : ∃ x, experienceBonus weight tasks = .ok x := by
  obtain ⟨w, hw⟩ := h
  have htwo : 2 ≤ 100 := by decide
  obtain ⟨x, hx⟩ := Decimal.exists_quotient? htwo hcount
  unfold experienceBonus
  split
  · exact ⟨_, rfl⟩
  · rw [hx, hw]
    exact ⟨_, rfl⟩

theorem exists_rate (hw : IsWeight o.availabilityWeight) (hw' : IsWeight o.experienceWeight)
    (hcount : a.tasksCompleted.natAbs < Number.beyondDoubles) (ks : List (List Char)) :
    ∃ r, rate o ks a = .ok r := by
  obtain ⟨w, hw⟩ := hw
  obtain ⟨x, hx⟩ := exists_experienceBonus hw' hcount
  unfold rate
  rw [hw, hx]
  exact ⟨_, rfl⟩

/-- A rating is made of the capabilities that fit and of two bonuses, and its score is their sum. -/
theorem rate_eq_ok (h : rate o ks a = .ok r) :
    ∃ w x, Setting.double o.availabilityWeight = .ok w ∧
      experienceBonus o.experienceWeight a.tasksCompleted = .ok x ∧
      r = ⟨a, score ks (capabilities a) + a.availability.factor * w + x, matched ks (capabilities a),
        a.availability.factor * w, x, reason a (matched ks (capabilities a))⟩ := by
  unfold rate at h
  obtain ⟨w, hw, h⟩ := exists_of_bind_ok h
  obtain ⟨x, hx, h⟩ := exists_of_bind_ok h
  cases h
  exact ⟨w, x, hw, hx, rfl⟩

end Rated

theorem agent_of_given (h : given o text a = .ok r) : r.agent = a := by
  by_cases hnil : keywords text = []
  · rw [given_of_nil hnil] at h
    exact (unrated_spec h).1
  · rw [given_of_ne_nil hnil] at h
    obtain ⟨w, x, -, -, rfl⟩ := rate_eq_ok h
    rfl

section Defaults

open Decimal (isFinite)

theorem isFinite_availabilityBonus (v : Availability) : isFinite (v.factor * 0.1) = true := by
  cases v <;> decide +kernel

/-- A twentieth of a double is a double. -/
theorem isFinite_twentieth {x : Float} (h : isFinite x = true) : isFinite (x * 0.05) = true := by
  have hm : 0 < 0x1999999999999A := by decide
  have hunpack : (0.05 : Float).toModel.unpack = .finite .positive 0x1999999999999A (-57) hm := rfl
  exact Decimal.isFinite_mul h hunpack (by decide) (by decide)

theorem isFinite_experienceBonus {tasks : Int} {x : Float}
    (h : experienceBonus (.float 0.05) tasks = .ok x) : isFinite x = true := by
  unfold experienceBonus at h
  split at h
  · cases h
    rfl
  · split at h
    · cases h
    · next y hy =>
      cases h
      refine isFinite_twentieth ?_
      split
      · rfl
      · exact Decimal.isFinite_of_quotient? hy

/-- With the default weights every agent is given a result, and its score is a number. -/
theorem exists_given_of_default (havailability : o.availabilityWeight = Options.default.availabilityWeight)
    (hexperience : o.experienceWeight = Options.default.experienceWeight) (text : List Char)
    (hcount : a.tasksCompleted.natAbs < Number.beyondDoubles) :
    ∃ r, given o text a = .ok r ∧ r.score.isNaN = false := by
  have hw : Setting.double o.availabilityWeight = .ok 0.1 := by rw [havailability]; rfl
  have hw' : Setting.double o.experienceWeight = .ok 0.05 := by rw [hexperience]; rfl
  by_cases hnil : keywords text = []
  · obtain ⟨r, hr⟩ := exists_unrated ⟨0.1, hw⟩ a
    refine ⟨r, (given_of_nil hnil _ a).trans hr, ?_⟩
    rw [(unrated_spec hr).2]
    rfl
  · obtain ⟨r, hr⟩ := exists_rate ⟨0.1, hw⟩ ⟨0.05, hw'⟩ hcount (keywords text)
    refine ⟨r, (given_of_ne_nil hnil _ a).trans hr, ?_⟩
    obtain ⟨w, x, hweight, hx, rfl⟩ := rate_eq_ok hr
    cases hw.symm.trans hweight
    rw [hexperience] at hx
    -- Finite numbers have no sum that is no number, although it may be infinite.
    have hbase : (score (keywords text) (capabilities a) + a.availability.factor * 0.1).isNaN = false :=
      Decimal.isNaN_add (Decimal.isNaN_of_isFinite (isNearest_share _ _).finite) (isFinite_availabilityBonus _)
    exact Decimal.isNaN_add hbase (isFinite_experienceBonus hx)

end Defaults

end Conductor.Matching
