import Conductor.Proofs.Decimal.Double
import Conductor.Proofs.Workflow.Valid
import Mathlib.Data.List.Forall2
import Mathlib.Data.Option.Basic

/-! When values are equal. Numbers are told apart by what they are worth, not by how they are written, and
objects by what stands under their keys, not by the order of the keys. -/

namespace Conductor

def Number.equals : Number → Number → Bool
  | .int m, .int n => m == n
  | .int m, .double y => Decimal.toInt? y == some m
  | .double x, .int n => Decimal.toInt? x == some n
  | .double x, .double y => x == y

namespace Json

/-- The number that a value counts as; a switch counts as one or zero. -/
def number? : Json → Option Number
  | .bool b => some (.int (if b then 1 else 0))
  | .int n => some (.int n)
  | .float x => some (.double x)
  | _ => none

theorem number?_toJson (n : Number) : n.toJson.number? = some n := by
  cases n <;> rfl

inductive Equal : Json → Json → Prop
  | null : Equal .null .null
  | text (s : String) : Equal (.str s) (.str s)
  | number {v w : Json} {x y : Number} (hv : v.number? = some x) (hw : w.number? = some y)
    (h : x.equals y = true) : Equal v w
  | list {a b : List Json} (h : List.Forall₂ Equal a b) : Equal (.arr a) (.arr b)
  | object {a b : Table Json} (h : ∀ key, Option.Rel Equal (Table.get? a key) (Table.get? b key)) :
    Equal (.obj a) (.obj b)

mutual

/-- A value equals itself unless it holds what is no number. -/
theorem Equal.refl : (v : Json) → v.Finite → Equal v v
  | .null, _ => .null
  | .bool b, _ => .number rfl rfl (beq_self_eq_true _)
  | .int n, _ => .number rfl rfl (beq_self_eq_true _)
  | .float x, h => by
    refine .number rfl rfl (Decimal.beq_self_of_isFinite ?_)
    unfold Finite finite at h
    split at h
    · assumption
    · cases h
  | .str s, _ => .text s
  | .arr items, h => .list (forall₂_refl items (finite_arr.mp h))
  | .obj fields, h => .object (rel_refl fields (finite_obj.mp h))

theorem forall₂_refl : (items : List Json) → (∀ v ∈ items, v.Finite) → List.Forall₂ Equal items items
  | [], _ => .nil
  | v :: items, h =>
    .cons (Equal.refl v (h v List.mem_cons_self))
      (forall₂_refl items fun w hw => h w (List.mem_cons_of_mem _ hw))

theorem rel_refl : (fields : List (String × Json)) → (∀ e ∈ fields, e.2.Finite) →
    ∀ key, Option.Rel Equal (Table.get? fields key) (Table.get? fields key)
  | [], _, _ => .none
  | (name, v) :: fields, h, key => by
    by_cases hk : name = key
    · simp only [Table.get?, hk, if_true]
      exact .some (Equal.refl v (h _ List.mem_cons_self))
    · simp only [Table.get?, hk, if_false]
      exact rel_refl fields (fun e he => h e (List.mem_cons_of_mem _ he)) key

end

/-- Objects with the same keys in the same order are equal where their values are. -/
theorem Equal.object_of_forall₂ {a b : Table Json}
    (h : List.Forall₂ (fun x y => x.1 = y.1 ∧ Equal x.2 y.2) a b) : Equal (.obj a) (.obj b) := by
  refine .object fun key => ?_
  induction h with
  | nil => exact .none
  | @cons x y a b hxy _ ih =>
    obtain ⟨hkey, hvalue⟩ := hxy
    by_cases hk : y.1 = key
    · simp only [Table.get?, hkey, hk, if_true]
      exact .some hvalue
    · simp only [Table.get?, hkey, hk, if_false]
      exact ih

end Json

/-- Definitions are equal when what is written down of them is. -/
def Workflow.Equal (w w' : Workflow) : Prop := Json.Equal w.toJson w'.toJson

end Conductor
