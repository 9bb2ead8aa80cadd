import Conductor.Proofs.Table
import Conductor.Run.Engine

/-! Where the engine goes next. Its table of positions holds what a search through the steps finds, so that
no step leads beyond the end of the workflow. -/

namespace Conductor

theorem given?_of_ne_empty {s : String} (h : s ≠ "") : given? (some s) = some s := by
  unfold given?
  split
  · next hs => exact absurd (Option.some.inj hs) h
  · rfl

theorem given?_eq_some_iff {s : Option String} {t : String} :
    given? s = some t ↔ s = some t ∧ t ≠ "" := by
  refine ⟨fun h => ?_, fun ⟨hs, ht⟩ => hs ▸ given?_of_ne_empty ht⟩
  unfold given? at h
  split at h
  · cases h
  · next hs => exact ⟨h, fun ht => hs (ht ▸ h)⟩

namespace Engine

theorem get?_zipIdx (steps : List Step) (id : String) (start : Nat) :
    Table.get? ((steps.map Step.id).zipIdx start) id =
      (steps.findIdx? (·.id == id)).map (· + start) := by
  induction steps generalizing start with
  | nil => rfl
  | cons step steps ih =>
    by_cases h : step.id = id
    · simp [Table.get?, List.findIdx?_cons, h]
    · simp only [List.map_cons, List.zipIdx_cons, Table.get?, h, if_false, ih, List.findIdx?_cons,
        beq_iff_eq, Option.map_map]
      congr 1
      funext k
      simp only [Function.comp_apply]
      omega

/-- The table of positions and the search for a step agree. -/
theorem get?_positions (w : Workflow) (id : String) :
    Table.get? (positions w) id = w.indexOf? id := by
  -- The ids of a workflow are different, so that no entry of the table replaces another.
  have hk : (Table.keys (w.steps.map Step.id).zipIdx).Nodup := by
    rw [Table.keys, List.zipIdx_map_fst]
    exact w.ids_nodup
  unfold positions
  rw [Table.ofList_of_nodup hk, get?_zipIdx]
  exact Option.map_id'

theorem nextIndex_eq (w : Workflow) (index : Nat) (next : Option String) :
    nextIndex (positions w) index next = ((given? next).bind w.indexOf?).getD (index + 1) := by
  have hsame : Table.get? (positions w) = w.indexOf? := funext (get?_positions w)
  unfold nextIndex
  rw [hsame]
  cases (given? next).bind w.indexOf? <;> rfl

theorem indexOf?_lt {w : Workflow} {id : String} {i : Nat} (h : w.indexOf? id = some i) :
    i < w.steps.length := by
  obtain ⟨hi, _⟩ := List.findIdx?_eq_some_iff_getElem.mp h
  exact hi

theorem nextIndex_le (w : Workflow) {index : Nat} (h : index < w.steps.length) (next : Option String) :
    nextIndex (positions w) index next ≤ w.steps.length := by
  -- A step that is named lies within the workflow; the next one may be its end.
  unfold nextIndex
  split
  · next target ht =>
    obtain ⟨id, _, hid⟩ := Option.bind_eq_some_iff.mp ht
    rw [get?_positions] at hid
    exact Nat.le_of_lt (indexOf?_lt hid)
  · exact h

end Engine

end Conductor
