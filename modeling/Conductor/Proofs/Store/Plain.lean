import Conductor.Store.Basic
import Mathlib.Data.List.Nodup

/-! Plain runs, which hold nothing but fields of their own kinds, and the rows they are kept in. A row
keeps everything of a plain run except the offset of its times. -/

namespace Conductor

/-- A run as the engine makes it: no made-up status, and no values in the places of its fields. -/
structure Run.Plain (r : Run) : Prop where
  written : r.written = []
  named : ∀ name, r.status ≠ .other name

/-- A change as the engine makes it. -/
structure Change.Plain (c : Change) : Prop where
  written : c.written = []
  named : ∀ name, c.status ≠ some (.other name)

namespace Run

/-- The run without the offsets of its times. -/
def unzoned (r : Run) : Run :=
  { r with startedAt := r.startedAt.unzoned, completedAt := r.completedAt.map Time.unzoned }

theorem plain_start (id workflowId : String) (context : Table Json) (now : Time) :
    (start id workflowId context now).Plain :=
  ⟨rfl, fun _ h => nomatch h⟩

theorem Plain.unzoned {r : Run} (hr : r.Plain) : r.unzoned.Plain := ⟨hr.written, hr.named⟩

theorem Plain.apply {r : Run} (hr : r.Plain) {c : Change} (hc : c.Plain) : (r.apply c).Plain := by
  refine ⟨by simp [Run.apply, hr.written, hc.written, Table.putAll], fun name h => ?_⟩
  cases hs : c.status with
  | none => exact hr.named name (by simpa [Run.apply, hs] using h)
  | some st =>
    have hst : st = .other name := by simpa [Run.apply, hs] using h
    exact hc.named name (hst ▸ hs)

theorem Plain.hasStatus_eq {r : Run} (hr : r.Plain) (name : String) :
    r.hasStatus name = decide (r.status.name = name) := by
  simp [hasStatus, statusValue, value, hr.written, Json.isText]

/-- Only the status of a running run has the name of that status. -/
theorem Plain.hasStatus_running {r : Run} (hr : r.Plain) :
    r.hasStatus Status.running.name = true ↔ r.status = .running := by
  rw [hr.hasStatus_eq, decide_eq_true_iff]
  cases hs : r.status with
  | other name => exact absurd hs (hr.named name)
  | _ => decide

theorem unzoned_unzoned (r : Run) : r.unzoned.unzoned = r.unzoned := by
  cases r with
  | mk id workflowId status step context error started completed written =>
    cases completed <;> rfl

theorem unzoned_apply_unzoned (r : Run) (c : Change) :
    (r.unzoned.apply c).unzoned = (r.apply c).unzoned := by
  -- An offset that was lost before a change is lost after it as well.
  have hu := unzoned_unzoned r
  cases hc : c.completedAt with
  | none => simp_all [Run.apply, unzoned]
  | some t => simp_all [Run.apply, unzoned]

end Run

namespace Change

theorem plain_checkpoint (index : Nat) (context : Table Json) : (checkpoint index context).Plain :=
  ⟨rfl, fun _ h => nomatch h⟩

theorem plain_cancel (now : Time) : (cancel now).Plain := ⟨rfl, fun _ h => nomatch h⟩

theorem plain_final (index : Nat) (context : Table Json) (error : Option String) (now : Time) :
    (final index context error now).Plain := by
  refine ⟨rfl, fun name h => ?_⟩
  cases error <;> exact nomatch h

end Change

namespace RunRow

/-- A plain run is read back from its row, without the offsets of its times. -/
theorem toRun_ofRun {r : Run} (hr : r.Plain) : (ofRun r).toRun = .ok r.unzoned := by
  have hs : Reader.oneOf Status.named (.json (.str r.status.name)) = .ok r.status := by
    cases hs : r.status with
    | other name => exact absurd hs (hr.named name)
    | _ => rfl
  have hi : Reader.integer (.json (.int r.currentStep)) = .ok r.currentStep := rfl
  simp only [toRun, ofRun, hs, hi, contextOf, Checked.inside_ok, Checked.map_ok, Checked.seq_ok]
  simp only [Run.unzoned, hr.written, Option.map_map]
  rfl

/-- A change of a run is the same change of its row. -/
theorem apply_ofRun (r : Run) (c : Change) : (ofRun r).apply c = ofRun (r.apply c) := by
  simp only [RunRow.apply, ofRun, Run.apply, RunRow.mk.injEq, true_and]
  refine ⟨?_, ?_, ?_, ?_⟩
  · cases c.status <;> rfl
  · cases c.currentStep <;> rfl
  · cases c.context <;> rfl
  · cases c.completedAt <;> rfl

end RunRow

end Conductor
