import Conductor.Proofs.Store.Plain
import Conductor.Proofs.Table

/-! Sound stores, in which every run is plain and lies under its own id, and what is read from the rows of
such a store. -/

namespace Conductor

/-- Every entry is a plain run under its own id. -/
def Memory.Sound (m : Memory) : Prop := ∀ e ∈ m.runs, e.2.id = e.1 ∧ e.2.Plain

/-- Every row is that of a plain run, and rows are told apart by their ids. -/
structure Rows.Sound (s : Rows) : Prop where
  nodup : (s.runs.map RunRow.id).Nodup
  rows : ∀ row ∈ s.runs, ∃ run : Run, run.Plain ∧ row = .ofRun run

namespace Store

def Sound : Store → Prop
  | .memory m => m.Sound
  | .rows s => s.Sound

/-- The ids of the runs that are stored. -/
def ids : Store → List String
  | .memory m => Table.keys m.runs
  | .rows s => s.runs.map RunRow.id

/-- A run as the store will give it back. -/
def settle : Store → Run → Run
  | .memory _, run => run
  | .rows _, run => run.unzoned

/-- The run under an id, if there is one that can be read. -/
def record? (s : Store) (id : String) : Option Run := (s.getRun id).toOption.join

variable (s : Store) (run : Run)

@[simp] theorem settle_id : (s.settle run).id = run.id := by cases s <;> rfl

@[simp] theorem settle_workflowId : (s.settle run).workflowId = run.workflowId := by cases s <;> rfl

@[simp] theorem settle_status : (s.settle run).status = run.status := by cases s <;> rfl

@[simp] theorem settle_currentStep : (s.settle run).currentStep = run.currentStep := by cases s <;> rfl

@[simp] theorem settle_context : (s.settle run).context = run.context := by cases s <;> rfl

@[simp] theorem settle_error : (s.settle run).error = run.error := by cases s <;> rfl

@[simp] theorem settle_completedAt_eq_none :
    (s.settle run).completedAt = none ↔ run.completedAt = none := by
  cases s with
  | memory m => rfl
  | rows s => exact Option.map_eq_none_iff

@[simp] theorem settle_createRun (s : Store) (run : Run) : (s.createRun run).2.settle = s.settle := by
  cases s <;> rfl

@[simp] theorem settle_updateRun (s : Store) (id : String) (c : Change) (expected : Option String) :
    (s.updateRun id c expected).2.settle = s.settle := by
  cases s with
  | memory m => rfl
  | rows s =>
    cases h : s.updateRun id c expected with
    | ok r =>
      simp only [Store.updateRun, h]
      rfl
    | error f => simp only [Store.updateRun, h]

end Store

/-- An update of a run in memory is refused, or it is made of the run that has the id. -/
theorem Memory.updateRun_or (m : Memory) (id : String) (c : Change) (expected : Option String) :
    (m.updateRun id c expected = (false, m) ∧
      ∀ run, Table.get? m.runs id = some run → expected.all run.hasStatus = false) ∨
    ∃ run, Table.get? m.runs id = some run ∧ expected.all run.hasStatus = true ∧
      m.updateRun id c expected = (true, { m with runs := Table.put m.runs id (run.apply c) }) := by
  unfold Memory.updateRun
  cases hg : Table.get? m.runs id with
  | none => exact Or.inl ⟨rfl, fun _ h => nomatch h⟩
  | some run =>
    cases he : expected.all run.hasStatus with
    | true => exact Or.inr ⟨run, rfl, he, if_pos he⟩
    | false =>
      refine Or.inl ⟨if_neg (Bool.eq_false_iff.mp he), fun other h => ?_⟩
      obtain rfl := Option.some.inj h
      exact he

namespace Rows

variable {s : Rows}

theorem Sound.find?_id (hs : s.Sound) {row : RunRow} (h : row ∈ s.runs) :
    s.runs.find? (fun x => x.id = row.id) = some row := by
  -- A row that is found instead would have the same id.
  cases hf : s.runs.find? (fun x => x.id = row.id) with
  | none => simpa using List.find?_eq_none.mp hf row h
  | some x =>
    have hid : x.id = row.id := by simpa using List.find?_some hf
    exact congrArg some (List.inj_on_of_nodup_map hs.nodup (List.mem_of_find?_eq_some hf) h hid)

/-- The rows after an update, each changed where it is meant. -/
def updated (s : Rows) (id : String) (c : Change) (expected : Option String) : Rows :=
  { s with runs := s.runs.map fun row => if isMeant id expected row then row.apply c else row }

theorem updateRun_eq {c : Change} (hc : c.Plain) (id : String) (expected : Option String) :
    s.updateRun id c expected = .ok (s.runs.any (isMeant id expected), s.updated id c expected) := by
  have hm : (s.runs.mapM fun row =>
      if isMeant id expected row then row.change c else Except.ok row) =
        .ok (s.updated id c expected).runs := by
    have hf : (fun row => if isMeant id expected row then row.change c else Except.ok row) =
        fun row => (pure (if isMeant id expected row then row.apply c else row) :
          Except Fault RunRow) := by
      funext row
      by_cases h : isMeant id expected row <;> simp [h, RunRow.change_of_written_nil row hc.written] <;> rfl
    rw [hf, List.mapM_pure]
    rfl
  simp only [updateRun, RunRow.check_of_written_nil hc.written, hm, hc.written]
  rfl

theorem Sound.getRun_eq (hs : s.Sound) (id : String) :
    (Store.rows s).getRun id = .ok ((s.runs.find? (fun row => row.id = id)).bind fun row =>
      row.toRun.toOption) := by
  cases hf : s.runs.find? (fun row => row.id = id) with
  | none => simp only [Store.getRun, getRun, hf, Option.bind_none]
  | some row =>
    obtain ⟨run, hp, rfl⟩ := hs.rows row (List.mem_of_find?_eq_some hf)
    simp only [Store.getRun, getRun, hf, RunRow.toRun_ofRun hp, Option.bind_some]
    rfl

theorem Sound.record?_of_mem (hs : s.Sound) {run : Run} (hp : run.Plain) (h : .ofRun run ∈ s.runs) :
    (Store.rows s).record? run.id = some run.unzoned := by
  have hf := hs.find?_id h
  simp only [Store.record?, hs.getRun_eq, show (RunRow.ofRun run).id = run.id from rfl] at hf ⊢
  rw [hf, Option.bind_some, RunRow.toRun_ofRun hp]
  rfl

theorem record?_of_not_mem {id : String} (h : id ∉ s.runs.map RunRow.id) :
    (Store.rows s).record? id = none := by
  have hf : s.runs.find? (fun row => row.id = id) = none := by
    refine List.find?_eq_none.mpr fun row hm hid => h ?_
    exact List.mem_map.mpr ⟨row, hm, by simpa using hid⟩
  simp [Store.record?, Store.getRun, getRun, hf, Except.toOption]

theorem isMeant_ofRun {run : Run} (hp : run.Plain) (id : String) (expected : Option String) :
    isMeant id expected (.ofRun run) =
      (decide (run.id = id) && expected.all run.unzoned.hasStatus) := by
  have hn : run.unzoned.hasStatus = fun name => decide (name = run.status.name) := by
    funext name
    rw [hp.unzoned.hasStatus_eq]
    exact decide_eq_decide.mpr eq_comm
  rw [hn]
  rfl

theorem ids_updated (s : Rows) (id : String) (c : Change) (expected : Option String) :
    (s.updated id c expected).runs.map RunRow.id = s.runs.map RunRow.id := by
  simp only [Rows.updated, List.map_map]
  refine List.map_congr_left fun row _ => ?_
  by_cases hm : isMeant id expected row <;> simp [hm, RunRow.apply]

/-- Where no row is meant, nothing is changed. -/
theorem updated_of_any_eq_false {id : String} {expected : Option String}
    (h : s.runs.any (isMeant id expected) = false) (c : Change) : s.updated id c expected = s := by
  have hmeant : ∀ row ∈ s.runs, (if isMeant id expected row then row.apply c else row) = row :=
    fun row hrow => if_neg (List.any_eq_false.mp h row hrow)
  have hruns : (s.updated id c expected).runs = s.runs :=
    (List.map_congr_left hmeant).trans (List.map_id _)
  exact congrArg (fun runs => { s with runs := runs }) hruns

theorem Sound.updated (hs : s.Sound) {c : Change} (hc : c.Plain) (id : String)
    (expected : Option String) : (s.updated id c expected).Sound := by
  refine ⟨ids_updated s id c expected ▸ hs.nodup, fun row h => ?_⟩
  obtain ⟨old, ho, rfl⟩ := List.mem_map.mp h
  obtain ⟨run, hp, rfl⟩ := hs.rows old ho
  by_cases hm : isMeant id expected (.ofRun run)
  · exact ⟨run.apply c, hp.apply hc, by simp only [hm, if_true, RunRow.apply_ofRun]⟩
  · exact ⟨run, hp, by simp only [hm]; rfl⟩

theorem Sound.any_isMeant (hs : s.Sound) {run : Run} (hp : run.Plain) (h : .ofRun run ∈ s.runs)
    (expected : Option String) :
    s.runs.any (isMeant run.id expected) = expected.all run.unzoned.hasStatus := by
  have hmeant : isMeant run.id expected (.ofRun run) = expected.all run.unzoned.hasStatus := by
    rw [isMeant_ofRun hp, decide_eq_true rfl, Bool.true_and]
  rw [Bool.eq_iff_iff, List.any_eq_true, ← hmeant]
  constructor
  · intro hany
    obtain ⟨other, ho, hother⟩ := hany
    -- Another row that is meant has the same id, and so is the same row.
    have hid : other.id = run.id := of_decide_eq_true (Bool.and_eq_true_iff.mp hother).1
    exact List.inj_on_of_nodup_map hs.nodup ho h hid ▸ hother
  · intro hrow
    exact ⟨_, h, hrow⟩

theorem any_isMeant_of_not_mem {id : String} (h : id ∉ s.runs.map RunRow.id)
    (expected : Option String) : s.runs.any (isMeant id expected) = false := by
  rw [List.any_eq_false]
  intro row hrow hmeant
  have hid : row.id = id := of_decide_eq_true (Bool.and_eq_true_iff.mp hmeant).1
  exact h (List.mem_map.mpr ⟨row, hrow, hid⟩)

theorem Sound.record?_updated_of_mem (hs : s.Sound) {c : Change} (hc : c.Plain) {run : Run}
    (hp : run.Plain) (h : .ofRun run ∈ s.runs) (id : String) (expected : Option String) :
    (Store.rows (s.updated id c expected)).record? run.id =
      some (if id = run.id ∧ expected.all run.unzoned.hasStatus then (run.unzoned.apply c).unzoned
        else run.unzoned) := by
  have hu := hs.updated hc id expected
  have hmeant : isMeant id expected (.ofRun run) =
      decide (id = run.id ∧ expected.all run.unzoned.hasStatus) := by
    rw [isMeant_ofRun hp, Bool.decide_and, Bool.decide_eq_true]
    exact congrArg (· && _) (decide_eq_decide.mpr eq_comm)
  by_cases hm : id = run.id ∧ expected.all run.unzoned.hasStatus
  · have hnew : RunRow.ofRun (run.apply c) ∈ (s.updated id c expected).runs := by
      refine List.mem_map.mpr ⟨_, h, ?_⟩
      rw [hmeant, if_pos (decide_eq_true hm), RunRow.apply_ofRun]
    rw [if_pos hm, Run.unzoned_apply_unzoned]
    exact hu.record?_of_mem (hp.apply hc) hnew
  · have hold : RunRow.ofRun run ∈ (s.updated id c expected).runs := by
      refine List.mem_map.mpr ⟨_, h, ?_⟩
      rw [hmeant, decide_eq_false hm]
      rfl
    rw [if_neg hm]
    exact hu.record?_of_mem hp hold

end Rows

end Conductor
