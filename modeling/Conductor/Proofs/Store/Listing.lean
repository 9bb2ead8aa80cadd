import Conductor.Proofs.Fallible
import Conductor.Proofs.Store.Record
import Mathlib.Data.List.Perm.Lattice
import Mathlib.Data.List.Sort

/-! Lists of runs. A store lists the runs of a workflow as each of them is read, the newest first. -/

namespace Conductor

/-- No run of a list began later than one before it. -/
def Run.NewestFirst (runs : List Run) : Prop :=
  runs.Pairwise fun a b => b.startedAt.micros ≤ a.startedAt.micros

namespace Store

variable {s : Store} {run : Run} {id : String}

/-- The runs that are stored, in the order of their ids. -/
def records (s : Store) : List Run := s.ids.filterMap s.record?

theorem Sound.mem_records (hs : s.Sound) : run ∈ s.records ↔ s.record? run.id = some run := by
  constructor
  · intro h
    obtain ⟨id, _, hr⟩ := List.mem_filterMap.mp h
    rwa [(hs.record?_plain hr).2.1]
  · exact fun h => List.mem_filterMap.mpr ⟨run.id, (hs.record?_plain h).2.2, h⟩

theorem Sound.ids_records (hs : s.Sound) : s.records.map Run.id = s.ids := by
  have hself : ∀ id ∈ s.ids, (s.record? id).map Run.id = some id := by
    intro id hm
    cases hr : s.record? id with
    | none => exact absurd hm (hs.record?_eq_none_iff.mp hr)
    | some run => rw [Option.map_some, (hs.record?_plain hr).2.1]
  calc
    s.records.map Run.id = s.ids.filterMap fun id => (s.record? id).map Run.id := by
      rw [records, List.map_filterMap]
    _ = s.ids.filterMap some := List.filterMap_congr hself
    _ = s.ids := List.filterMap_some

end Store

theorem Memory.Sound.listRuns {m : Memory} (hs : m.Sound) (hn : (Table.keys m.runs).Nodup)
    (workflowId : String) :
    m.listRuns workflowId =
      newestFirst ((Store.memory m).records.filter (·.workflowId = workflowId)) := by
  have hrecords : (Store.memory m).records = m.runs.map (·.2) := Table.filterMap_get?_keys hn
  rw [Memory.listRuns, hrecords]
  refine congrArg newestFirst (List.filter_congr fun run hrun => ?_)
  obtain ⟨e, he, rfl⟩ := List.mem_map.mp hrun
  have hp := (hs e he).2
  simp [Run.belongsTo, Run.workflowValue, Run.value, hp.written, Json.isText]

namespace Rows

variable {s : Rows}

theorem Sound.toRun (hs : s.Sound) {row : RunRow} (h : row ∈ s.runs) :
    ∃ run, row.toRun = .ok run ∧ (Store.rows s).record? row.id = some run ∧
      run.workflowId = row.workflowId ∧ run.startedAt.micros = row.startedAt := by
  obtain ⟨run, hp, rfl⟩ := hs.rows row h
  exact ⟨run.unzoned, RunRow.toRun_ofRun hp, hs.record?_of_mem hp h, rfl, rfl⟩

theorem Sound.records_filter (hs : s.Sound) (workflowId : String) :
    (s.runs.filter (·.workflowId = workflowId)).filterMap (fun row => (Store.rows s).record? row.id) =
      (Store.rows s).records.filter (·.workflowId = workflowId) := by
  rw [Store.records, show (Store.rows s).ids = s.runs.map RunRow.id from rfl, List.filterMap_map,
    List.filter_filterMap, List.filterMap_filter]
  refine List.filterMap_congr fun row hrow => ?_
  obtain ⟨run, _, hr, hw, _⟩ := hs.toRun hrow
  by_cases h : row.workflowId = workflowId <;> simp [hr, Option.filter, hw, h]

end Rows

namespace Store

variable {s : Store}

/-- A list holds the runs of the workflow that was asked for, and no others, the newest first. -/
theorem Sound.listRuns (hs : s.Sound) (hn : s.ids.Nodup) (workflowId : String) :
    ∃ runs, s.listRuns workflowId = .ok runs ∧
      runs.Perm (s.records.filter (·.workflowId = workflowId)) ∧ Run.NewestFirst runs := by
  cases s with
  | memory m =>
    refine ⟨_, congrArg Except.ok (Memory.Sound.listRuns hs hn workflowId), ?_, ?_⟩
    · exact List.mergeSort_perm _ _
    · exact List.pairwise_mergeSort' (fun a b : Run => a.startedAt.micros ≥ b.startedAt.micros) _
  | rows s =>
    have hs' : Rows.Sound s := hs
    let sorted := (s.runs.filter (·.workflowId = workflowId)).mergeSort fun a b =>
      a.startedAt ≥ b.startedAt
    have hperm : sorted.Perm (s.runs.filter (·.workflowId = workflowId)) := List.mergeSort_perm _ _
    have hmem : ∀ row ∈ sorted, row ∈ s.runs := fun row h =>
      (List.mem_filter.mp (hperm.mem_iff.mp h)).1
    refine ⟨sorted.filterMap fun row => (Store.rows s).record? row.id, ?_, ?_, ?_⟩
    · refine mapM_eq_filterMap fun row h => ?_
      obtain ⟨run, ht, hr, _⟩ := hs'.toRun (hmem row h)
      exact ⟨run, by rw [ht]; rfl, hr⟩
    · rw [← hs'.records_filter]
      exact hperm.filterMap _
    · -- Rows are sorted by the times that are read from them.
      have hsorted : sorted.Pairwise fun a b => a.startedAt ≥ b.startedAt :=
        List.pairwise_mergeSort' (fun a b : RunRow => a.startedAt ≥ b.startedAt) _
      refine List.pairwise_filterMap.mpr (hsorted.imp_of_mem fun {a b} ha hb hab => ?_)
      intro x hx y hy
      obtain ⟨_, _, hra, _, hta⟩ := hs'.toRun (hmem a ha)
      obtain ⟨_, _, hrb, _, htb⟩ := hs'.toRun (hmem b hb)
      cases hra.symm.trans hx
      cases hrb.symm.trans hy
      rw [hta, htb]
      exact hab

end Store

end Conductor
