import Conductor.Proofs.Store.Sound

/-! The two stores as one table of runs. What is written under an id is read back under it, and nothing
else changes. -/

namespace Conductor.Store

variable {s : Store} {run : Run} {c : Change}

theorem Sound.getRun_eq (hs : s.Sound) (id : String) : s.getRun id = .ok (s.record? id) := by
  cases s with
  | memory m => rfl
  | rows s => simp only [record?, Rows.Sound.getRun_eq hs id, Except.toOption, Option.join_some]

theorem Sound.record?_plain (hs : s.Sound) {id : String} (h : s.record? id = some run) :
    run.Plain ∧ run.id = id ∧ id ∈ s.ids := by
  cases s with
  | memory m =>
    obtain ⟨hid, hp⟩ := hs _ (Table.mem_of_get? h)
    refine ⟨hp, hid, ?_⟩
    exact List.mem_map_of_mem (Table.mem_of_get? h)
  | rows s =>
    by_cases hm : id ∈ s.runs.map RunRow.id
    · obtain ⟨row, hrow, rfl⟩ := List.mem_map.mp hm
      obtain ⟨found, hp, rfl⟩ := Rows.Sound.rows hs row hrow
      have hf := Rows.Sound.record?_of_mem hs hp hrow
      obtain rfl : found.unzoned = run := Option.some.inj (hf.symm.trans h)
      exact ⟨hp.unzoned, rfl, hm⟩
    · rw [Rows.record?_of_not_mem hm] at h
      cases h

theorem Sound.record?_eq_none_iff (hs : s.Sound) {id : String} : s.record? id = none ↔ id ∉ s.ids := by
  cases s with
  | memory m => exact Table.get?_eq_none_iff
  | rows s =>
    refine ⟨fun h hm => ?_, Rows.record?_of_not_mem⟩
    obtain ⟨row, hrow, rfl⟩ := List.mem_map.mp hm
    obtain ⟨found, hp, rfl⟩ := Rows.Sound.rows hs row hrow
    have hf := Rows.Sound.record?_of_mem hs hp hrow
    cases hf.symm.trans h

/-! ### Definitions -/

theorem Sound.saveWorkflow (hs : s.Sound) (w : Workflow) : (s.saveWorkflow w).Sound := by
  cases s with
  | memory m => exact hs
  | rows s =>
    have hs' : Rows.Sound s := hs
    exact Rows.Sound.mk hs'.nodup hs'.rows

theorem ids_saveWorkflow (s : Store) (w : Workflow) : (s.saveWorkflow w).ids = s.ids := by
  cases s <;> rfl

theorem record?_saveWorkflow (s : Store) (w : Workflow) (id : String) :
    (s.saveWorkflow w).record? id = s.record? id := by
  cases s <;> rfl

/-! ### New runs -/

theorem ids_createRun (hn : run.id ∉ s.ids) : (s.createRun run).2.ids = s.ids ++ [run.id] := by
  cases s with
  | memory m => exact (Table.keys_put m.runs run.id run).trans (if_neg hn)
  | rows s => simp [createRun, Rows.createRun, ids, RunRow.ofRun]

theorem Sound.createRun (hs : s.Sound) (hp : run.Plain) (hn : run.id ∉ s.ids) :
    (s.createRun run).2.Sound := by
  cases s with
  | memory m =>
    intro e he
    rcases Table.mem_put he with rfl | he
    · exact ⟨rfl, hp⟩
    · exact hs e he
  | rows s =>
    refine ⟨?_, fun row h => ?_⟩
    · have hi : (s.createRun run).runs.map RunRow.id = s.runs.map RunRow.id ++ [run.id] := by
        simp [Rows.createRun, RunRow.ofRun]
      exact hi ▸ List.nodup_append_comm.mp (List.nodup_cons.mpr ⟨hn, Rows.Sound.nodup hs⟩)
    · rcases List.mem_append.mp h with h | h
      · exact Rows.Sound.rows hs row h
      · exact ⟨run, hp, List.mem_singleton.mp h⟩

theorem Sound.record?_createRun (hs : s.Sound) (hp : run.Plain) (hn : run.id ∉ s.ids) (id : String) :
    (s.createRun run).2.record? id = if run.id = id then some (s.settle run) else s.record? id := by
  cases s with
  | memory m => exact Table.get?_put m.runs run.id id run
  | rows s =>
    have hs' : (s.createRun run).Sound := Sound.createRun (s := .rows s) hs hp hn
    by_cases hid : run.id = id
    · subst hid
      rw [if_pos rfl]
      exact Rows.Sound.record?_of_mem hs' hp (List.mem_append_right _ (List.mem_singleton_self _))
    · have hr : ¬ (RunRow.ofRun run).id = id := hid
      rw [if_neg hid]
      simp [record?, Store.createRun, getRun, Rows.getRun, Rows.createRun, List.find?_append, hr]

theorem fst_createRun (hc : run.completedAt = none) : (s.createRun run).1 = s.settle run := by
  cases s with
  | memory m => rfl
  | rows s => simp [createRun, settle, Run.unzoned, hc]

/-! ### Changes -/

theorem Sound.updateRun (hs : s.Sound) (hc : c.Plain) (id : String) (expected : Option String) :
    (s.updateRun id c expected).2.Sound := by
  cases s with
  | memory m =>
    rcases m.updateRun_or id c expected with ⟨he, _⟩ | ⟨old, hg, _, he⟩
    · simp only [Store.updateRun, he]
      exact hs
    · simp only [Store.updateRun, he]
      intro e h
      obtain ⟨hid, hp⟩ := hs _ (Table.mem_of_get? hg)
      rcases Table.mem_put h with rfl | h
      · exact ⟨hid, hp.apply hc⟩
      · exact hs e h
  | rows s =>
    simp only [Store.updateRun, Rows.updateRun_eq hc]
    exact Rows.Sound.updated hs hc id expected

theorem Sound.ids_updateRun (hs : s.Sound) (hc : c.Plain) (id : String) (expected : Option String) :
    (s.updateRun id c expected).2.ids = s.ids := by
  cases s with
  | memory m =>
    rcases m.updateRun_or id c expected with ⟨he, _⟩ | ⟨old, hg, _, he⟩
    · simp only [Store.updateRun, he]
    · have hm : id ∈ Table.keys m.runs := List.mem_map_of_mem (Table.mem_of_get? hg)
      simp only [Store.updateRun, he, ids, Table.keys_put, if_pos hm]
  | rows s =>
    simp only [Store.updateRun, Rows.updateRun_eq hc]
    exact Rows.ids_updated s id c expected

/-- An update is made exactly when the run is there and has the status that is expected. -/
theorem Sound.fst_updateRun (hs : s.Sound) (hc : c.Plain) (id : String) (expected : Option String) :
    (s.updateRun id c expected).1 =
      .ok ((s.record? id).any fun run => expected.all run.hasStatus) := by
  cases s with
  | memory m =>
    change Except.ok (m.updateRun id c expected).1 = .ok ((Table.get? m.runs id).any _)
    rcases m.updateRun_or id c expected with ⟨he, hn⟩ | ⟨old, hg, hall, he⟩
    · cases hg : Table.get? m.runs id with
      | none => rw [he, Option.any_none]
      | some old => rw [he, Option.any_some, hn old hg]
    · rw [he, hg, Option.any_some, hall]
  | rows s =>
    simp only [Store.updateRun, Rows.updateRun_eq hc, Except.ok.injEq]
    by_cases hm : id ∈ s.runs.map RunRow.id
    · obtain ⟨row, hrow, rfl⟩ := List.mem_map.mp hm
      obtain ⟨found, hp, rfl⟩ := Rows.Sound.rows hs row hrow
      rw [show (RunRow.ofRun found).id = found.id from rfl, Rows.Sound.record?_of_mem hs hp hrow]
      exact Rows.Sound.any_isMeant hs hp hrow expected
    · rw [Rows.record?_of_not_mem hm, Option.any_none]
      exact Rows.any_isMeant_of_not_mem hm expected

/-- An update that is not made leaves the store as it is. -/
theorem snd_updateRun_of_refused (hc : c.Plain) {id : String} {expected : Option String}
    (h : (s.updateRun id c expected).1 = .ok false) : (s.updateRun id c expected).2 = s := by
  cases s with
  | memory m =>
    rcases m.updateRun_or id c expected with ⟨he, _⟩ | ⟨old, _, _, he⟩
    · simp only [Store.updateRun, he]
    · simp only [Store.updateRun, he] at h
      cases h
  | rows s =>
    simp only [Store.updateRun, Rows.updateRun_eq hc, Except.ok.injEq] at h ⊢
    exact congrArg rows (Rows.updated_of_any_eq_false h c)

/-- An update changes the run that it is meant for, if it is made at all, and no other run. -/
theorem Sound.record?_updateRun (hs : s.Sound) (hc : c.Plain) (id other : String)
    (expected : Option String) :
    (s.updateRun id c expected).2.record? other =
      if id = other then (s.record? id).map fun run =>
        if expected.all run.hasStatus then s.settle (run.apply c) else run
      else s.record? other := by
  cases s with
  | memory m =>
    change Table.get? (m.updateRun id c expected).2.runs other =
      if id = other then (Table.get? m.runs id).map _ else Table.get? m.runs other
    rcases m.updateRun_or id c expected with ⟨he, hn⟩ | ⟨old, hg, hall, he⟩
    · rw [he]
      split
      · next hid =>
        subst hid
        cases hg : Table.get? m.runs id with
        | none => rfl
        | some old => rw [Option.map_some, hn old hg, if_neg Bool.false_ne_true]
      · rfl
    · rw [he, Table.get?_put, hg, Option.map_some, if_pos hall]
      rfl
  | rows s =>
    simp only [Store.updateRun, Rows.updateRun_eq hc]
    by_cases hm : other ∈ s.runs.map RunRow.id
    · obtain ⟨row, hrow, rfl⟩ := List.mem_map.mp hm
      obtain ⟨found, hp, rfl⟩ := Rows.Sound.rows hs row hrow
      rw [show (RunRow.ofRun found).id = found.id from rfl]
      rw [Rows.Sound.record?_updated_of_mem hs hc hp hrow, Rows.Sound.record?_of_mem hs hp hrow]
      by_cases hid : id = found.id
      · rw [if_pos hid, hid, Rows.Sound.record?_of_mem hs hp hrow, Option.map_some]
        simp only [true_and]
        rfl
      · rw [if_neg hid, if_neg fun h => hid h.1]
    · have hm' : other ∉ (s.updated id c expected).runs.map RunRow.id :=
        Rows.ids_updated s id c expected ▸ hm
      rw [Rows.record?_of_not_mem hm', Rows.record?_of_not_mem hm]
      by_cases hid : id = other
      · subst hid
        rw [if_pos rfl, Rows.record?_of_not_mem hm]
        rfl
      · rw [if_neg hid]

end Conductor.Store
