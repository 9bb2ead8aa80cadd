import Conductor.Proofs.CommandLine.Calm
import Conductor.Proofs.Store.Filed
import Conductor.Proofs.System.Office

/-! What the engine leaves behind in rows when nobody else is at work. A run that is triggered is one row more,
which is written until it has ended; a run that is cancelled is changed where it is. -/

namespace Conductor

/-! ### The newest row -/

namespace Rows

variable {s : Rows} {run : Run} {c : Change}

/-- An update of the newest run changes its row only. -/
theorem updateRun_createRun (hn : run.id ∉ s.runs.map RunRow.id) (hs : run.status = .running)
    (hc : c.Plain) :
    (s.createRun run).updateRun run.id c Engine.runningName =
      .ok (true, s.createRun (run.apply c)) := by
  have hnewest : isMeant run.id Engine.runningName (.ofRun run) = true := by
    simp [isMeant, RunRow.ofRun, Engine.runningName, hs]
  have hany : (s.createRun run).runs.any (isMeant run.id Engine.runningName) = true :=
    List.any_eq_true.mpr ⟨_, List.mem_append_right _ (List.mem_singleton_self _), hnewest⟩
  -- No older row has the id, and so none is meant.
  have hothers : s.updated run.id c Engine.runningName = s :=
    updated_of_any_eq_false (any_isMeant_of_not_mem hn _) c
  have hkept : (s.runs.map fun row =>
      if isMeant run.id Engine.runningName row then row.apply c else row) = s.runs :=
    congrArg Rows.runs hothers
  have hupdated : (s.createRun run).updated run.id c Engine.runningName = s.createRun (run.apply c) := by
    simp only [updated, createRun, List.map_append, hkept, List.map_singleton, hnewest, if_true,
      RunRow.apply_ofRun]
  rw [updateRun_eq hc, hany, hupdated]

/-- The newest run is read back without the offsets of its times. -/
theorem getRun_createRun (hn : run.id ∉ s.runs.map RunRow.id) (hp : run.Plain) :
    (s.createRun run).getRun run.id = .ok (some run.unzoned) := by
  have hnone : s.runs.find? (fun row => row.id = run.id) = none := by
    refine List.find?_eq_none.mpr fun row hrow hid => hn ?_
    exact List.mem_map.mpr ⟨row, hrow, of_decide_eq_true hid⟩
  have hfound : (s.createRun run).runs.find? (fun row => row.id = run.id) = some (.ofRun run) := by
    rw [createRun, List.find?_append, hnone, Option.none_or]
    simp [RunRow.ofRun]
  simp only [getRun, hfound, RunRow.toRun_ofRun hp]
  rfl

end Rows

/-! ### A run on its way -/

namespace Office

/-- The office keeps rows that are sound, with definitions filed under their own ids. -/
structure Keeps (rows : Rows) (o : Office) : Prop where
  store : o.store = .rows rows
  sound : o.Sound
  filed : o.store.Filed

/-- The rows are those from before and that of one plain run, which is the newest. -/
structure Holds (before : Rows) (n : Nat) (run : Run) (o : Office) : Prop where
  store : o.store = .rows (before.createRun run)
  created : o.created = n
  plain : run.Plain
  id : run.id = runId n
  fresh : run.id ∉ before.runs.map RunRow.id

variable {before : Rows} {created : Nat} {run : Run} {o : Office}

theorem Holds.updateRun (h : o.Holds before created run) (hs : run.status = .running) {c : Change}
    (hc : c.Plain) :
    ∃ o', o.answer (.updateRun run.id c Engine.runningName) = (.ok true, o') ∧
      o'.Holds before created (run.apply c) := by
  have hupdate := Rows.updateRun_createRun h.fresh hs hc
  refine ⟨{ o with store := .rows (before.createRun (run.apply c)) }, ?_, rfl, h.created,
    h.plain.apply hc, h.id, h.fresh⟩
  simp only [Office.answer, h.store, Store.updateRun, hupdate]

/-- A run that is begun holds. -/
theorem Keeps.createRun (h : o.Keeps before) (workflowId : String) (context : Table Json) :
    ∃ o', o.answer (.createRun workflowId context) =
        ((Run.start (runId (o.created + 1)) workflowId context o.clock).unzoned, o') ∧
      o'.Holds before (o.created + 1) (.start (runId (o.created + 1)) workflowId context o.clock) := by
  have hfresh : runId (o.created + 1) ∉ before.runs.map RunRow.id := by
    have hids := h.sound.fresh
    rwa [h.store] at hids
  refine ⟨_, Prod.ext ?_ rfl, ?_, rfl, Run.plain_start _ _ _ _, rfl, hfresh⟩
  · rw [o.fst_createRun, h.store]
    rfl
  · simp only [Office.answer, h.store, Store.createRun]

/-- Rows that hold one run more are as sound as before, and nothing is filed otherwise. -/
theorem Holds.keeps {o₀ : Office} (h : o.Holds before created run) (h₀ : o₀.Keeps before)
    (hc : o₀.created ≤ created) : o.Keeps (before.createRun run) := by
  have hsound : (Store.rows before).Sound := h₀.store ▸ h₀.sound.store
  have hnumbered : ∀ id ∈ (Store.rows before).ids, ∃ k, k ≤ o₀.created ∧ id = runId k :=
    h₀.store ▸ h₀.sound.numbered
  have hfiled : (Store.rows before).Filed := h₀.store ▸ h₀.filed
  refine ⟨h.store, ⟨?_, fun id hid => ?_⟩, ?_⟩
  · rw [h.store]
    exact hsound.createRun h.plain h.fresh
  · rw [h.store] at hid
    have hids := Store.ids_createRun (s := .rows before) h.fresh
    rw [h.created]
    rcases List.mem_append.mp (hids ▸ hid) with hid | hid
    · obtain ⟨k, hk, he⟩ := hnumbered id hid
      exact ⟨k, Nat.le_trans hk hc, he⟩
    · exact ⟨created, Nat.le_refl _, (List.mem_singleton.mp hid).trans h.id⟩
  · rw [h.store]
    exact hfiled.of_getWorkflow_eq rfl

theorem Holds.getRun (h : o.Holds before created run) :
    o.answer (.getRun run.id) = (.ok (some run.unzoned), o) := by
  simp only [Office.answer, h.store, Store.getRun, Rows.getRun_createRun h.fresh h.plain]

end Office

namespace Engine

variable {before : Rows} {created : Nat} {run : Run} {o : Office}

/-- A run is still the same, and running. -/
structure Continues (run run' : Run) : Prop where
  id : run'.id = run.id
  workflowId : run'.workflowId = run.workflowId
  running : run'.status = .running

/-- The steps of a run leave it running, and nobody overtakes it. -/
theorem leads_drive (e : Engine) (w : Workflow) (left index : Nat) (context : Table Json)
    (h : o.Holds before created run) (hs : run.status = .running) :
    (e.drive w run.id left index context).Leads
      (fun ending o' => ∃ index context error run', ending = .reached index context error ∧
        Continues run run' ∧ o'.Holds before created run') o := by
  -- On how many steps may still be taken. That the run is there, is the newest and goes on carries it.
  induction left generalizing index context run o with
  | zero =>
    unfold drive
    split
    · exact ⟨index, context, _, run, rfl, ⟨rfl, rfl, hs⟩, h⟩
    · exact ⟨index, context, _, run, rfl, ⟨rfl, rfl, hs⟩, h⟩
  | succ left ih =>
    unfold drive
    split
    · exact ⟨index, context, _, run, rfl, ⟨rfl, rfl, hs⟩, h⟩
    · next step _ =>
      obtain ⟨o', hupdate, hholds⟩ := h.updateRun hs (Change.plain_checkpoint index context)
      refine Work.leads_store hupdate ?_
      -- The step asks the world only, and what comes after it finds the run as the checkpoint left it.
      refine (Work.leads_ofOutside (P := fun _ o => o.Holds before created _) _ fun _ => hholds).bind
        fun r o hholds => ?_
      have hrunning : (run.apply (.checkpoint index context)).status = .running := hs
      by_cases hsuccess : r.success
      · rw [if_pos hsuccess]
        refine (ih _ _ hholds hrunning).mono fun ending o' hend => ?_
        obtain ⟨index', context', error, run', he, hcontinues, hholds'⟩ := hend
        exact ⟨index', context', error, run', he,
          ⟨hcontinues.id, hcontinues.workflowId, hcontinues.running⟩, hholds'⟩
      · rw [if_neg hsuccess]
        exact ⟨index, context, _, run.apply (.checkpoint index context), rfl, ⟨rfl, rfl, hrunning⟩,
          hholds⟩

/-- A run that is reported as it is stored, after its end. -/
structure Finished (before : Rows) (created : Nat) (workflowId : String) (run : Run) (o : Office) : Prop where
  holds : o.Holds before created run
  terminal : run.status.isTerminal = true
  workflowId : run.workflowId = workflowId

theorem isTerminal_final (index : Nat) (context : Table Json) (error : Option String) (now : Time) :
    (run.apply (.final index context error now)).status.isTerminal = true := by
  cases error <;> rfl

/-- The end of a run is written down, and read again. -/
theorem leads_conclude {given : Run} (hid : given.id = run.id) (index : Nat) (context : Table Json)
    (error : Option String) (h : o.Holds before created run) (hs : run.status = .running) :
    (conclude given (.reached index context error)).Leads
      (fun r o' => ∃ run', r = .ok run'.unzoned ∧ Finished before created run.workflowId run' o') o := by
  unfold conclude
  refine Work.leads_store (a := o.clock) (u := o) rfl ?_
  obtain ⟨o', hupdate, hholds⟩ := h.updateRun hs (Change.plain_final index context error o.clock)
  rw [hid]
  refine Work.leads_store hupdate (Work.leads_store (hholds.getRun) ?_)
  exact ⟨_, rfl, hholds, isTerminal_final index context error o.clock, rfl⟩

theorem leads_run (e : Engine) (w : Workflow) (context : Table Json) (h : o.Keeps before) :
    (e.run w context).Leads
      (fun r o' => ∃ run, r = .ok run.unzoned ∧ Finished before (o.created + 1) w.id run o') o := by
  obtain ⟨o', hcreate, hholds⟩ := h.createRun w.id context
  refine Work.leads_store hcreate ((leads_drive e w _ 0 context hholds rfl).bind ?_)
  rintro _ o' ⟨index, reached, error, run, rfl, hcontinues, hholds⟩
  have hid : (Run.start (Office.runId (o.created + 1)) w.id context o.clock).unzoned.id = run.id :=
    hcontinues.id.symm
  refine (leads_conclude hid index reached error hholds hcontinues.running).mono ?_
  rintro r o' ⟨run', hr, hfinished⟩
  exact ⟨run', hr, hfinished.holds, hfinished.terminal,
    hfinished.workflowId.trans hcontinues.workflowId⟩

/-- A workflow that is there and enabled comes to a run that has ended. -/
theorem leads_trigger_of_enabled (e : Engine) {id : String} {w : Workflow} (context : Table Json)
    (kind : String) (triggeredBy : Option String) (h : o.Keeps before)
    (hw : o.store.getWorkflow id = .ok (some w)) (henabled : w.enabled = true) :
    (e.trigger id context kind triggeredBy).Leads
      (fun r o' => ∃ run, r = .ok run.unzoned ∧ Finished before (o.created + 1) id run o') o := by
  have hid : w.id = id := h.filed id w hw
  refine Work.leads_store (Prod.ext hw rfl) ?_
  simp only [henabled, if_true]
  exact Work.leads_store (a := o.clock) (u := o) rfl (hid ▸ leads_run e w _ h)

/-- A workflow that is triggered comes to a fault and nothing is made, or else to a run that has ended. -/
theorem leads_trigger (e : Engine) (id : String) (context : Table Json) (kind : String)
    (triggeredBy : Option String) (h : o.Keeps before) :
    (e.trigger id context kind triggeredBy).Leads
      (fun r o' => (∃ f, r = .error f ∧ o' = o) ∨
        ∃ run, r = .ok run.unzoned ∧ Finished before (o.created + 1) id run o') o := by
  cases hw : o.store.getWorkflow id with
  | error f => exact Work.leads_store (Prod.ext hw rfl) (Or.inl ⟨f, rfl, rfl⟩)
  | ok found =>
    cases found with
    | none => exact Work.leads_store (Prod.ext hw rfl) (Or.inl ⟨_, rfl, rfl⟩)
    | some w =>
      cases henabled : w.enabled with
      | true =>
        exact (leads_trigger_of_enabled e context kind triggeredBy h hw henabled).mono fun _ _ => Or.inr
      | false =>
        refine Work.leads_store (Prod.ext hw rfl) ?_
        simp only [henabled, Bool.false_eq_true, if_false]
        exact Or.inl ⟨_, rfl, rfl⟩

end Engine

/-- A run that is cancelled is updated once it was found; where there is a fault, nothing is. -/
theorem leads_cancelRun (id : String) {o : Office} (h : o.Sound) :
    (cancelRun id).Leads
      (fun r o' => o' = o ∨ ∃ now, r.toBool = true ∧
        o' = (o.answer (.updateRun id (.cancel now) Engine.runningName)).2) o := by
  refine Work.leads_store (u := o) rfl ?_
  cases hrun : o.store.getRun id with
  | error f => exact Or.inl rfl
  | ok found =>
    cases found with
    | none => exact Or.inl rfl
    | some run =>
      refine Work.leads_store (a := o.clock) (u := o) rfl (Work.leads_store (Prod.ext rfl rfl) ?_)
      refine Or.inr ⟨o.clock, ?_, rfl⟩
      rw [h.store.fst_updateRun (Change.plain_cancel o.clock) id Engine.runningName]
      rfl

end Conductor
