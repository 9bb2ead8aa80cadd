import Conductor.Proofs.Engine.Interpreter
import Conductor.Proofs.System.Office

/-! The engine does what the interpreter does that has no store. Both are programs that ask the world the
same questions in the same order, whatever the world answers. -/

namespace Conductor

/-- The office that answers a call, and others who work there in between: after an exchange that leaves
an office behind they may change it. -/
structure Surroundings (σ : Type) where
  office : σ → Office
  move : σ → (q : Call) × q.Answer → Office → σ

/-- What the others do leaves one run alone. -/
structure Office.Spares (id : String) (o o' : Office) : Prop where
  sound : o'.Sound
  record : o'.store.record? id = o.store.record? id

/-- A call with its questions about what is stored answered. What is left of it asks the world only. -/
def Work.within {α σ : Type} (S : Surroundings σ) : Work α → σ → Program Outside.Answer (α × σ)
  | .done a, s => .done (a, s)
  | .ask (.store c) next, s =>
    let r := (S.office s).answer c
    within S (next r.1) (S.move s ⟨.store c, r.1⟩ r.2)
  | .ask (.outside q) next, s =>
    .ask q fun r => within S (next r) (S.move s ⟨.outside q, r⟩ (S.office s))

variable {α β σ : Type} {S : Surroundings σ} {s : σ} {id : String}

theorem Work.within_bind (p : Work α) (f : α → Work β) (s : σ) :
    Work.within S (p.bind f) s = (p.within S s).bind fun r => (f r.1).within S r.2 := by
  induction p generalizing s with
  | done a => rfl
  | ask q next ih =>
    cases q with
    | store c => exact ih _ _
    | outside q => exact congrArg (Program.ask q) (funext fun r => ih _ _)

theorem Work.within_store {c : StoreCall} {next : c.Answer → Work α} {a : c.Answer} {o : Office}
    (h : (S.office s).answer c = (a, o)) :
    Work.within S (.ask (.store c) next) s = (next a).within S (S.move s ⟨.store c, a⟩ o) := by
  simp only [Work.within, h]

theorem Work.within_getRun {next : Except Fault (Option Run) → Work α} {found : Option Run}
    (ho : (S.office s).Sound) (h : (S.office s).store.record? id = found) :
    Work.within S (.ask (.store (.getRun id)) next) s =
      (next (.ok found)).within S (S.move s ⟨.store (.getRun id), .ok found⟩ (S.office s)) := by
  have hget : (S.office s).store.getRun id = .ok found := h ▸ ho.store.getRun_eq id
  exact Work.within_store (o := S.office s) (Prod.ext hget rfl)

namespace Surroundings

/-- A run that is stored and running, at an office that is sound. -/
structure Running (S : Surroundings σ) (id : String) (s : σ) : Prop where
  sound : (S.office s).Sound
  record : ∃ run, (S.office s).store.record? id = some run ∧ run.status = .running

/-- The run that is stored and given back is as the interpreter has it. -/
def Same (S : Surroundings σ) (e : Engine) (r : Except Fault Run × σ) (v : Verdict) : Prop :=
  ∃ run, r.1 = .ok run ∧ (S.office r.2).store.getRun run.id = .ok (some run) ∧
    run.status = v.status ∧ run.error = v.error e ∧ run.currentStep = v.index ∧ run.context = v.context

/-- Nobody else writes a run, so that nobody cancels it. -/
def Spared (S : Surroundings σ) (id : String) : Prop :=
  ∀ s x (o : Office), o.Sound → o.Spares id (S.office (S.move s x o))

/-- The id of a run that is made as soon as a definition was found. -/
def newRunId (S : Surroundings σ) (s : σ) (id : String) (w : Workflow) : String :=
  Office.runId ((S.office (S.move s ⟨.store (.getWorkflow id), .ok (some w)⟩ (S.office s))).created + 1)

/-- Nobody else works at the office. -/
def lone : Surroundings Office := ⟨fun o => o, fun _ _ o => o⟩

variable {e : Engine} {w : Workflow} {x : (q : Call) × q.Answer} {o : Office}

theorem Spared.sound (hs : S.Spared id) (ho : o.Sound) : (S.office (S.move s x o)).Sound :=
  (hs s x o ho).sound

theorem Spared.record (hs : S.Spared id) (ho : o.Sound) :
    (S.office (S.move s x o)).store.record? id = o.store.record? id :=
  (hs s x o ho).record

theorem Running.move (h : S.Running id s) (hs : S.Spared id) (x : (q : Call) × q.Answer) :
    S.Running id (S.move s x (S.office s)) := by
  obtain ⟨ho, run, hr, hrun⟩ := h
  exact ⟨hs.sound ho, run, (hs.record ho).trans hr, hrun⟩

theorem Running.step (h : S.Running id s) (hs : S.Spared id) (p : Program Outside.Answer α) :
    ((Work.ofOutside p).within S s).Agrees (fun r a => r.1 = a ∧ S.Running id r.2) p := by
  induction p generalizing s with
  | done a => exact .done ⟨rfl, h⟩
  | ask q next ih => exact .ask q fun r => ih r (h.move hs ⟨.outside q, r⟩)

/-- An update of a running run is made, and what it makes of the run is read afterwards. -/
theorem Running.updateRun (h : S.Running id s) {c : Change} (hc : c.Plain) :
    ∃ o, (S.office s).answer (.updateRun id c Engine.runningName) = (.ok true, o) ∧ o.Sound ∧
      ∃ run : Run, run.status = .running ∧
        o.store.record? id = some ((S.office s).store.settle (run.apply c)) := by
  obtain ⟨ho, run, hr, hrun⟩ := h
  have hfst : ((S.office s).answer (.updateRun id c Engine.runningName)).1 = .ok true := by
    have hall := (Store.all_runningName (ho.store.record?_plain hr).1).mpr hrun
    have hfst := ho.store.fst_updateRun hc id Engine.runningName
    rwa [hr, Option.any_some, hall] at hfst
  obtain ⟨hsound, hserved⟩ := ho.updateRun id hc
  rw [hfst] at hserved
  obtain ⟨old, _, hold, hnew⟩ := hserved.updateRun
  exact ⟨_, Prod.ext hfst rfl, hsound, old, hold, hnew⟩

/-- The end of a run that is running is written down and read again. -/
theorem Running.conclude (h : S.Running id s) (hs : S.Spared id) {run : Run} (hid : run.id = id)
    (v : Verdict) :
    ((Engine.conclude run (.reached v.index v.context (v.error e))).within S s).Agrees (S.Same e)
      (.done v) := by
  subst hid
  -- Others may work between the look at the clock, the update and the look at the run.
  have hnow := h.move hs ⟨.store .now, (S.office s).clock⟩
  obtain ⟨o, hupdate, ho, old, hold, hrec⟩ :=
    hnow.updateRun (Change.plain_final v.index v.context (v.error e) (S.office s).clock)
  unfold Engine.conclude
  rw [Work.within_store (o := S.office s) rfl, Work.within_store hupdate,
    Work.within_getRun (hs.sound ho) ((hs.record ho).trans hrec)]
  -- What is read is the run with what was written at its end.
  refine .done ⟨_, rfl, ?_, ?_, ?_, ?_, ?_⟩
  · rw [(ho.store.record?_plain hrec).2.1]
    rw [(hs.sound (hs.sound ho)).store.getRun_eq, hs.record (hs.sound ho), hs.record ho, hrec]
  · rw [Store.settle_status]
    obtain ⟨halt, index, context⟩ := v
    cases halt <;> rfl
  · rw [Store.settle_error]
    rfl
  · rw [Store.settle_currentStep]
    rfl
  · rw [Store.settle_context]
    rfl

theorem Running.checkpoint (h : S.Running id s) (hs : S.Spared id) (index : Nat)
    (context : Table Json) :
    ∃ o, (S.office s).answer (.updateRun id (.checkpoint index context) Engine.runningName) =
        (.ok true, o) ∧
      S.Running id (S.move s ⟨.store (.updateRun id (.checkpoint index context) Engine.runningName),
        .ok true⟩ o) := by
  obtain ⟨o, hupdate, ho, run, hrun, hrec⟩ := h.updateRun (Change.plain_checkpoint index context)
  refine ⟨o, hupdate, hs.sound ho, _, (hs.record ho).trans hrec, ?_⟩
  rw [Store.settle_status]
  exact hrun

theorem drive_agrees (hs : S.Spared id) {run : Run} (hid : run.id = id) {executions left : Nat}
    (hl : left = (e.maxExecutions - executions).toNat) (index : Nat) (context : Table Json)
    (h : S.Running id s) :
    (Work.within S ((e.drive w id left index context).bind (Engine.conclude run)) s).Agrees (S.Same e)
      (w.interpret e executions index context) := by
  -- What is left of the guard counts down as the executions of the interpreter count up.
  induction left generalizing executions index context s with
  | zero =>
    unfold Engine.drive Workflow.interpret
    cases w.steps[index]? with
    | none => exact h.conclude hs hid ⟨.completed, index, context⟩
    | some step =>
      have hle : e.maxExecutions ≤ executions := by omega
      simp only [hle, dite_true]
      exact h.conclude hs hid ⟨.exhausted, index, context⟩
  | succ left ih =>
    unfold Engine.drive Workflow.interpret
    cases w.steps[index]? with
    | none => exact h.conclude hs hid ⟨.completed, index, context⟩
    | some step =>
      have hlt : ¬ e.maxExecutions ≤ executions := by omega
      simp only [hlt, dite_false]
      obtain ⟨o, hupdate, hrunning⟩ := h.checkpoint hs index context
      rw [Program.bind_ask, Work.within_store hupdate]
      change (Work.within S (((Work.ofOutside (e.registry.execute step context)).bind _).bind _)
        _).Agrees _ _
      -- Both carry the step out in the same way and part only in what they do with its outcome.
      rw [Program.bind_assoc, Work.within_bind]
      refine (hrunning.step hs _).bind fun r outcome hr => ?_
      obtain ⟨rfl, hrunning⟩ := hr
      by_cases hsuccess : r.1.success
      · rw [if_pos hsuccess, if_pos hsuccess, Workflow.nextIndex_positions]
        exact ih (by omega) _ _ hrunning
      · rw [if_neg hsuccess, if_neg hsuccess, Workflow.textOr_getD_error]
        exact hrunning.conclude hs hid ⟨.failed (Workflow.failure r.1), index, context⟩

theorem running_createRun (hs : S.Spared (Office.runId ((S.office s).created + 1)))
    (ho : (S.office s).Sound) (workflowId : String) (context : Table Json) :
    ∃ run o, (S.office s).answer (.createRun workflowId context) = (run, o) ∧
      run.id = Office.runId ((S.office s).created + 1) ∧
      S.Running run.id (S.move s ⟨.store (.createRun workflowId context), run⟩ o) := by
  have hid := (S.office s).id_createRun workflowId context
  obtain ⟨hsound, hserved⟩ := ho.createRun workflowId context
  rcases hanswer : (S.office s).answer (.createRun workflowId context) with ⟨run, o⟩
  rw [hanswer] at hid hsound hserved
  obtain ⟨_, _, hrec, hstatus⟩ := hserved.createRun
  refine ⟨run, o, rfl, hid, hs.sound hsound, run, ?_, hstatus⟩
  rw [← hrec, hid]
  exact hs.record hsound

/-- Carrying out a workflow is the interpreter, and the guard fires exactly if the workflow goes on after
as many executions as are allowed. -/
theorem execute_agrees (ho : (S.office s).Sound) (e : Engine) (id : String) (context : Table Json)
    {w : Workflow} (hw : (S.office s).store.getWorkflow id = .ok (some w))
    (hs : S.Spared (S.newRunId s id w)) :
    (Work.within S (e.execute id context) s).Agrees (S.Same e) (w.interpret e 0 0 context) ∧
      (w.interpret e 0 0 context).Agrees (fun v still => v.halt = .exhausted ↔ still = true)
        (w.goesOn e.registry e.maxExecutions.toNat 0 context) := by
  refine ⟨?_, Workflow.interpret_agrees_goesOn (by simp) 0 context⟩
  have hfound : (S.office s).answer (.getWorkflow id) = (.ok (some w), S.office s) := by
    rw [← hw]
    rfl
  obtain ⟨run, o, hcreate, hid, hrunning⟩ := running_createRun hs (hs.sound ho) w.id context
  change (Work.within S (.ask (.store (.getWorkflow id)) _) s).Agrees _ _
  rw [Work.within_store hfound]
  change (Work.within S (.ask (.store (.createRun w.id context)) _) _).Agrees _ _
  rw [Work.within_store hcreate]
  exact drive_agrees (hid ▸ hs) rfl (by simp) 0 context hrunning

/-- A workflow of one step, carried out where nobody else is at work. -/
theorem execute_agrees_single :
    let o := (Office.vacant.answer (.saveWorkflow .single)).2
    (Work.within lone (Engine.sample.execute "w" []) o).Agrees (lone.Same .sample)
        (Workflow.single.interpret .sample 0 0 []) ∧
      (Workflow.single.interpret .sample 0 0 []).Agrees
        (fun v still => v.halt = .exhausted ↔ still = true)
        (Workflow.single.goesOn Engine.sample.registry 10 0 []) :=
  execute_agrees (Office.sound_of_ids_nil rfl) .sample "w" [] rfl fun _ _ _ ho => ⟨ho, rfl⟩

end Surroundings

end Conductor
