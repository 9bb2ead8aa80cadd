import Conductor.Proofs.Store.Definitions
import Conductor.Proofs.System.Refinement

/-! One definition carried out over two stores. Memory keeps it as it is; rows keep what is written of it, and
it is read again. Both runs are that of the interpreter, each on the definition that its store finds. -/

namespace Conductor

/-- A definition is saved and carried out. -/
def Engine.saveAndExecute (e : Engine) (w : Workflow) (context : Table Json) : Work (Except Fault Run) :=
  .ask (.store (.saveWorkflow w)) fun _ => e.execute w.id context

/-- Two runs came to the same. -/
structure Run.Alike (r r' : Run) : Prop where
  status : r.status = r'.status
  currentStep : r.currentStep = r'.currentStep
  error : r.error = r'.error
  context : r.context = r'.context

/-- Both calls come back with a run, and the two runs came to the same. -/
def Office.Alike (r r' : Except Fault Run × Office) : Prop :=
  ∃ run run', r.1 = .ok run ∧ r'.1 = .ok run' ∧ run.Alike run'

namespace Workflow

variable {w : Workflow}

/-- No delay is left at its default. -/
def Timed (w : Workflow) : Prop := ∀ s ∈ w.steps, s.action ≠ .delay .default

theorem reread_of_timed (hv : w.Valid) (ht : w.Timed) : w.reread = w := by
  have hstep : ∀ s ∈ w.steps, s.reread = s := by
    intro s hs
    have hvalid := hv.actions s hs
    have htimed := ht s hs
    obtain ⟨id, name, action⟩ := s
    cases action with
    | delay c =>
      rcases hvalid with rfl | ⟨x, rfl, _⟩
      · exact absurd rfl htimed
      · rfl
    | _ => rfl
  have hsteps : w.steps.map Step.reread = w.steps :=
    (List.map_congr_left hstep).trans (List.map_id' _)
  obtain ⟨id, userId, name, description, trigger, config, enabled, steps, hnodup⟩ := w
  simp only [reread, Workflow.mk.injEq, true_and]
  exact hsteps

end Workflow

/-- A delay that is left at its default. -/
def Json.untimed : Json := .obj [
  ("id", .str "w"), ("user_id", .str "u"), ("name", .str "Untimed"),
  ("steps", .arr [.obj [("id", .str "d"), ("type", .str "delay")]])]

def Workflow.untimed : Workflow :=
  ⟨"w", "u", "Untimed", none, .manual, [], true, [⟨"d", "", .delay .default⟩], by decide⟩

def Office.vacantRows : Office := ⟨.rows .empty, .start, 0⟩

namespace Surroundings

variable {e : Engine} {w found : Workflow} {o o' : Office}

/-- Where nobody else is at work, a definition that was saved is carried out as it is found. -/
theorem saveAndExecute_interprets (ho : o.Sound) (context : Table Json)
    (hw : (o.store.saveWorkflow w).getWorkflow w.id = .ok (some found)) :
    (Work.within lone (e.saveAndExecute w context) o).Agrees (lone.Same e)
      (found.interpret e 0 0 context) := by
  let saved := (o.answer (.saveWorkflow w)).2
  have hspared : ∀ id, lone.Spared id := fun _ _ _ _ ho => ⟨ho, rfl⟩
  have hgives : o.Gives True (.store (.saveWorkflow w)) () saved := .store (.saveWorkflow w)
  have hsave : (lone.office o).answer (.saveWorkflow w) = ((), saved) := rfl
  have hsaved : saved.Sound := (hgives.served ho trivial).1
  have hfound : saved.answer (.getWorkflow w.id) = (.ok (some found), saved) := Prod.ext hw rfl
  obtain ⟨run, o', hcreate, _, hrunning⟩ := running_createRun (s := saved) (hspared _) hsaved found.id context
  rw [Engine.saveAndExecute, Work.within_store hsave, Engine.execute, Engine.withWorkflow,
    Work.within_store hfound]
  change (Work.within lone (e.run found context) saved).Agrees _ _
  rw [Engine.run, Work.within_store hcreate]
  exact drive_agrees (hspared _) rfl (by simp) 0 context hrunning

/-- Runs that are as the interpreter has them came to the same. -/
theorem Same.alike {r r' : Except Fault Run × Office} {v : Verdict} (h : lone.Same e r v)
    (h' : lone.Same e r' v) : Office.Alike r r' := by
  obtain ⟨run, hrun, _, hstatus, herror, hindex, hcontext⟩ := h
  obtain ⟨run', hrun', _, hstatus', herror', hindex', hcontext'⟩ := h'
  exact ⟨run, run', hrun, hrun', hstatus.trans hstatus'.symm, hindex.trans hindex'.symm,
    herror.trans herror'.symm, hcontext.trans hcontext'.symm⟩

/-- Two offices that find the same definition have it carried out alike. -/
theorem saveAndExecute_agrees {w' : Workflow} (ho : o.Sound) (ho' : o'.Sound) (e : Engine)
    (context : Table Json) (hw : (o.store.saveWorkflow w).getWorkflow w.id = .ok (some found))
    (hw' : (o'.store.saveWorkflow w').getWorkflow w'.id = .ok (some found)) :
    (Work.within lone (e.saveAndExecute w context) o).Agrees Office.Alike
      (Work.within lone (e.saveAndExecute w' context) o') :=
  ((saveAndExecute_interprets ho context hw).meet (saveAndExecute_interprets ho' context hw')).mono
    fun _ _ ⟨_, h, h'⟩ => h.alike h'

/-- What a definition comes to with rows is what it comes to in memory as it is read back, and where its
numbers are finite and no delay is left at its default, that is what it comes to in memory as it is. -/
theorem saveAndExecute_alike {v : Json} (hw : Workflow.ofJson v = .ok w) (e : Engine)
    (context : Table Json) (ho : o.Sound) (ho' : o'.Sound) {m : Memory} {s : Rows}
    (hm : o.store = .memory m) (hs : o'.store = .rows s) :
    (Work.within lone (e.saveAndExecute w.finite.reread context) o).Agrees Office.Alike
        (Work.within lone (e.saveAndExecute w context) o') ∧
      (v.Finite → w.Timed →
        (Work.within lone (e.saveAndExecute w context) o).Agrees Office.Alike
          (Work.within lone (e.saveAndExecute w context) o')) := by
  have hvalid := Workflow.valid_of_ofJson hw
  have hmemory : ∀ w' : Workflow, (o.store.saveWorkflow w').getWorkflow w'.id = .ok (some w') := by
    intro w'
    rw [hm]
    exact congrArg Except.ok (Table.get?_put_self m.workflows w'.id w')
  have hrows : (o'.store.saveWorkflow w).getWorkflow w.id = .ok (some w.finite.reread) := by
    rw [hs]
    exact (s.getWorkflow_saveWorkflow hvalid w.id).trans (if_pos rfl)
  refine ⟨saveAndExecute_agrees ho ho' e context (hmemory _) hrows, fun hv ht => ?_⟩
  -- The definition is read back as it was.
  rw [Workflow.finite_of_ofJson hv hw, Workflow.reread_of_timed hvalid ht] at hrows
  exact saveAndExecute_agrees ho ho' e context (hmemory w) hrows

/-- A condition that goes on to a delay of fifty milliseconds. -/
theorem saveAndExecute_alike_branching :
    let w : Workflow := .branching (.double 50)
    (Work.within lone (Engine.sample.saveAndExecute w []) .vacant).Agrees Office.Alike
      (Work.within lone (Engine.sample.saveAndExecute w []) .vacantRows) := by
  intro w
  have hread : Workflow.ofJson (.branching (.obj [("duration_ms", .int 50)])) = .ok w := rfl
  have htimed : w.Timed := by
    intro s hs
    rcases List.mem_pair.mp hs with rfl | rfl
    · exact Action.noConfusion
    · simp [Delay.default]
  exact (saveAndExecute_alike hread .sample [] (Office.sound_of_ids_nil rfl)
    (Office.sound_of_ids_nil rfl) rfl rfl).2 rfl htimed

/-- The output of a delay that is left at its default is an integer in memory and a double with rows. -/
theorem saveAndExecute_untimed :
    Json.untimed.Finite ∧ Workflow.ofJson .untimed = .ok .untimed ∧
      ¬ (Work.within lone (Engine.sample.saveAndExecute .untimed []) .vacant).Agrees Office.Alike
        (Work.within lone (Engine.sample.saveAndExecute .untimed []) .vacantRows) := by
  refine ⟨rfl, rfl, fun h => ?_⟩
  obtain ⟨run, run', hrun, hrun', halike⟩ := h.run (fun q s => (World.still q, s)) ()
  have houtput : Table.get? run.context "d" = some (.obj [("delayed_ms", .int 1000)]) := by
    cases hrun
    rfl
  have houtput' : Table.get? run'.context "d" = some (.obj [("delayed_ms", .float 1000.0)]) := by
    cases hrun'
    rfl
  rw [halike.context, houtput'] at houtput
  cases houtput

end Surroundings

end Conductor
