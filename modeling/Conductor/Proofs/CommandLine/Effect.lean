import Conductor.CommandLine.Session
import Conductor.Proofs.CommandLine.Added

/-! What commands do to the database that outlasts them. A command that fails leaves it as it was, but for
a run that failed, which is there with its end. -/

namespace Conductor

/-- The rows after are those before and one more, that of a new run of a workflow that has ended. -/
structure Rows.Adds (before : Rows) (workflowId : String) (run : Run) (after : Rows) : Prop where
  workflowId : run.workflowId = workflowId
  plain : run.Plain
  terminal : run.status.isTerminal = true
  fresh : run.id ∉ before.runs.map RunRow.id
  rows : after = before.createRun run

/-- Only a definition is replaced by saving. -/
theorem Office.Keeps.saveWorkflow {rows : Rows} {o : Office} (h : o.Keeps rows) (w : Workflow) :
    (o.answer (.saveWorkflow w)).2.Keeps (rows.saveWorkflow w) := by
  refine ⟨?_, ⟨h.sound.store.saveWorkflow w, fun id hid => ?_⟩, h.filed.answer _⟩
  · simp only [Office.answer, h.store, Store.saveWorkflow]
  · exact h.sound.numbered id (Store.ids_saveWorkflow o.store w ▸ hid)

/-- A run that is cancelled keeps its row. -/
theorem Office.Keeps.cancel {rows : Rows} {o : Office} (h : o.Keeps rows) (id : String) (now : Time) :
    (o.answer (.updateRun id (.cancel now) Engine.runningName)).2.Keeps
      (rows.updated id (.cancel now) Engine.runningName) := by
  have hplain : (Change.cancel now).Plain := Change.plain_cancel now
  refine ⟨?_, (h.sound.updateRun id hplain).1, h.filed.answer _⟩
  simp only [Office.answer, h.store, Store.updateRun, Rows.updateRun_eq hplain]

/-- A command that may make something, a definition or a run. -/
def Command.makes : Command → Bool
  | .register _ | .runWorkflow _ _ _ => true
  | _ => false

namespace Report

theorem exit_ofFault (f : Fault) : (ofFault f).exit ≠ 0 := by
  unfold ofFault
  split <;> exact Nat.one_ne_zero

end Report

namespace Site

variable {s : Site} {before after : Rows} {given : Except Refusal Command} {command : Command}
variable {report : Report} {o : Office} {made : Nat}

/-- What comes of arguments that were given: what they do to rows, how many runs are made, and what is
reported. -/
inductive Effect (s : Site) (before : Rows) : Except Refusal Command → Report → Rows → Nat → Prop
  | failed {given : Except Refusal Command} {report : Report} (hexit : report.exit ≠ 0) :
    Effect s before given report before 0
  | looked {command : Command} {report : Report} (h : command.makes = false) :
    Effect s before (.ok command) report before 0
  | registered {path : String} {report : Report} {d : Definition} {w : Workflow}
    (hexit : report.exit = 0) (hd : Definition.load s.files path = .ok d) (hw : s.storable d = .ok w) :
    Effect s before (.ok (.register path)) report (before.saveWorkflow w) 0
  | ran {id : String} {context triggeredBy : Option String} {run : Run} {after : Rows}
    (h : before.Adds id run after) :
    Effect s before (.ok (.runWorkflow id context triggeredBy)) (.ofRun run.unzoned) after 1
  | cancelled {id : String} {report : Report} (hexit : report.exit = 0) (now : Time) :
    Effect s before (.ok (.cancelRun id)) report (before.updated id (.cancel now) Engine.runningName) 0

/-- The office keeps what an effect leaves behind, where `n` runs had been made before. -/
def Does (s : Site) (before : Rows) (n : Nat) (given : Except Refusal Command) (report : Report)
    (o : Office) : Prop :=
  ∃ after made, o.Keeps after ∧ o.created = n + made ∧ s.Effect before given report after made

theorem does_failed (h : o.Keeps before) (hexit : report.exit ≠ 0) :
    s.Does before o.created given report o :=
  ⟨before, 0, h, rfl, .failed hexit⟩

theorem does_looked (h : o.Keeps before) (hlooks : command.makes = false) :
    s.Does before o.created (.ok command) report o :=
  ⟨before, 0, h, rfl, .looked hlooks⟩

theorem leads_withValue {α : Type} {x : Except Fault α} {f : α → Work Report} (h : o.Keeps before)
    (hf : ∀ a, x = .ok a → (f a).Leads (s.Does before o.created given) o) :
    (withValue x f).Leads (s.Does before o.created given) o := by
  cases x with
  | error f => exact does_failed h Nat.one_ne_zero
  | ok a => exact hf a rfl

/-- Work that leaves the office alone is reported, for a command that only looks. -/
theorem leads_reporting {α : Type} {f : α → Report} {work : Work (Except Fault α)} (h : o.Keeps before)
    (hlooks : command.makes = false) (hw : work.Leads (fun _ o' => o' = o) o) :
    (reporting f work).Leads (s.Does before o.created (.ok command)) o := by
  refine Work.Leads.map (hw.mono ?_)
  rintro r o' rfl
  exact does_looked h hlooks

theorem leads_register (h : o.Keeps before) (path : String) :
    (s.register path).Leads (s.Does before o.created (.ok (.register path))) o := by
  refine leads_withValue h fun there _ => ?_
  split
  · exact does_failed h Nat.one_ne_zero
  · split
    · next f _ =>
      refine does_failed h ?_
      split <;> exact Nat.one_ne_zero
    · next d hd =>
      refine leads_withValue h fun w hw => ?_
      exact ⟨before.saveWorkflow w, 0, h.saveWorkflow w, rfl, .registered rfl hd hw⟩

theorem exit_contextOf {arg : Option String} (h : contextOf arg = .error report) : report.exit ≠ 0 := by
  unfold contextOf at h
  split at h
  · cases h
  · split at h
    · cases h
    · cases h
      exact Nat.one_ne_zero
    · cases h
      split <;> exact Nat.one_ne_zero

theorem leads_runWorkflow (h : o.Keeps before) (id : String) (context triggeredBy : Option String) :
    (s.runWorkflow id context triggeredBy).Leads
      (s.Does before o.created (.ok (.runWorkflow id context triggeredBy))) o := by
  unfold runWorkflow
  split
  · next report hcontext => exact does_failed h (exit_contextOf hcontext)
  · next fields _ =>
    refine leads_withValue h fun e _ => Work.Leads.map ?_
    refine (e.leads_trigger id fields Trigger.manual.name triggeredBy h).mono ?_
    -- A fault leaves everything as it was; else what is reported is the run as it was read after its end.
    rintro r o' (⟨f, rfl, rfl⟩ | ⟨run, rfl, hfinished⟩)
    · exact does_failed h (Report.exit_ofFault f)
    · have hholds := hfinished.holds
      exact ⟨before.createRun run, 1, hholds.keeps h (Nat.le_succ _), hholds.created,
        .ran ⟨hfinished.workflowId, hholds.plain, hfinished.terminal, hholds.fresh, rfl⟩⟩

theorem leads_cancelRun (h : o.Keeps before) (id : String) :
    (s.cancelRun id).Leads (s.Does before o.created (.ok (.cancelRun id))) o := by
  refine leads_withValue h fun e _ => Work.Leads.map ?_
  refine (Conductor.leads_cancelRun id h.sound).mono ?_
  rintro r o' (rfl | ⟨now, hok, rfl⟩)
  · exact does_looked h rfl
  · cases r with
    | error f => cases hok
    | ok cancelled =>
      refine ⟨_, 0, h.cancel id now, rfl, .cancelled ?_ now⟩
      cases cancelled <;> rfl

/-- A command does to the rows what it reports. -/
theorem leads_work (s : Site) (command : Command) (h : o.Keeps before) :
    (s.work command).Leads (s.Does before o.created (.ok command)) o := by
  cases command with
  | register path => exact leads_register h path
  | runWorkflow id context triggeredBy => exact leads_runWorkflow h id context triggeredBy
  | cancelRun id => exact leads_cancelRun h id
  | showWorkflow id =>
    refine leads_withValue h fun _ _ => Work.leads_store (u := o) rfl ?_
    split <;> exact does_looked h rfl
  | listRuns id =>
    exact leads_withValue h fun _ _ => leads_reporting h rfl (Work.leads_store (u := o) rfl rfl)
  | countRuns id =>
    exact leads_withValue h fun _ _ => leads_reporting h rfl (Work.leads_store (u := o) rfl rfl)
  | showRun id =>
    refine leads_withValue h fun _ _ => leads_reporting h rfl (Work.leads_store (u := o) rfl ?_)
    split <;> rfl
  | matchAgents task path onlineOnly limit => exact does_looked h rfl
  | suggest task => exact does_looked h rfl

theorem leads_carryOut (s : Site) (args : List String) (h : o.Keeps before) :
    (s.carryOut args).Leads (s.Does before o.created (Command.ofArguments args)) o := by
  unfold carryOut
  cases Command.ofArguments args with
  | ok command => exact leads_work s command h
  | error refusal =>
    cases refusal with
    | usage => exact does_failed h (Nat.succ_ne_zero 1)
    | unknownLevel name => exact does_failed h Nat.one_ne_zero

end Site

/-! ### One command after the other -/

/-- A command is given, or time passes. -/
inductive Happening where
  | command (s : Site) (args : List String)
  | pause (ms : Int)

namespace Rehearsal

/-- A calm world whose office keeps rows. -/
structure Lasting (rows : Rows) (s : Rehearsal) : Prop where
  calm : s.Calm
  keeps : s.office.Keeps rows

def happen (s : Rehearsal) : Happening → Rehearsal
  | .command site args => (site.perform args s).2
  | .pause ms => { s with office := { s.office with clock := s.office.clock.after ms } }

/-- A world with an empty database, in which requests meet responses, after what happened in it. -/
def after (responses : List ScriptedResponse) (happenings : List Happening) : Rehearsal :=
  happenings.foldl happen { start (.rows .empty) with responses := responses }

variable {world : Rehearsal} {before : Rows}

/-- A command over another store than the lasting one leaves that one alone. -/
theorem Lasting.perform_passing (h : world.Lasting before) {s : Site} {store : Store}
    (hs : s.passingStore? = some store) (args : List String) :
    (s.perform args world).2.Lasting before := by
  let passing : Rehearsal := { world with office := { world.office with store := store } }
  have hcalm : passing.Calm := ⟨h.calm.mishaps, h.calm.replies, h.calm.cancelledWaits⟩
  obtain ⟨hcreated, hafter⟩ := hcalm.perform (Work.leads_le_created (s.carryOut args) passing.office)
  have hperform : s.perform args world =
      ((passing.perform (s.carryOut args)).1,
        { (passing.perform (s.carryOut args)).2 with
          office := { (passing.perform (s.carryOut args)).2.office with store := world.office.store } }) := by
    simp only [Site.perform, hs]
    rfl
  rw [hperform]
  refine ⟨⟨hafter.mishaps, hafter.replies, hafter.cancelledWaits⟩, h.keeps.store,
    ⟨h.keeps.sound.store, fun id hid => ?_⟩, h.keeps.filed⟩
  -- Runs made in the passing store count too, so that no id is given out twice.
  obtain ⟨k, hk, he⟩ := h.keeps.sound.numbered id hid
  exact ⟨k, Nat.le_trans hk hcreated, he⟩

/-- A command over the lasting store does to it what it reports. -/
theorem Lasting.perform (h : world.Lasting before) {s : Site} (hs : s.passingStore? = none)
    (args : List String) :
    ∃ after made, (s.perform args world).2.Lasting after ∧
      (s.perform args world).2.office.created = world.office.created + made ∧
      s.Effect before (Command.ofArguments args) (s.perform args world).1 after made := by
  simp only [Site.perform, hs]
  obtain ⟨⟨after, made, hkeeps, hcreated, heffect⟩, hcalm⟩ :=
    h.calm.perform (s.leads_carryOut args h.keeps)
  exact ⟨after, made, ⟨hcalm, hkeeps⟩, hcreated, heffect⟩

theorem Lasting.happen (h : world.Lasting before) (happening : Happening) :
    ∃ after, (world.happen happening).Lasting after := by
  cases happening with
  | command s args =>
    cases hs : s.passingStore? with
    | none =>
      obtain ⟨after, _, hlasting, _⟩ := h.perform hs args
      exact ⟨after, hlasting⟩
    | some store => exact ⟨before, h.perform_passing hs args⟩
  | pause ms =>
    have hcalm := h.calm
    have hkeeps := h.keeps
    exact ⟨before, ⟨hcalm.mishaps, hcalm.replies, hcalm.cancelledWaits⟩, hkeeps.store,
      ⟨hkeeps.sound.store, hkeeps.sound.numbered⟩, hkeeps.filed⟩

/-- A definition in a file, and the url of a database in another file. -/
def sampleSite : Site :=
  ⟨[("w.json", "\x7b\"id\": \"w\", \"user_id\": \"u\", \"name\": \"n\", \"steps\": []\x7d")],
    [("DATABASE_URL", "sqlite:///cli.db")]⟩

/-- Its workflow is registered. -/
def registered : List Happening := [.command sampleSite ["workflow", "register", "w.json"]]

end Rehearsal

end Conductor
