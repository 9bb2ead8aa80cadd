import Conductor.Proofs.Engine.Forward
import Conductor.Proofs.System.Cancellation
import Conductor.Proofs.System.Growth

/-! Runs of workflows that only branch forward. Each of their steps is executed at most once, in the order of
the steps, and a guard that allows for each step once never stops them. -/

namespace Conductor

section

variable {a : Actor} {id : String} {w : Workflow} {dispatch : Dispatcher} {timeout : Float} {max : Int}

/-- When the driver writes the end of its run all steps of the run are over, and the end is theirs. -/
theorem Actor.Coursed.concludes (hc : a.Coursed ⟨.standard dispatch timeout, max⟩)
    (hw : a.log.calls.definition? = some w) (hf : w.Forward) (hmax : (w.steps.length : Int) ≤ max)
    {before after : Log Act.Answer} {index : Nat} {context : Table Json} {error expected : Option String}
    {now : Time} {r : Except Fault Bool}
    (hlog : a.log =
      before ++ ⟨.call (.store (.updateRun id (.final index context error now) expected)), r⟩ :: after) :
    ∃ visits, Log.Visited (.standard dispatch timeout) before (visits, none) ∧
      (Log.invocations id a.log = visits.map fun v => (v.step, v.context)) ∧
        (Visit.Concludes visits error ∨
          (Log.Trusted a.log.calls → ∃ id, ⟨.store (.getRun id), .ok none⟩ ∈ a.log.calls)) := by
  obtain ⟨_, _, w', initial, visits, halong, hwrites⟩ := hc.allowed.split hlog
  have hafter := Engine.invocations_of_concludes hc.allowed hlog rfl id
  have hdefinition : a.log.calls.definition? = some w' := by
    rw [hlog]
    exact Log.definition?_calls_append halong.definition _
  obtain rfl : w = w' := Option.some.inj (hw.symm.trans hdefinition)
  refine ⟨visits, halong.visited, ?_, ?_⟩
  · rw [hlog, List.append_cons, Log.invocations_append, Log.invocations_append, hafter, halong.begun,
      List.append_nil]
    exact List.append_nil _
  · refine (halong.concludes hwrites hf hmax).imp_right fun htrouble ht => ?_
    rw [hlog, Log.calls_append] at ht ⊢
    obtain ⟨id, hm⟩ := htrouble ht.of_append
    exact ⟨id, List.mem_append_left _ hm⟩

end

namespace Chronicle

/-- The driver of a run has come back with the run as it is stored, all of whose steps are over. Unless
somebody has cancelled the run, it has completed if they all succeeded, and failed as the last one if not. -/
def Passed (c : Chronicle) (registry : Registry) (a : Actor) (id : String) : Prop :=
  ∃ run, a.rest = .done (.run (.ok run)) ∧ c.office.store.getRun id = .ok (some run) ∧
    ((run.status = .cancelled ∧ ∃ now, Log.cancellation id now ∈ c.past) ∨
      ∃ (before : Log Act.Answer) (visits : List Visit), before <+: a.log ∧
        Log.Visited registry before (visits, none) ∧
          (Log.invocations id c.past = visits.map fun v => (v.step, v.context)) ∧
            (run.status = if run.error.isSome then .failed else .completed) ∧ Visit.Concludes visits run.error)

variable {o : Office} {events : List Event} {i : Nat} {a : Actor} {r : Reply}
variable {id : String} {w : Workflow} {dispatch : Dispatcher} {timeout : Float} {max : Int}

theorem passed_of_done (ho : o.store.ids = []) (hc : ∀ ev ∈ events, ev.Calm)
    (hi : ((start o).run events).actors[i]? = some a) (hrest : a.rest = .done r)
    (he : a.operation.engine? = some ⟨.standard dispatch timeout, max⟩) (hr : a.log.calls.runId? = some id)
    (hw : a.log.calls.definition? = some w) (hf : w.Forward) (hmax : (w.steps.length : Int) ≤ max) :
    ((start o).run events).Passed (.standard dispatch timeout) a id := by
  obtain ⟨h, ha⟩ := account_run ho events
  have ht := told_run ho events hc
  have hmem := List.mem_of_getElem? hi
  have hself : ((start o).run events).At i a.operation a.log := ⟨a.rest, hi⟩
  have htask : a.task ∈ ((start o).run events).system.tasks := List.mem_map_of_mem hmem
  -- The driver returns its run as it is stored, and that run has ended.
  obtain ⟨run, rfl, hget, hterm⟩ :=
    System.getRun_of_returned h.system ht htask hr (congrArg Announced.silent hrest)
  have hrun : ((start o).run events).office.store.record? id = some run :=
    Except.ok.inj ((h.getRun_eq id).symm.trans hget)
  refine ⟨run, hrest, hget, ?_⟩
  rcases (h.system.office.store.record?_plain hrun).1.unconcluded_or with (hs | hs) | hs
  · rw [hs] at hterm
    cases hterm
  · exact Or.inl ⟨hs, ha.cancelled hrun hs⟩
  -- Nobody has cancelled it, so that its end is the one that its driver wrote.
  obtain ⟨before, hwrote⟩ := h.wroteAfter (concluded_run ho events) hi hr hrun hs
  have hnot : ¬ run.Unconcluded := by
    rcases hs with hs | hs <;> simp [Run.Unconcluded, hs]
  cases hwrote with
  | nothing hu => exact absurd hu hnot
  | checkpoint hu => exact absurd hu hnot
  | @final before after index now hstatus hlog =>
    obtain ⟨visits, hvisited, hbegun, hconcludes⟩ :=
      (coursed_run o events a hmem _ he).concludes hw hf hmax hlog
    refine Or.inr ⟨before, visits, hlog ▸ List.prefix_append _ _, hvisited, ?_, hstatus, ?_⟩
    · rw [(ha.driver hself hr).2, hbegun]
    · refine hconcludes.resolve_right fun htrouble => ?_
      -- A driver finds its run wherever the store answers.
      obtain ⟨other, hm⟩ := htrouble (ht.answered hself.system)
      have hdrives := Operation.drives_of_runId? (h.system.allowed hself.system) hr
      exact ht.missed ⟨_, hself.system, hm⟩ hdrives

/-- However the calls take turns and whatever the world answers, a run of a workflow that only branches
forward begins each step at most once, in the order of the steps. Where no store call fails it comes to an
end, and that is the end of its steps, never one by a guard that allows for each step once. -/
theorem passed_run (ho : o.store.ids = []) (events : List Event)
    (hi : ((start o).run events).actors[i]? = some a)
    (he : a.operation.engine? = some ⟨.standard dispatch timeout, max⟩) (hr : a.log.calls.runId? = some id)
    (hw : a.log.calls.definition? = some w) (hf : w.Forward) (hmax : (w.steps.length : Int) ≤ max) :
    ((Log.invocations id ((start o).run events).past).map Prod.fst).Sublist w.steps ∧
      ((∀ ev ∈ events, ev.Calm) →
        (∀ r, a.rest = .done r → ((start o).run events).Passed (.standard dispatch timeout) a id) ∧
          ∀ world, ∃ n b, (((start o).run events).run (turnsOf i n world)).actors[i]? = some b ∧
            b.operation = a.operation ∧
              (((start o).run events).run (turnsOf i n world)).Passed (.standard dispatch timeout) b id) := by
  have hmem := List.mem_of_getElem? hi
  refine ⟨?_, fun hc => ⟨fun r hrest => passed_of_done ho hc hi hrest he hr hw hf hmax, fun world => ?_⟩⟩
  · have ha := (account_run ho events).2
    rw [(ha.driver ⟨a.rest, hi⟩ hr).2]
    rcases Engine.sublist_of_allowed (coursed_run o events a hmem _ he).allowed id with hnone | ⟨w', hw', hsub⟩
    · rw [hnone]
      exact List.nil_sublist _
    · cases hw.symm.trans hw'
      exact hsub hf
  · -- Let nobody but the driver take turns until it has come back.
    obtain ⟨n, r, more, hn⟩ := exists_done hi world
    refine ⟨n, _, hn, rfl, ?_⟩
    rw [← run_append] at hn ⊢
    exact passed_of_done ho (calm_append_turnsOf hc i n world) hn rfl he (Log.runId?_calls_append hr more)
      (Log.definition?_calls_append hw more) hf hmax

end Chronicle

/-- A definition with a condition that leads over its second step to the last one. -/
def Workflow.leaping : Workflow :=
  ⟨"w", "u", "Leaping", none, .manual, [], true,
    [⟨"if", "If", .condition ⟨some "go == true", some "last", none⟩⟩, ⟨"over", "Over", .transform ⟨none⟩⟩,
      ⟨"last", "Last", .transform ⟨none⟩⟩], by decide⟩

/-- The definition is saved, and carried out to its end. -/
def Chronicle.leapt : Chronicle :=
  (start .vacant).run (.call (.save .leaping) :: .call (.execute .sample "w" [("go", .bool true)]) ::
    turns 0 1 ++ turns 1 9)

/-- The second step of the definition is passed over. -/
theorem Chronicle.passed_run_leaping :
    (Log.invocations "run-1" leapt.past).map (fun p => p.1.id) = ["if", "last"] ∧
      ((Log.invocations "run-1" leapt.past).map Prod.fst).Sublist Workflow.leaping.steps ∧
        ∃ a, leapt.actors[1]? = some a ∧ leapt.Passed (.standard .simulated 30) a "run-1" := by
  have hop : leapt.actors[1]?.map Actor.operation = some (.execute .sample "w" [("go", .bool true)]) := rfl
  have hr : (leapt.actors[1]?.bind fun a => a.log.calls.runId?) = some "run-1" := rfl
  have hw : (leapt.actors[1]?.bind fun a => a.log.calls.definition?) = some .leaping := rfl
  have hdone : ∃ r, leapt.actors[1]?.map Actor.rest = some (.done r) := ⟨_, rfl⟩
  obtain ⟨a, hi, hop⟩ := Option.map_eq_some_iff.mp hop
  obtain ⟨r, hdone⟩ := hdone
  rw [hi] at hr hw hdone
  have he : a.operation.engine? = some ⟨.standard .simulated 30, 10⟩ := congrArg Operation.engine? hop
  have hc : ∀ ev ∈ Event.call (.save .leaping) :: .call (.execute .sample "w" [("go", .bool true)]) ::
      turns 0 1 ++ turns 1 9, ev.Calm := by
    simp [turns, List.replicate, Event.Calm]
  obtain ⟨honce, hcalm⟩ := passed_run (o := .vacant) rfl _ hi he hr hw (by decide) (by decide)
  exact ⟨rfl, honce, a, hi, (hcalm hc).1 r (Option.some.inj hdone)⟩

end Conductor
