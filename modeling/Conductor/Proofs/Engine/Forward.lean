import Conductor.Proofs.Engine.Visits

/-! Workflows that only branch forward. The way of a run through such a workflow meets each step at most
once, in the order of the steps, so that no guard stops it that allows for as many executions. -/

namespace Conductor

/-- The ids that a step may name to be gone to. -/
def Action.targets : Action → List String
  | .condition c => c.onTrue.toList ++ c.onFalse.toList
  | _ => []

/-- Each target that names a step names one behind the step that it is a target of. -/
def Workflow.Forward (w : Workflow) : Prop :=
  ∀ (i : Nat) (hi : i < w.steps.length), ∀ target ∈ w.steps[i].action.targets, ∀ j ∈ w.indexOf? target, i < j

instance (w : Workflow) : Decidable w.Forward :=
  inferInstanceAs (Decidable (∀ (i : Nat) (hi : i < w.steps.length), ∀ target ∈ w.steps[i].action.targets,
    ∀ j ∈ w.indexOf? target, i < j))

/-- A step leads to one of its targets, or on to the next step. -/
def Action.Leads (a : Action) (next : Option String) : Prop := ∀ target ∈ next, target ∈ a.targets

namespace Action

/-- A performer comes to an outcome that leads where its step may lead, or to a fault. -/
def LeadsOn (a : Action) : Except Fault Outcome → Prop
  | .ok outcome => a.Leads outcome.next
  | .error _ => True

variable {a : Action} {log : Log Outside.Answer}

theorem leads_none (a : Action) : a.Leads none := by
  intro target ht
  cases ht

theorem leadsOn_map {α : Type} {f : α → Outcome} (h : ∀ x, a.Leads (f x).next) (r : Except Fault α) :
    a.LeadsOn (r.map f) := by
  cases r with
  | error f => trivial
  | ok x => exact h x

theorem leads_condition (c : Branch) (context : Table Json) :
    (c.perform context).KeepsTo (fun _ _ => True) (fun _ r => (condition c).LeadsOn r) log := by
  unfold Branch.perform
  split
  · exact leads_none _
  · refine leadsOn_map (fun holds => ?_) _
    intro target ht
    cases holds with
    | true => exact List.mem_append_left _ (Option.mem_toList.mpr ht)
    | false => exact List.mem_append_right _ (Option.mem_toList.mpr ht)

theorem leads_agentCall (dispatch : Dispatcher) (c : AgentCall) (context : Table Json) :
    (c.perform dispatch context).KeepsTo (fun _ _ => True) (fun _ r => a.LeadsOn r) log := by
  unfold AgentCall.perform
  split
  · exact leads_none _
  · split
    · trivial
    · apply Program.KeepsTo.map
      refine Program.keepsTo_of_forall (fun _ _ => trivial) (fun _ r => ?_) _ _
      split
      · exact leads_none _
      · exact leads_none _
      · trivial

theorem leads_delay (c : Delay) :
    c.perform.KeepsTo (fun _ _ => True) (fun _ r => a.LeadsOn r) log := by
  unfold Delay.perform
  split
  · trivial
  · refine ⟨trivial, fun r => ?_⟩
    match r with
    | .ok () => exact leads_none _
    | .error f => trivial

theorem leadsOn_judge (r : Response) : a.LeadsOn (Webhook.judge r) := by
  refine leadsOn_map (fun v => ?_) _
  split
  · exact leads_none _
  · exact leads_none _

theorem leads_webhook (timeout : Float) (c : Webhook) (context : Table Json) :
    (c.perform timeout context).KeepsTo (fun _ _ => True) (fun _ r => a.LeadsOn r) log := by
  unfold Webhook.perform
  split
  · exact leads_none _
  · split
    · trivial
    · trivial
    · refine ⟨trivial, fun r => ?_⟩
      beta_reduce
      split
      · next response => exact leadsOn_judge response
      · next kind message =>
        change a.LeadsOn (if kind.isHttp then _ else _)
        split
        · exact leads_none _
        · trivial
      · trivial

theorem perform_leads (dispatch : Dispatcher) (timeout : Float) (a : Action) (context : Table Json) :
    (a.perform dispatch timeout context).KeepsTo (fun _ _ => True) (fun _ r => a.LeadsOn r) log := by
  cases a with
  | agentCall c => exact leads_agentCall dispatch c context
  | condition c => exact leads_condition c context
  | transform c => exact leadsOn_map (fun _ => leads_none _) _
  | delay c => exact leads_delay c
  | webhook c => exact leads_webhook timeout c context
  | setContext c => exact leadsOn_map (fun _ => leads_none _) _

end Action

namespace Registry

theorem find?_standard (dispatch : Dispatcher) (timeout : Float) (kind : StepKind) :
    (standard dispatch timeout).find? kind = some (Action.perform dispatch timeout) := by
  cases kind <;> rfl

/-- Whatever the world answers, a step leads to where its kind of step may lead. -/
theorem execute_leads (dispatch : Dispatcher) (timeout : Float) (step : Step) (context : Table Json)
    (log : Log Outside.Answer) : ((standard dispatch timeout).execute step context).KeepsTo (fun _ _ => True)
      (fun _ r => step.action.Leads r.next) log := by
  unfold execute
  rw [find?_standard]
  apply Program.KeepsTo.map
  refine (Action.perform_leads dispatch timeout step.action context).mono fun _ r h => ?_
  cases r with
  | ok outcome => exact h
  | error f => exact Action.leads_none _

end Registry

namespace Workflow

variable {w : Workflow} {initial context : Table Json} {visits : List Visit} {index : Nat}

theorem eq_some_of_given? {next : Option String} {id : String} (h : given? next = some id) :
    next = some id := by
  unfold given? at h
  split at h
  · cases h
  · exact h

/-- From a step the way leads on to a place behind it. -/
theorem Forward.lt_place (hf : w.Forward) {step : Step} (hs : w.steps[index]? = some step)
    {next : Option String} (hn : step.action.Leads next) : index < w.place index next := by
  unfold place
  cases hg : given? next with
  | none => exact Nat.lt_succ_self index
  | some target =>
    obtain ⟨hlt, rfl⟩ := List.getElem?_eq_some_iff.mp hs
    change index < (w.indexOf? target).getD (index + 1)
    cases hj : w.indexOf? target with
    | none => exact Nat.lt_succ_self index
    | some j => exact hf index hlt target (hn target (eq_some_of_given? hg)) j hj

theorem take_append_of_getElem? {step : Step} (hs : w.steps[index]? = some step) :
    w.steps.take index ++ [step] = w.steps.take (index + 1) := by
  rw [List.take_add_one, hs, Option.toList_some]

/-- On a way forward no step is met twice. -/
theorem Way.sublist (h : w.Way initial visits index context) (hf : w.Forward)
    (hv : ∀ v ∈ visits, v.step.action.Leads v.outcome.next) :
    (visits.map Visit.step).Sublist (w.steps.take index) := by
  -- on the way: the steps so far stand before the place that it has come to, and that place moves on
  induction h with
  | start => exact List.Sublist.refl _
  | @step visits index context step outcome h hs hr ih =>
    have hbefore := ih fun v hm => hv v (List.mem_append_left _ hm)
    have hlt : index < w.place index outcome.next := hf.lt_place hs (hv ⟨step, context, outcome⟩ (by simp))
    rw [List.map_append]
    calc
      (visits.map Visit.step ++ [step]).Sublist (w.steps.take index ++ [step]) :=
        hbefore.append (List.Sublist.refl _)
      _ = w.steps.take (index + 1) := take_append_of_getElem? hs
      List.Sublist _ (w.steps.take (w.place index outcome.next)) := (List.take_prefix_take_left hlt).sublist

/-- No more steps were executed than stand before the place that the way has come to. -/
theorem Way.length_le (h : w.Way initial visits index context) (hf : w.Forward)
    (hv : ∀ v ∈ visits, v.step.action.Leads v.outcome.next) : visits.length ≤ index := by
  calc
    visits.length = (visits.map Visit.step).length := (List.length_map Visit.step).symm
    _ ≤ (w.steps.take index).length := (h.sublist hf hv).length_le
    _ ≤ index := List.length_take_le _ _

end Workflow

/-- How a run ends all of whose steps were these visits. -/
inductive Visit.Concludes (visits : List Visit) : Option String → Prop
  | completed (hs : ∀ v ∈ visits, v.outcome.success = true) : Concludes visits none
  | failed {v : Visit} (hlast : visits.getLast? = some v) (hf : v.outcome.success = false) :
      Concludes visits (some (Workflow.failure v.outcome))

namespace Engine

variable {e : Engine} {w : Workflow} {id : String} {initial context : Table Json} {log : Log Act.Answer}
variable {visits : List Visit} {index : Nat} {begins : Table Json → Prop} {error : Option String} {now : Time}
variable {dispatch : Dispatcher} {timeout : Float} {max : Int}

theorem Along.leads (h : Along ⟨.standard dispatch timeout, max⟩ w id initial log visits) :
    ∀ v ∈ visits, v.step.action.Leads v.outcome.next :=
  (h.visited.good fun step context => Registry.execute_leads dispatch timeout step context []).behind

/-- The steps begun for a run are steps of its definition, in their order and each at most once. -/
theorem sublist_of_allowed (h : log.Allowed (records ⟨.standard dispatch timeout, max⟩ begins)) (id : String) :
    Log.invocations id log = [] ∨ ∃ w, Log.definition? log.calls = some w ∧
      (w.Forward → ((Log.invocations id log).map Prod.fst).Sublist w.steps) := by
  induction h with
  | nil => exact Or.inl rfl
  | @snoc log a r _ ha ih =>
    -- An act that begins no step of this run changes nothing.
    have hsame : ∀ x : (a : Act) × a.Answer, Log.invocations id [x] = [] →
        Log.invocations id (log ++ [x]) = [] ∨ ∃ w, Log.definition? (log ++ [x]).calls = some w ∧
          (w.Forward → ((Log.invocations id (log ++ [x])).map Prod.fst).Sublist w.steps) := by
      intro x hnone
      rw [Log.invocations_append, hnone, List.append_nil]
      refine ih.imp_right ?_
      rintro ⟨w, hw, hsub⟩
      exact ⟨w, Log.definition?_calls_append hw _, hsub⟩
    cases a with
    | call q => exact hsame _ rfl
    | invoke id' step context =>
      by_cases hid : id' = id
      · -- The step that begins stands behind all that have begun before.
        subst hid
        obtain ⟨_, w, initial, visits, index, halong, hway, hs⟩ := ha
        have hone : Log.invocations id' [⟨.invoke id' step context, r⟩] = [(step, context)] :=
          Log.about_singleton rfl
        refine Or.inr ⟨w, Log.definition?_calls_append halong.definition _, fun hf => ?_⟩
        rw [Log.invocations_append, halong.begun, hone, List.map_append, List.map_map]
        calc
          (visits.map Visit.step ++ [step]).Sublist (w.steps.take index ++ [step]) :=
            (hway.sublist hf halong.leads).append (List.Sublist.refl _)
          _ = w.steps.take (index + 1) := Workflow.take_append_of_getElem? hs
          List.Sublist _ w.steps := List.take_sublist _ _
      · refine hsame _ (Log.about_singleton_eq_nil fun p hp => hid ?_)
        cases hp
        rfl

/-- Where the guard allows for each step once, it does not stop a way forward. -/
theorem Along.concludes (h : Along ⟨.standard dispatch timeout, max⟩ w id initial log visits)
    (hw : Writes ⟨.standard dispatch timeout, max⟩ w initial log visits (.final index context error now))
    (hf : w.Forward) (hmax : (w.steps.length : Int) ≤ max) :
    Visit.Concludes visits error ∨
      (Log.Trusted log.calls → ∃ id, ⟨.store (.getRun id), .ok none⟩ ∈ log.calls) := by
  -- The kinds of ends are told apart by their errors.
  generalize hc : Change.final index context error now = c at hw
  have herror := congrArg Change.error hc
  cases hw with
  | checkpoint way => cases herror
  | completed way hend =>
    obtain rfl := Option.some.inj herror
    exact Or.inl (.completed way.success)
  | guarded way hstep hguard =>
    -- The way has come to a step, and it was no longer than the steps before that one.
    have hle := way.length_le hf h.leads
    have hguard : max ≤ visits.length := hguard
    omega
  | @failed before _ context' _ step outcome way hstep hvisits hfail =>
    obtain rfl := Option.some.inj herror
    have hlast : visits.getLast? = some ⟨step, context', outcome⟩ := by
      rw [hvisits, List.getLast?_concat]
    exact Or.inl (.failed hlast hfail)
  | troubled way htrouble => exact Or.inr htrouble

/-- After the end of the run no step begins. -/
theorem invocations_of_concludes {before after : Log Act.Answer} {x : (a : Act) × a.Answer}
    (h : log.Allowed (e.records begins)) (hlog : log = before ++ x :: after) (hx : x.1.concludes = true)
    (id : String) : Log.invocations id after = [] := by
  refine Log.about_eq_nil fun y hy u hu => ?_
  obtain ⟨first, rest, rfl⟩ := List.append_of_mem hy
  -- When a step begins nothing has concluded its run.
  rw [Log.invoked?_eq_some (p := u.2) hu, List.append_cons, ← List.append_assoc] at hlog
  obtain ⟨_, _, _, _, _, halong, _⟩ := (h.split hlog).2
  have hend := halong.unended x (by simp)
  rw [hx] at hend
  cases hend

end Engine

end Conductor
