import Conductor.Proofs.Engine.Acts
import Conductor.Proofs.Engine.Way

/-! What a log tells of the visits of a run, and what the engine writes of the run in their light: at a
checkpoint the place and the context that the visits have led to, at the end those and the reason. -/

namespace Conductor

/-- The act asks for a change of a run's status. -/
def Act.concludes : Act → Bool
  | .call (.store (.updateRun _ c _)) => c.status.isSome
  | _ => false

/-- The visits that are over, and the one under way: its step, the context that the step was handed, and
what is left of it. -/
abbrev Progress := List Visit × Option (Step × Table Json × Program Outside.Answer Outcome)

/-- A visit with this much left of its step goes on, or it is over. -/
def Progress.visiting (visits : List Visit) (step : Step) (context : Table Json) :
    Program Outside.Answer Outcome → Progress
  | .done outcome => (visits ++ [⟨step, context, outcome⟩], none)
  | .ask o next => (visits, some (step, context, .ask o next))

namespace Progress

/-- What an act makes of the visits. Each step is carried out by a performer from the registry, which is
answered what the world answers. -/
inductive Next (registry : Registry) : Progress → (a : Act) × a.Answer → Progress → Prop
  | store {visits : List Visit} (c : StoreCall) (r : c.Answer) :
      Next registry (visits, none) ⟨.call (.store c), r⟩ (visits, none)
  | invoke {visits : List Visit} (id : String) (step : Step) (context : Table Json) :
      Next registry (visits, none) ⟨.invoke id step context, ()⟩
        (.visiting visits step context (registry.execute step context))
  | outside {visits : List Visit} {step : Step} {context : Table Json} {o : Outside}
      {next : o.Answer → Program Outside.Answer Outcome} (r : o.Answer) :
      Next registry (visits, some (step, context, .ask o next)) ⟨.call (.outside o), r⟩
        (.visiting visits step context (next r))

/-- All outcomes are good, and what is left of the step under way can come to good ones only. -/
structure Good (fits : Step → Outcome → Prop) (p : Progress) : Prop where
  behind : ∀ v ∈ p.1, fits v.step v.outcome
  ahead : ∀ step context rest, p.2 = some (step, context, rest) →
    ∃ before, rest.KeepsTo (fun _ _ => True) (fun _ r => fits step r) before

variable {registry : Registry} {p q : Progress} {x : (a : Act) × a.Answer} {fits : Step → Outcome → Prop}

theorem good_visiting {visits : List Visit} {step : Step} {context : Table Json}
    {rest : Program Outside.Answer Outcome} {before : Log Outside.Answer}
    (hv : ∀ v ∈ visits, fits v.step v.outcome)
    (hrest : rest.KeepsTo (fun _ _ => True) (fun _ r => fits step r) before) :
    (visiting visits step context rest).Good fits := by
  cases rest with
  | done outcome =>
    refine ⟨?_, fun _ _ _ he => nomatch he⟩
    intro v hm
    rcases List.mem_append.mp hm with hm | hm
    · exact hv v hm
    · obtain rfl := List.mem_singleton.mp hm
      exact hrest
  | ask o next =>
    refine ⟨hv, ?_⟩
    rintro step' context' rest' ⟨⟩
    exact ⟨before, hrest⟩

theorem Next.good (h : p.Next registry x q) (hp : p.Good fits)
    (hg : ∀ step context, (registry.execute step context).KeepsTo (fun _ _ => True)
      (fun _ r => fits step r) []) : q.Good fits := by
  cases h with
  | store c r => exact hp
  | invoke id step context => exact good_visiting hp.behind (hg step context)
  | outside r =>
    -- Whatever the answer is, what is left of the step keeps to good outcomes.
    obtain ⟨before, hrest⟩ := hp.ahead _ _ _ rfl
    exact good_visiting hp.behind (hrest.2 r)

end Progress

namespace Log

/-- The visits that a log tells of. -/
inductive Visited (registry : Registry) : Log Act.Answer → Progress → Prop
  | nil : Visited registry [] ([], none)
  | snoc {log : Log Act.Answer} {p q : Progress} {x : (a : Act) × a.Answer} (h : Visited registry log p)
      (hx : p.Next registry x q) : Visited registry (log ++ [x]) q

variable {registry : Registry} {log : Log Act.Answer} {p : Progress}

/-- What every outcome of a step has that its performer may come to, every outcome of a visit has. -/
theorem Visited.good {fits : Step → Outcome → Prop} (h : Visited registry log p)
    (hg : ∀ step context, (registry.execute step context).KeepsTo (fun _ _ => True)
      (fun _ r => fits step r) []) : p.Good fits := by
  induction h with
  | nil => exact ⟨fun _ hv => (nomatch hv), fun _ _ _ he => nomatch he⟩
  | snoc h hx ih => exact hx.good ih hg

/-- The context that the run of a log begins with. -/
def initial? (log : Log Act.Answer) : Option (Table Json) := (log.findSome? created?).map Prod.snd

theorem runId?_calls (log : Log Act.Answer) : runId? log.calls = (log.findSome? created?).map Prod.fst := by
  induction log with
  | nil => rfl
  | cons x log ih =>
    obtain ⟨a, r⟩ := x
    match a with
    | .call (.store (.createRun _ _)) => rfl
    | .call (.store (.getWorkflow _)) | .call (.store (.saveWorkflow _)) | .call (.store (.getRun _))
    | .call (.store (.updateRun _ _ _)) | .call (.store (.listRuns _)) | .call (.store .now)
    | .call (.outside _) | .invoke _ _ _ => exact ih

variable {id : String} {initial : Table Json}

theorem runId?_of_created (h : log.findSome? created? = some (id, initial)) :
    runId? log.calls = some id := by
  rw [runId?_calls, h, Option.map_some]

theorem initial?_of_created (h : log.findSome? created? = some (id, initial)) :
    initial? log = some initial := by
  rw [initial?, h, Option.map_some]

end Log

namespace Engine

/-- A definition was found, and nothing was done yet. -/
structure Unbegun (e : Engine) (w : Workflow) (log : Log Act.Answer) : Prop where
  definition : Log.definition? log.calls = some w
  made : log.findSome? Log.created? = none
  visited : Log.Visited e.registry log ([], none)
  begun : ∀ id, Log.invocations id log = []
  unended : ∀ x ∈ log, x.1.concludes = false

/-- A run of a definition on its way, with no step under way. -/
structure Along (e : Engine) (w : Workflow) (id : String) (initial : Table Json) (log : Log Act.Answer)
    (visits : List Visit) : Prop where
  definition : Log.definition? log.calls = some w
  made : log.findSome? Log.created? = some (id, initial)
  visited : Log.Visited e.registry log (visits, none)
  begun : Log.invocations id log = visits.map fun v => (v.step, v.context)
  unended : ∀ x ∈ log, x.1.concludes = false

/-- What is written of a run in the light of its visits. -/
inductive Writes (e : Engine) (w : Workflow) (initial : Table Json) (log : Log Act.Answer)
    (visits : List Visit) : Change → Prop
  | checkpoint {index : Nat} {context : Table Json} (way : w.Way initial visits index context) :
      Writes e w initial log visits (.checkpoint index context)
  | completed {index : Nat} {context : Table Json} {now : Time}
      (way : w.Way initial visits index context) (hend : w.steps[index]? = none) :
      Writes e w initial log visits (.final index context none now)
  | guarded {index : Nat} {context : Table Json} {now : Time} (way : w.Way initial visits index context)
      (hstep : index < w.steps.length) (hguard : e.maxExecutions ≤ visits.length) :
      Writes e w initial log visits (.final index context (some e.guardMessage) now)
  | failed {before : List Visit} {index : Nat} {context : Table Json} {now : Time} {step : Step}
      {outcome : Outcome} (way : w.Way initial before index context) (hstep : w.steps[index]? = some step)
      (hvisits : visits = before ++ [⟨step, context, outcome⟩]) (hfail : outcome.success = false) :
      Writes e w initial log visits (.final index context (some (Workflow.failure outcome)) now)
  /-- The store did not make a checkpoint as it should. -/
  | troubled {index : Nat} {context : Table Json} {now : Time} {error : String}
      (way : w.Way initial visits index context)
      (htrouble : Log.Trusted log.calls → ∃ id, ⟨.store (.getRun id), .ok none⟩ ∈ log.calls) :
      Writes e w initial log visits (.final index context (some error) now)

/-- The log tells of visits at all times. What is written of the run is written in their light, and steps
begin on their way. -/
def records (e : Engine) (begins : Table Json → Prop) (log : Log Act.Answer) (a : Act) : Prop :=
  (∃ p, Log.Visited e.registry log p) ∧
    match a with
    | .call (.store (.createRun _ context)) => begins context
    | .call (.store (.updateRun id c _)) => ∃ w initial visits, e.Along w id initial log visits ∧
        e.Writes w initial log visits c
    | .invoke id step context => ∃ w initial visits index, e.Along w id initial log visits ∧
        w.Way initial visits index context ∧ w.steps[index]? = some step
    | _ => True

/-- The log tells of visits. -/
def Visits {α : Type} (e : Engine) (log : Log Act.Answer) (_ : α) : Prop :=
  ∃ p, Log.Visited e.registry log p

/-- How the way through the steps may end. -/
def Arrived (e : Engine) (w : Workflow) (id : String) (log : Log Act.Answer) : Ending → Prop
  | .overtaken _ => ∃ p, Log.Visited e.registry log p
  | .reached index context error => ∃ initial visits, e.Along w id initial log visits ∧
      ∀ now, e.Writes w initial log visits (.final index context error now)

variable {e : Engine} {w : Workflow} {id : String} {initial context : Table Json} {log : Log Act.Answer}
variable {visits : List Visit} {index : Nat} {c : Change} {begins : Table Json → Prop}

theorem unended_snoc {a : Act} {r : a.Answer} (h : ∀ x ∈ log, x.1.concludes = false)
    (ha : a.concludes = false) : ∀ x ∈ log ++ [(⟨a, r⟩ : (a : Act) × a.Answer)], x.1.concludes = false := by
  intro x hx
  rcases List.mem_append.mp hx with hx | hx
  · exact h x hx
  · obtain rfl := List.mem_singleton.mp hx
    exact ha

theorem Along.store (h : e.Along w id initial log visits) (c : StoreCall) (r : c.Answer)
    (hc : (Act.call (.store c)).concludes = false) :
    e.Along w id initial (log ++ [⟨.call (.store c), r⟩]) visits where
  definition := Log.definition?_calls_append h.definition _
  made := by rw [List.findSome?_append, h.made, Option.some_or]
  visited := .snoc h.visited (.store c r)
  begun := by
    have hnone : Log.invocations id [⟨.call (.store c), r⟩] = [] := rfl
    rw [Log.invocations_append, hnone, List.append_nil, h.begun]
  unended := unended_snoc h.unended hc

theorem Along.records_updateRun (h : e.Along w id initial log visits) (hw : e.Writes w initial log visits c)
    (expected : Option String) : e.records begins log (.call (.store (.updateRun id c expected))) :=
  ⟨⟨_, h.visited⟩, w, initial, visits, h, hw⟩

/-- What was true of the store stays so. -/
theorem Writes.append (h : e.Writes w initial log visits c) (more : Log Act.Answer) :
    e.Writes w initial (log ++ more) visits c := by
  cases h with
  | checkpoint way => exact .checkpoint way
  | completed way hend => exact .completed way hend
  | guarded way hstep hguard => exact .guarded way hstep hguard
  | failed way hstep hvisits hfail => exact .failed way hstep hvisits hfail
  | troubled way htrouble =>
    refine .troubled way fun ht => ?_
    rw [Log.calls_append] at ht ⊢
    obtain ⟨id, hm⟩ := htrouble ht.of_append
    exact ⟨id, List.mem_append_left _ hm⟩

theorem begins_of_made (h : log.Allowed (e.records begins))
    (hm : log.findSome? Log.created? = some (id, initial)) : begins initial := by
  obtain ⟨x, hx, hc⟩ := List.exists_of_findSome?_eq_some hm
  obtain ⟨workflowId, run, rfl, _⟩ := Log.created?_eq_some hc
  obtain ⟨before, _, ha⟩ := h.exists_before hx
  exact ha.2

/-- A step that has begun is a visit when it is over. -/
theorem keepsTo_visit {step : Step} (rest : Program Outside.Answer Outcome)
    (hdefinition : Log.definition? log.calls = some w)
    (hmade : log.findSome? Log.created? = some (id, initial))
    (hbegun : Log.invocations id log = (visits.map fun v => (v.step, v.context)) ++ [(step, context)])
    (hunended : ∀ x ∈ log, x.1.concludes = false)
    (hvisited : Log.Visited e.registry log (.visiting visits step context rest)) :
    (Announced.ofOutside rest).KeepsTo (e.records begins)
      (fun log r => e.Along w id initial log (visits ++ [⟨step, context, r⟩])) log := by
  -- by induction on what is left of the step
  induction rest generalizing log with
  | done r => exact ⟨hdefinition, hmade, hvisited, by simpa using hbegun, hunended⟩
  | ask o next ih =>
    refine ⟨⟨⟨_, hvisited⟩, trivial⟩, fun r => ?_⟩
    refine ih r (Log.definition?_calls_append hdefinition _) ?_ ?_ (unended_snoc hunended rfl)
      (.snoc hvisited (.outside r))
    · rw [List.findSome?_append, hmade, Option.some_or]
    · have hnone : Log.invocations id [⟨.call (.outside o), r⟩] = [] := rfl
      rw [Log.invocations_append, hnone, List.append_nil, hbegun]

theorem Along.keepsTo_step (h : e.Along w id initial log visits) (step : Step) (context : Table Json) :
    (Announced.ofOutside (e.registry.execute step context)).KeepsTo (e.records begins)
      (fun log r => e.Along w id initial log (visits ++ [⟨step, context, r⟩]))
      (log ++ [⟨.invoke id step context, ()⟩]) := by
  refine keepsTo_visit _ (Log.definition?_calls_append h.definition _) ?_ ?_ (unended_snoc h.unended rfl)
    (.snoc h.visited (.invoke id step context))
  · rw [List.findSome?_append, h.made, Option.some_or]
  · have hone : Log.invocations id [⟨.invoke id step context, ()⟩] = [(step, context)] :=
      Log.about_singleton rfl
    rw [Log.invocations_append, hone, h.begun]

/-- On the way through the steps each checkpoint and each end is written in the light of the visits. -/
theorem announce_records (left : Nat) {log : Log Act.Answer} {visits : List Visit} {index : Nat}
    {context : Table Json} (hleft : left = (e.maxExecutions - visits.length).toNat)
    (h : e.Along w id initial log visits) (hway : w.Way initial visits index context) :
    (e.announce w id left index context).KeepsTo (e.records begins) (e.Arrived w id) log := by
  -- The count of what is left and the number of visits add up to what the guard allows.
  induction left generalizing log visits index context with
  | zero =>
    unfold announce
    split
    · next hs => exact ⟨initial, visits, h, fun now => .completed hway hs⟩
    · next step hs =>
      have hlt : index < w.steps.length := (List.getElem?_eq_some_iff.mp hs).1
      exact ⟨initial, visits, h, fun now => .guarded hway hlt (by omega)⟩
  | succ left ih =>
    unfold announce
    split
    · next hs => exact ⟨initial, visits, h, fun now => .completed hway hs⟩
    next step hs =>
    refine ⟨h.records_updateRun (.checkpoint hway) _, fun r => ?_⟩
    have hstored := h.store (.updateRun id (.checkpoint index context) runningName) r rfl
    match r with
    | .error f =>
      refine ⟨initial, visits, hstored, fun now => .troubled hway fun ht => ?_⟩
      exact absurd Log.mem_calls_concat (ht.updates _ _ _ f)
    | .ok false =>
      refine ⟨⟨⟨_, hstored.visited⟩, trivial⟩, fun r => ?_⟩
      have hread := hstored.store (.getRun id) r rfl
      match r with
      | .error f =>
        refine ⟨initial, visits, hread, fun now => .troubled hway fun ht => ?_⟩
        exact absurd Log.mem_calls_concat (ht.reads _ f)
      | .ok none =>
        exact ⟨initial, visits, hread, fun now => .troubled hway fun _ => ⟨id, Log.mem_calls_concat⟩⟩
      | .ok (some run) => exact ⟨_, hread.visited⟩
    | .ok true =>
      refine ⟨⟨⟨_, hstored.visited⟩, w, initial, visits, index, hstored, hway, hs⟩, fun _ => ?_⟩
      refine (hstored.keepsTo_step step context).bind fun log r h => ?_
      by_cases hr : r.success
      · rw [if_pos hr, Workflow.nextIndex_positions]
        refine ih ?_ h (hway.step hs hr)
        rw [List.length_append, List.length_singleton]
        omega
      · rw [if_neg hr, Workflow.textOr_getD_error]
        exact ⟨initial, _, h, fun now => .failed hway hs rfl (Bool.eq_false_iff.mpr hr)⟩

theorem conclude_records {run : Run} {ending : Ending} (h : e.Arrived w run.id log ending) :
    (Announced.ofWork (conclude run ending)).KeepsTo (e.records begins) e.Visits log := by
  cases ending with
  | overtaken stored => exact h
  | reached index context error =>
    obtain ⟨initial, visits, h, hwrites⟩ := h
    refine ⟨⟨⟨_, h.visited⟩, trivial⟩, fun now => ?_⟩
    have hclock := h.store .now now rfl
    refine ⟨hclock.records_updateRun ((hwrites now).append _) _, fun r => ?_⟩
    have hwritten := hclock.visited.snoc
      (.store (.updateRun run.id (.final index context error now) runningName) r)
    match r with
    | .error f => exact ⟨_, hwritten⟩
    | .ok made =>
      refine ⟨⟨⟨_, hwritten⟩, trivial⟩, fun r => ?_⟩
      match r with
      | .error _ | .ok none | .ok (some _) => exact ⟨_, .snoc hwritten (.store _ _)⟩

theorem Unbegun.createRun (h : e.Unbegun w log) (workflowId : String) (context : Table Json) (run : Run) :
    e.Along w run.id context (log ++ [⟨.call (.store (.createRun workflowId context)), run⟩]) [] where
  definition := Log.definition?_calls_append h.definition _
  made := by
    rw [List.findSome?_append, h.made]
    rfl
  visited := .snoc h.visited (.store _ _)
  begun := by
    rw [Log.invocations_append, h.begun]
    rfl
  unended := unended_snoc h.unended rfl

theorem runAnnounced_records (hbegins : begins context) (h : e.Unbegun w log) :
    (e.runAnnounced w context).KeepsTo (e.records begins) e.Visits log := by
  refine ⟨⟨⟨_, h.visited⟩, hbegins⟩, fun run => ?_⟩
  have hleft : e.maxExecutions.toNat = (e.maxExecutions - ([] : List Visit).length).toNat := by
    rw [List.length_nil, Int.natCast_zero, Int.sub_zero]
  refine (announce_records _ hleft (h.createRun w.id context run) .start).bind ?_
  exact fun log ending h => conclude_records h

theorem withAnnounced_records {f : Workflow → Announced (Except Fault Run)} (id : String)
    (hf : ∀ w log, e.Unbegun w log → (f w).KeepsTo (e.records begins) e.Visits log) :
    (withAnnounced id f).KeepsTo (e.records begins) e.Visits [] := by
  refine ⟨⟨⟨_, .nil⟩, trivial⟩, fun r => ?_⟩
  match r with
  | .error _ | .ok none => exact ⟨_, .snoc .nil (.store _ _)⟩
  | .ok (some w) =>
    exact hf w _ ⟨rfl, rfl, .snoc .nil (.store _ _), fun _ => rfl, unended_snoc (fun _ hx => nomatch hx) rfl⟩

theorem executeAnnounced_records (workflowId : String) (hbegins : begins context) :
    (e.executeAnnounced workflowId context).KeepsTo (e.records begins) e.Visits [] :=
  withAnnounced_records workflowId fun _ _ h => runAnnounced_records hbegins h

theorem Unbegun.now (h : e.Unbegun w log) (now : Time) :
    e.Unbegun w (log ++ [⟨.call (.store .now), now⟩]) where
  definition := Log.definition?_calls_append h.definition _
  made := by
    rw [List.findSome?_append, h.made]
    rfl
  visited := .snoc h.visited (.store _ _)
  begun id := by
    rw [Log.invocations_append, h.begun]
    rfl
  unended := unended_snoc h.unended rfl

theorem triggerAnnounced_records (workflowId kind : String) (triggeredBy : Option String)
    (hbegins : ∀ now, begins (Table.put context triggerKey (triggerNote kind triggeredBy now))) :
    (e.triggerAnnounced workflowId context kind triggeredBy).KeepsTo (e.records begins) e.Visits [] := by
  refine withAnnounced_records workflowId fun w log h => ?_
  by_cases he : w.enabled
  · rw [if_pos he]
    exact ⟨⟨⟨_, h.visited⟩, trivial⟩, fun now => runAnnounced_records (hbegins now) (h.now now)⟩
  · rw [if_neg he]
    exact ⟨_, h.visited⟩

end Engine

end Conductor
