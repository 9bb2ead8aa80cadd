import Conductor.Proofs.Store.Filed
import Conductor.Proofs.System.Outcome

/-! What a call aims at. A run is one of the definition that its call has found under the id it was called
for, and a call that has found a definition to carry out does not come back without a run. -/

namespace Conductor

/-- What is asked on the way through the steps: about one run, and of the world. -/
def Call.AlongTheWay : Call → Prop
  | .store (.updateRun _ _ _) | .store (.getRun _) | .store .now | .outside _ => True
  | _ => False

namespace Engine

variable {log : Log Call.Answer}

theorem ofOutside_alongTheWay {α : Type} (p : Program Outside.Answer α) :
    (Work.ofOutside p).KeepsTo (fun _ q => q.AlongTheWay) (fun _ _ => True) log :=
  Program.keepsTo_embed (fun _ _ _ => trivial) (fun _ _ _ _ => trivial) trivial p

theorem drive_alongTheWay (e : Engine) (w : Workflow) (runId : String) (left index : Nat)
    (context : Table Json) :
    (e.drive w runId left index context).KeepsTo (fun _ q => q.AlongTheWay) (fun _ _ => True) log := by
  induction left generalizing index context log with
  | zero =>
    unfold drive
    split <;> trivial
  | succ left ih =>
    unfold drive
    split
    · trivial
    · refine ⟨trivial, fun r => ?_⟩
      match r with
      | .error f => trivial
      | .ok false =>
        refine ⟨trivial, fun r => ?_⟩
        match r with
        | .error f | .ok none | .ok (some run) => trivial
      | .ok true =>
        refine (ofOutside_alongTheWay _).bind fun log r _ => ?_
        by_cases hr : r.success
        · rw [if_pos hr]
          exact ih _ _
        · rw [if_neg hr]
          trivial

theorem Concluding.alongTheWay {run : Run} {q : Call} (h : Concluding run q) : q.AlongTheWay := by
  match q with
  | .store (.updateRun _ _ _) | .store (.getRun _) | .store .now => trivial

end Engine

namespace Operation

/-- The workflow that is to be carried out. -/
def workflowId? : Operation → Option String
  | .execute _ id _ | .trigger _ id _ _ _ => some id
  | _ => none

/-- A definition that is found is carried out; by a trigger only where it is enabled. -/
def accepts : Operation → Workflow → Bool
  | .execute _ _ _, _ => true
  | .trigger _ _ _ _ _, w => w.enabled
  | _, _ => false

/-- A call looks first for the definition it is called for, and makes a run of the one that it has found. -/
def Aims (op : Operation) (log : Log Call.Answer) : Call → Prop
  | .store (.getWorkflow id) => op.workflowId? = some id ∧ log = []
  | .store (.createRun id _) => ∃ w, log.definition? = some w ∧ op.accepts w ∧ w.id = id
  | .store (.listRuns _) => op.workflowId? = none
  | _ => True

/-- A call that has found a definition to carry out has made a run. Saving does not fail. -/
def Attains (op : Operation) (log : Log Call.Answer) (r : Reply) : Prop :=
  (∀ w, log.definition? = some w → op.accepts w → log.runId? ≠ none) ∧ ∀ w, op = .save w → r = .saved

variable {op : Operation} {log : Log Call.Answer} {w : Workflow}

theorem drives_of_workflowId? {id : String} (h : op.workflowId? = some id) : op.Drives := by
  cases op with
  | execute e id context => trivial
  | trigger e id context kind triggeredBy => trivial
  | _ => cases h

theorem Aims.of_alongTheWay {q : Call} (h : q.AlongTheWay) : op.Aims log q := by
  match q with
  | .store (.updateRun _ _ _) | .store (.getRun _) | .store .now | .outside _ => trivial

theorem run_aims (e : Engine) (context : Table Json) (hd : log.definition? = some w)
    (ha : op.accepts w) (hr : log.runId? = none) :
    (e.run w context).KeepsTo op.Aims (fun log _ => log.runId? ≠ none) log := by
  refine ⟨⟨w, hd, ha, rfl⟩, fun run => ?_⟩
  -- Once the run is made only the way through the steps is left.
  have hmade : Log.runId? (log ++ [⟨.store (.createRun w.id context), run⟩]) = some run.id :=
    Log.runId?_snoc_of_eq_none hr
  have hway : (e.drive w run.id e.maxExecutions.toNat 0 context).bind (Engine.conclude run)
      |>.KeepsTo op.Aims (fun _ _ => True) (log ++ [⟨.store (.createRun w.id context), run⟩]) := by
    refine Program.KeepsTo.mono_allows ?_ fun _ _ h => Aims.of_alongTheWay h
    exact (e.drive_alongTheWay w run.id _ 0 context).bind fun log ending _ =>
      (Engine.keepsTo_conclude run ending log).mono_allows fun _ _ h => h.alongTheWay
  refine hway.extends.mono fun log' _ h => ?_
  obtain ⟨more, rfl⟩ := h.2
  rw [Log.runId?_append hmade]
  exact Option.some_ne_none _

theorem withWorkflow_aims {f : Workflow → Work (Except Fault Run)} {id : String}
    (hid : op.workflowId? = some id)
    (hf : ∀ w log, log.definition? = some w → log.runId? = none →
      (f w).KeepsTo op.Aims (fun log _ => ∀ w, log.definition? = some w → op.accepts w →
        log.runId? ≠ none) log) :
    (Engine.withWorkflow id f).KeepsTo op.Aims (fun log _ => ∀ w, log.definition? = some w →
      op.accepts w → log.runId? ≠ none) [] := by
  refine ⟨⟨hid, rfl⟩, fun r => ?_⟩
  match r with
  | .error f => exact fun w hw => nomatch hw
  | .ok none => exact fun w hw => nomatch hw
  | .ok (some w) => exact hf w _ rfl rfl

theorem attains_of_workflowId?_eq_none {r : Reply} (h : op.workflowId? = none)
    (hs : ∀ w, op = .save w → r = .saved) : op.Attains log r := by
  refine ⟨fun w _ ha => ?_, hs⟩
  cases op with
  | execute e id context => cases h
  | trigger e id context kind triggeredBy => cases h
  | _ => cases ha

theorem attains_of_workflowId?_eq_some {id : String} {r : Reply} (h : op.workflowId? = some id)
    (hr : ∀ w, log.definition? = some w → op.accepts w → log.runId? ≠ none) : op.Attains log r := by
  refine ⟨hr, ?_⟩
  rintro w rfl
  cases h

theorem work_aims (op : Operation) : op.work.KeepsTo op.Aims op.Attains [] := by
  cases op with
  | execute e id context =>
    refine Program.KeepsTo.map (Program.KeepsTo.mono ?_ fun _ _ h =>
      attains_of_workflowId?_eq_some rfl h)
    refine withWorkflow_aims rfl fun w log hd hr => ?_
    exact (run_aims e context hd rfl hr).mono fun _ _ h _ _ _ => h
  | trigger e id context kind triggeredBy =>
    refine Program.KeepsTo.map (Program.KeepsTo.mono ?_ fun _ _ h =>
      attains_of_workflowId?_eq_some rfl h)
    refine withWorkflow_aims rfl fun w log hd hr => ?_
    by_cases he : w.enabled
    · rw [if_pos he]
      refine ⟨trivial, fun now => ?_⟩
      have ha : (Operation.trigger e id context kind triggeredBy).accepts w := he
      refine (run_aims e _ (Log.definition?_append hd) ha ?_).mono fun _ _ h _ _ _ => h
      unfold Log.runId? at *
      rw [List.findSome?_append, hr]
      rfl
    · -- A definition that is not enabled is not accepted.
      rw [if_neg he]
      rintro w' hw' ha
      obtain rfl := Option.some.inj (hd.symm.trans hw')
      exact absurd ha he
  | cancel id =>
    have hend : ∀ {log r}, (Operation.cancel id).Attains log r :=
      attains_of_workflowId?_eq_none rfl fun _ hw => nomatch hw
    refine ⟨trivial, fun r => ?_⟩
    match r with
    | .error f | .ok none => exact hend
    | .ok (some run) => exact ⟨trivial, fun now => ⟨trivial, fun r => hend⟩⟩
  | get id =>
    refine ⟨trivial, fun r => ?_⟩
    match r with
    | .error _ | .ok none | .ok (some _) =>
      exact attains_of_workflowId?_eq_none rfl fun _ hw => nomatch hw
  | list id => exact ⟨rfl, fun _ => attains_of_workflowId?_eq_none rfl fun _ hw => nomatch hw⟩
  | stats id => exact ⟨rfl, fun _ => attains_of_workflowId?_eq_none rfl fun _ hw => nomatch hw⟩
  | save w => exact ⟨trivial, fun _ => attains_of_workflowId?_eq_none rfl fun _ _ => rfl⟩

end Operation

/-- A call has found what it was called for, and what it has made is a run of that. -/
structure Task.Aimed (t : Task) : Prop where
  found : ∀ w, t.log.definition? = some w → t.operation.workflowId? = some w.id
  made : ∀ workflowId context run, ⟨.store (.createRun workflowId context), run⟩ ∈ t.log →
    t.operation.workflowId? = some workflowId ∧ ∃ w, t.log.definition? = some w ∧ t.operation.accepts w
  attains : ∀ r, t.rest = .done r → t.operation.Attains t.log r

/-- What is left of a task keeps to a rule, as did all that it has asked. -/
def Task.Keeps (allows : Operation → Log Call.Answer → Call → Prop)
    (ends : Operation → Log Call.Answer → Reply → Prop) (t : Task) : Prop :=
  t.rest.KeepsTo (allows t.operation) (ends t.operation) t.log ∧ t.log.Allowed (allows t.operation)

theorem Log.exists_getWorkflow {log : Log Call.Answer} {w : Workflow} (h : log.definition? = some w) :
    ∃ id, ⟨.store (.getWorkflow id), .ok (some w)⟩ ∈ log := by
  obtain ⟨x, hx, h⟩ := List.exists_of_findSome?_eq_some h
  split at h
  · next id found =>
    obtain rfl := Option.some.inj h
    exact ⟨id, hx⟩
  · cases h

/-- What is found of a definition is what is filed under the id. -/
theorem Office.Gives.filed {o o' : Office} {calm : Prop} {id : String} {w : Workflow}
    (hg : o.Gives calm (.store (.getWorkflow id)) (.ok (some w)) o') (hf : o.store.Filed) : w.id = id := by
  generalize hr : (Except.ok (some w) : Except Fault (Option Workflow)) = r at hg
  cases hg with
  | store c => exact hf id w hr.symm
  | trouble h ha =>
    obtain rfl := Option.some.inj ha
    cases hr

namespace System

variable {allows : Operation → Log Call.Answer → Call → Prop}
variable {ends : Operation → Log Call.Answer → Reply → Prop}

/-- What the work of every call keeps to, every task keeps to on its way. -/
theorem Moves.keeps {calm : Prop} {s s' : System} (hm : s.Moves calm s')
    (h : ∀ op : Operation, op.work.KeepsTo (allows op) (ends op) [])
    (hs : ∀ t ∈ s.tasks, t.Keeps allows ends) : ∀ t ∈ s'.tasks, t.Keeps allows ends := by
  cases hm with
  | stay => exact hs
  | tick now => exact hs
  | call op =>
    intro t ht
    rcases List.mem_append.mp ht with ht | ht
    · exact hs t ht
    · obtain rfl := List.mem_singleton.mp ht
      exact ⟨h op, .nil⟩
  | @exchange i op q next log r office ht hg =>
    intro t hmem
    rcases List.mem_or_eq_of_mem_set hmem with hmem | rfl
    · exact hs t hmem
    · obtain ⟨hrest, hlog⟩ := hs _ (List.mem_of_getElem? ht)
      exact ⟨hrest.2 r, .snoc r hlog hrest.1⟩

theorem keeps_run (h : ∀ op : Operation, op.work.KeepsTo (allows op) (ends op) []) (o : Office)
    (events : List Event) : ∀ t ∈ ((start o).run events).tasks, t.Keeps allows ends := by
  refine System.run_induction (s := start o) False (P := fun s => ∀ t ∈ s.tasks, t.Keeps allows ends)
    events False.elim (fun _ ht => nomatch ht) fun s s' hm hs => ?_
  exact hm.keeps h hs

/-- Every answer in a log was given by some office. -/
theorem exists_gives (o : Office) (events : List Event) : ∀ t ∈ ((start o).run events).tasks,
    ∀ x ∈ t.log, ∃ o o' : Office, o.Gives False x.1 x.2 o' := by
  refine System.run_induction (s := start o) False (P := fun s => ∀ t ∈ s.tasks, ∀ x ∈ t.log,
    ∃ o o' : Office, o.Gives False x.1 x.2 o') events False.elim (fun _ ht => nomatch ht) fun s s' hm hs => ?_
  cases hm with
  | stay => exact hs
  | tick now => exact hs
  | call op =>
    intro t ht x hx
    rcases List.mem_append.mp ht with ht | ht
    · exact hs t ht x hx
    · obtain rfl := List.mem_singleton.mp ht
      cases hx
  | @exchange i op q next log r office ht hg =>
    intro t hmem x hx
    rcases List.mem_or_eq_of_mem_set hmem with hmem | rfl
    · exact hs t hmem x hx
    rcases List.mem_append.mp hx with hx | hx
    · exact hs _ (List.mem_of_getElem? ht) x hx
    · obtain rfl := List.mem_singleton.mp hx
      exact ⟨s.office, office, hg⟩

/-- Definitions are filed under their own ids, and found under them. -/
theorem filed_run {o : Office} (hf : o.store.Filed) (events : List Event) :
    ((start o).run events).office.store.Filed ∧ ∀ t ∈ ((start o).run events).tasks, ∀ id w,
      ⟨.store (.getWorkflow id), .ok (some w)⟩ ∈ t.log → w.id = id := by
  refine System.run_induction (s := start o) False (P := fun s => s.office.store.Filed ∧
    ∀ t ∈ s.tasks, ∀ id w, ⟨.store (.getWorkflow id), .ok (some w)⟩ ∈ t.log → w.id = id) events
    False.elim ⟨hf, fun _ ht => nomatch ht⟩ ?_
  rintro s s' hm ⟨hfiled, hs⟩
  cases hm with
  | stay => exact ⟨hfiled, hs⟩
  | tick now => exact ⟨hfiled, hs⟩
  | call op =>
    refine ⟨hfiled, fun t ht id w hw => ?_⟩
    rcases List.mem_append.mp ht with ht | ht
    · exact hs t ht id w hw
    · obtain rfl := List.mem_singleton.mp ht
      cases hw
  | @exchange i op q next log r office ht hg =>
    refine ⟨?_, fun t hmem id w hw => ?_⟩
    · cases hg with
      | store c => exact hfiled.answer c
      | outside q r => exact hfiled
      | trouble h hr => exact hfiled
    rcases List.mem_or_eq_of_mem_set hmem with hmem | rfl
    · exact hs t hmem id w hw
    rcases List.mem_append.mp hw with hw | hw
    · exact hs _ (List.mem_of_getElem? ht) id w hw
    · obtain ⟨rfl, hr⟩ := Sigma.mk.inj (List.mem_singleton.mp hw)
      obtain rfl := eq_of_heq hr
      exact hg.filed hfiled

theorem aimed_run {o : Office} (hf : o.store.Filed) (events : List Event) :
    ∀ t ∈ ((start o).run events).tasks, t.Aimed := by
  intro t ht
  obtain ⟨hrest, hlog⟩ := keeps_run Operation.work_aims o events t ht
  have hfound : ∀ w, t.log.definition? = some w → t.operation.workflowId? = some w.id := by
    intro w hw
    obtain ⟨id, hm⟩ := Log.exists_getWorkflow hw
    obtain ⟨before, _, ha⟩ := hlog.exists_before hm
    obtain rfl := (filed_run hf events).2 t ht id w hm
    exact ha.1
  refine ⟨hfound, fun workflowId context run hm => ?_, fun r hr => ?_⟩
  · obtain ⟨before, ⟨more, hmore⟩, w, hw, ha, rfl⟩ := hlog.exists_before hm
    have hw : t.log.definition? = some w := hmore ▸ Log.definition?_append hw
    exact ⟨hfound w hw, w, hw, ha⟩
  · rw [hr] at hrest
    exact hrest

end System

end Conductor
