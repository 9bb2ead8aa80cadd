import Conductor.Proofs.Engine.Visits
import Conductor.Proofs.System.Chronicle

/-! The course of a call that carries out a workflow: at all times its log tells of visits, and what it
writes of its run, and when it begins a step, goes by them. -/

namespace Conductor

namespace Operation

/-- The engine that carries out a workflow. -/
def engine? : Operation → Option Engine
  | .execute e _ _ | .trigger e _ _ _ _ => some e
  | _ => none

/-- The context that a run is to begin with; a run that was triggered finds a note of this in it. -/
inductive Begins : Operation → Table Json → Prop
  | execute {e : Engine} {workflowId : String} {context : Table Json} :
      Begins (.execute e workflowId context) context
  | trigger {e : Engine} {workflowId kind : String} {context : Table Json} {triggeredBy : Option String}
      (now : Time) : Begins (.trigger e workflowId context kind triggeredBy)
        (Table.put context Engine.triggerKey (Engine.triggerNote kind triggeredBy now))

/-- What a call writes of its run, and when a step of it begins. -/
def Records (op : Operation) (log : Log Act.Answer) (a : Act) : Prop :=
  ∀ e, op.engine? = some e → e.records op.Begins log a

/-- What the log of a call tells of when the call comes back. -/
def Visits (op : Operation) (log : Log Act.Answer) (r : Reply) : Prop :=
  ∀ e, op.engine? = some e → e.Visits log r

theorem announced_records (op : Operation) : op.announced.KeepsTo op.Records op.Visits [] := by
  have hkeep : ∀ {e : Engine} {p : Announced (Except Fault Run)}, op.engine? = some e →
      p.KeepsTo (e.records op.Begins) e.Visits [] → (p.map Reply.run).KeepsTo op.Records op.Visits [] := by
    intro e p he hp
    apply Program.KeepsTo.map
    refine (hp.mono fun log r h e' he' => ?_).mono_allows fun log a h e' he' => ?_
    · cases he.symm.trans he'
      exact h
    · cases he.symm.trans he'
      exact h
  cases op with
  | execute e id context => exact hkeep rfl (Engine.executeAnnounced_records id .execute)
  | trigger e id context kind triggeredBy =>
    exact hkeep rfl (Engine.triggerAnnounced_records id kind triggeredBy fun now => .trigger now)
  | _ => exact Program.keepsTo_of_forall (fun _ _ _ he => nomatch he) (fun _ _ _ he => nomatch he) _ _

theorem exists_engine {op : Operation} (h : op.Drives) : ∃ e, op.engine? = some e := by
  cases op with
  | execute e id context => exact ⟨e, rfl⟩
  | trigger e id context kind triggeredBy => exact ⟨e, rfl⟩
  | _ => exact h.elim

end Operation

/-- What is left of a call keeps to a rule, as did all that it has done. -/
def Actor.Keeps (allows : Operation → Log Act.Answer → Act → Prop)
    (ends : Operation → Log Act.Answer → Reply → Prop) (a : Actor) : Prop :=
  a.rest.KeepsTo (allows a.operation) (ends a.operation) a.log ∧ a.log.Allowed (allows a.operation)

namespace Chronicle

variable {allows : Operation → Log Act.Answer → Act → Prop}
variable {ends : Operation → Log Act.Answer → Reply → Prop}

theorem Moves.keeps {calm : Prop} {c c' : Chronicle} (hm : c.Moves calm c')
    (h : ∀ op : Operation, op.announced.KeepsTo (allows op) (ends op) [])
    (hc : ∀ a ∈ c.actors, a.Keeps allows ends) : ∀ a ∈ c'.actors, a.Keeps allows ends := by
  cases hm with
  | stay => exact hc
  | tick now => exact hc
  | call op =>
    intro a ha
    rcases List.mem_append.mp ha with ha | ha
    · exact hc a ha
    · obtain rfl := List.mem_singleton.mp ha
      exact ⟨h op, .nil⟩
  | @act i op act next log r office ht hp =>
    intro a hmem
    rcases List.mem_or_eq_of_mem_set hmem with hmem | rfl
    · exact hc a hmem
    · obtain ⟨hrest, hlog⟩ := hc _ (List.mem_of_getElem? ht)
      exact ⟨hrest.2 r, .snoc r hlog hrest.1⟩

/-- What the announced work of every call keeps to, every call keeps to on its way. -/
theorem keeps_run (h : ∀ op : Operation, op.announced.KeepsTo (allows op) (ends op) []) (o : Office)
    (events : List Event) : ∀ a ∈ ((start o).run events).actors, a.Keeps allows ends := by
  refine Chronicle.run_induction (c := start o) False (P := fun c => ∀ a ∈ c.actors, a.Keeps allows ends)
    events False.elim (fun _ ha => nomatch ha) fun c c' hm hc => ?_
  exact hm.keeps h hc

end Chronicle

/-- The call goes by its visits: so it has done, and its log tells of visits now. -/
structure Actor.Coursed (a : Actor) (e : Engine) : Prop where
  allowed : a.log.Allowed (e.records a.operation.Begins)
  visits : ∃ p, Log.Visited e.registry a.log p

theorem Chronicle.coursed_run (o : Office) (events : List Event) :
    ∀ a ∈ ((start o).run events).actors, ∀ e, a.operation.engine? = some e → a.Coursed e := by
  intro a ha e he
  obtain ⟨hrest, hlog⟩ := keeps_run Operation.announced_records o events a ha
  refine ⟨hlog.mono fun log q h => h e he, ?_⟩
  -- The log is either that of a call that has come back, or what it does next goes by it.
  obtain ⟨op, rest, log⟩ := a
  cases rest with
  | done r => exact hrest e he
  | ask q next => exact (hrest.1 e he).1

end Conductor
