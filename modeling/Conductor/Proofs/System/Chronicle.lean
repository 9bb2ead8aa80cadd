import Conductor.Proofs.Engine.Checkpoint
import Conductor.Proofs.System.Drivers

/-! Calls at work that announce their steps, and a chronicle of all that they do, in order. Without the
announcements and the chronicle they are the calls of a system. -/

namespace Conductor

namespace Operation

open Announced

/-- The work of a call with its steps announced. -/
def announced : Operation → Announced Reply
  | .execute e id context => (e.executeAnnounced id context).map .run
  | .trigger e id context kind triggeredBy =>
    (e.triggerAnnounced id context kind triggeredBy).map .run
  | op => ofWork op.work

theorem silent_announced (op : Operation) : silent op.announced = op.work := by
  cases op with
  | execute e id context =>
    unfold announced work Engine.executeAnnounced Engine.execute
    rw [silent_map, Engine.silent_withAnnounced]
    simp only [Engine.silent_runAnnounced]
  | trigger e id context kind triggeredBy =>
    unfold announced work Engine.triggerAnnounced Engine.trigger
    rw [silent_map, Engine.silent_withAnnounced]
    refine congrArg (Program.map _) (congrArg (Engine.withWorkflow id) (funext fun w => ?_))
    by_cases he : w.enabled
    · rw [if_pos he, if_pos he]
      exact congrArg (Program.ask _) (funext fun now => Engine.silent_runAnnounced e w _)
    · rw [if_neg he, if_neg he]
      rfl
  | _ => exact silent_ofWork _

theorem announced_keepsTo (op : Operation) : op.announced.KeepsTo Engine.announces Engine.Clear [] := by
  -- Only the calls that carry out a workflow announce steps.
  cases op with
  | execute e id context =>
    apply Program.KeepsTo.map
    exact Engine.withAnnounced_keepsTo id fun w log hd hr hw =>
      Engine.runAnnounced_keepsTo e _ hd hr hw
  | trigger e id context kind triggeredBy =>
    apply Program.KeepsTo.map
    refine Engine.withAnnounced_keepsTo id fun w log hd hr hw => ?_
    by_cases he : w.enabled
    · rw [if_pos he]
      refine ⟨hd, fun now => Engine.runAnnounced_keepsTo e _ (Log.due?_snoc _ _) ?_ ?_⟩
      · unfold Log.runId? at hr ⊢
        rw [Log.calls_append, List.findSome?_append, hr]
        rfl
      · exact Log.definition?_calls_append hw _
    · rw [if_neg he]
      exact hd
  | cancel id =>
    refine Engine.keepsTo_ofWork [] ⟨trivial, fun r => ?_⟩ rfl
    match r with
    | .error _ | .ok none => trivial
    | .ok (some run) => exact ⟨trivial, fun now => ⟨rfl, fun _ => trivial⟩⟩
  | get id =>
    refine Engine.keepsTo_ofWork [] ⟨trivial, fun r => ?_⟩ rfl
    match r with
    | .error _ | .ok none | .ok (some _) => trivial
  | list id | stats id | save w =>
    exact Engine.keepsTo_ofWork [] ⟨trivial, fun _ => trivial⟩ rfl

end Operation

/-- A call on its way that announces its steps. -/
structure Actor where
  operation : Operation
  rest : Announced Reply
  log : Log Act.Answer

/-- Calls at work over one store, with all that they did, the oldest first. -/
structure Chronicle where
  office : Office
  actors : List Actor
  past : Log Act.Answer

namespace Actor

def start (op : Operation) : Actor := ⟨op, op.announced, []⟩

/-- The same call without announcements. -/
def task (a : Actor) : Task := ⟨a.operation, a.rest.silent, a.log.calls⟩

/-- What is left to do keeps to the rule for steps and checkpoints, as did all that was done. -/
structure Lawful (a : Actor) : Prop where
  rest : a.rest.KeepsTo Engine.announces Engine.Clear a.log
  log : a.log.Allowed Engine.announces

theorem task_start (op : Operation) : (start op).task = .start op := by
  rw [task, start, Operation.silent_announced]
  rfl

theorem lawful_start (op : Operation) : (start op).Lawful := ⟨op.announced_keepsTo, .nil⟩

end Actor

namespace Chronicle

def start (o : Office) : Chronicle := ⟨o, [], []⟩

/-- The same calls without announcements. -/
def system (c : Chronicle) : System := ⟨c.office, c.actors.map Actor.task⟩

/-- Lets one call do what it does next, if there is an answer to it. -/
def serve (c : Chronicle) (i : Nat) (give : (a : Act) → Option (a.Answer × Office)) : Chronicle :=
  match c.actors[i]? with
  | some ⟨op, .ask a next, log⟩ =>
    match give a with
    | some (r, office) =>
      ⟨office, c.actors.set i ⟨op, next r, log ++ [⟨a, r⟩]⟩, c.past ++ [⟨a, r⟩]⟩
    | none => c
  | _ => c

/-- The answers of an office and of the world. That a step begins needs none. -/
def answer? (world : World) (o : Office) : (a : Act) → Option (a.Answer × Office)
  | .call (.store q) => some (o.answer q)
  | .call (.outside x) => some (world x, o)
  | .invoke _ _ _ => some ((), o)

/-- The answers of an office to store calls that fail. -/
def fail? (f : Fault) (o : Office) : (a : Act) → Option (a.Answer × Office)
  | .call (.store q) => (q.failed? f).map fun r => (r, o)
  | .call (.outside _) => none
  | .invoke _ _ _ => none

def step (c : Chronicle) : Event → Chronicle
  | .call op => { c with actors := c.actors ++ [.start op] }
  | .proceed i world => c.serve i (answer? world c.office)
  | .trouble i f => c.serve i (fail? f c.office)
  | .tick now => { c with office := { c.office with clock := now } }

def run (c : Chronicle) (events : List Event) : Chronicle := events.foldl step c

/-- What a call does next is answered as in a system. That a step begins concerns nobody. -/
inductive Performs (calm : Prop) (o : Office) : (a : Act) → a.Answer → Office → Prop
  | call {q : Call} {r : q.Answer} {o' : Office} (h : o.Gives calm q r o') :
    Performs calm o (.call q) r o'
  | invoke (id : String) (step : Step) (context : Table Json) :
    Performs calm o (.invoke id step context) () o

inductive Moves (calm : Prop) (c : Chronicle) : Chronicle → Prop
  | stay : Moves calm c c
  | call (op : Operation) : Moves calm c { c with actors := c.actors ++ [.start op] }
  | tick (now : Time) : Moves calm c { c with office := { c.office with clock := now } }
  | act {i : Nat} {op : Operation} {a : Act} {next : a.Answer → Announced Reply}
      {log : Log Act.Answer} {r : a.Answer} {office : Office}
      (ht : c.actors[i]? = some ⟨op, .ask a next, log⟩) (hp : Performs calm c.office a r office) :
      Moves calm c
        ⟨office, c.actors.set i ⟨op, next r, log ++ [⟨a, r⟩]⟩, c.past ++ [⟨a, r⟩]⟩

variable {calm : Prop} {c c' : Chronicle}

theorem serve_of_ask {i : Nat} {op : Operation} {a : Act} {next : a.Answer → Announced Reply}
    {log : Log Act.Answer} (h : c.actors[i]? = some ⟨op, .ask a next, log⟩)
    {give : (a : Act) → Option (a.Answer × Office)} {r : a.Answer} {office : Office}
    (hg : give a = some (r, office)) : c.serve i give =
      ⟨office, c.actors.set i ⟨op, next r, log ++ [⟨a, r⟩]⟩, c.past ++ [⟨a, r⟩]⟩ := by
  simp only [serve, h, hg]

theorem moves_serve {i : Nat} {give : (a : Act) → Option (a.Answer × Office)}
    (h : ∀ a r, give a = some r → Performs calm c.office a r.1 r.2) : c.Moves calm (c.serve i give) := by
  unfold serve
  split
  · next op a next log ht =>
    split
    · next r office hr => exact .act ht (h a _ hr)
    · exact .stay
  · exact .stay

theorem moves_step (ev : Event) (hc : calm → ev.Calm) : c.Moves calm (c.step ev) := by
  cases ev with
  | call op => exact .call op
  | tick now => exact .tick now
  | proceed i world =>
    refine moves_serve fun a r hr => ?_
    match a with
    | .call (.store q) =>
      obtain rfl := Option.some.inj hr
      exact .call (.store q)
    | .call (.outside o) =>
      obtain rfl := Option.some.inj hr
      exact .call (.outside o (world o))
    | .invoke id step context =>
      obtain rfl := Option.some.inj hr
      exact .invoke id step context
  | trouble i f =>
    refine moves_serve fun a r hr => ?_
    match a with
    | .call (.store q) =>
      obtain ⟨r, ha, rfl⟩ := Option.map_eq_some_iff.mp hr
      exact .call (.trouble hc ha)
    | .call (.outside o) | .invoke id step context => cases hr

/-- What every step keeps holds after every run. -/
theorem run_induction (calm : Prop) {P : Chronicle → Prop} (events : List Event)
    (hc : calm → ∀ ev ∈ events, ev.Calm)
    (h : P c) (hs : ∀ c c' : Chronicle, c.Moves calm c' → P c → P c') : P (c.run events) := by
  induction events generalizing c with
  | nil => exact h
  | cons ev events ih =>
    have hm := moves_step (c := c) ev fun k => hc k ev List.mem_cons_self
    exact ih (fun k e he => hc k e (List.mem_cons_of_mem _ he)) (hs c _ hm h)

/-! ### The same without announcements -/

section Silent

variable {i : Nat} {op : Operation} {log : Log Act.Answer}

theorem getElem?_system {rest : Announced Reply} (h : c.actors[i]? = some ⟨op, rest, log⟩) :
    c.system.tasks[i]? = some ⟨op, rest.silent, log.calls⟩ := by
  rw [system, List.getElem?_map, h]
  rfl

/-- The system does not see that a step begins. -/
theorem system_invoke {id : String} {step : Step} {context : Table Json} {next : Unit → Announced Reply}
    (h : c.actors[i]? = some ⟨op, .ask (.invoke id step context) next, log⟩) (past : Log Act.Answer) :
    system ⟨c.office, c.actors.set i ⟨op, next (), log ++ [⟨.invoke id step context, ()⟩]⟩, past⟩ =
      c.system := by
  have hsame : Actor.task ⟨op, next (), log ++ [⟨.invoke id step context, ()⟩]⟩ =
      ⟨op, (next ()).silent, log.calls⟩ := by
    rw [Actor.task, Log.calls_append]
    exact congrArg (Task.mk op _) (List.append_nil _)
  obtain ⟨hi, hget⟩ := List.getElem?_eq_some_iff.mp (getElem?_system h)
  have hset : c.system.tasks.set i ⟨op, (next ()).silent, log.calls⟩ = c.system.tasks :=
    (congrArg (c.system.tasks.set i) hget.symm).trans (List.set_getElem_self hi)
  unfold system at hset ⊢
  rw [List.map_set, hsame, hset]

theorem system_call {q : Call} {next : q.Answer → Announced Reply} (r : q.Answer) (office : Office)
    (past : Log Act.Answer) :
    system ⟨office, c.actors.set i ⟨op, next r, log ++ [⟨.call q, r⟩]⟩, past⟩ =
      ⟨office, c.system.tasks.set i ⟨op, (next r).silent, log.calls ++ [⟨q, r⟩]⟩⟩ := by
  have hnew : Actor.task ⟨op, next r, log ++ [⟨.call q, r⟩]⟩ =
      ⟨op, (next r).silent, log.calls ++ [⟨q, r⟩]⟩ := by
    rw [Actor.task, Log.calls_append]
    rfl
  unfold system
  rw [List.map_set, hnew]

theorem system_start (c : Chronicle) (op : Operation) :
    system { c with actors := c.actors ++ [.start op] } =
      { c.system with tasks := c.system.tasks ++ [.start op] } := by
  unfold system
  rw [List.map_append, List.map_singleton, Actor.task_start]

/-- What is done with announcements is done by the system without them. -/
theorem Moves.system (hm : c.Moves calm c') : c.system.Moves calm c'.system := by
  cases hm with
  | stay => exact .stay
  | tick now => exact .tick now
  | call op =>
    rw [system_start]
    exact .call op
  | @act i op a next log r office ht hp =>
    cases hp with
    | call hg =>
      rw [system_call]
      exact .exchange (getElem?_system ht) hg
    | invoke id step context =>
      rw [system_invoke ht]
      exact .stay

/-- A call that is about to begin a step can begin it unseen. -/
theorem exists_run_begun {rest : Announced Reply} (h : c.actors[i]? = some ⟨op, rest, log⟩) :
    ∃ events rest' log', (c.run events).system = c.system ∧
      (c.run events).actors[i]? = some ⟨op, rest', log'⟩ ∧
        ∀ id step context next, rest' ≠ .ask (.invoke id step context) next := by
  induction rest generalizing c log with
  | done r => exact ⟨[], _, _, rfl, h, fun _ _ _ _ he => nomatch he⟩
  | ask a next ih =>
    cases a with
    | call q => exact ⟨[], _, _, rfl, h, fun _ _ _ _ he => nomatch he⟩
    | invoke id step context =>
      have hstep : c.step (.proceed i .still) = _ := serve_of_ask h rfl
      have hnext : (c.step (.proceed i .still)).actors[i]? =
          some ⟨op, next (), log ++ [⟨.invoke id step context, ()⟩]⟩ := by
        rw [hstep]
        exact List.getElem?_set_self (List.getElem?_eq_some_iff.mp h).1
      obtain ⟨events, rest', log', hs, hrest⟩ := ih () hnext
      refine ⟨.proceed i .still :: events, rest', log', hs.trans ?_, hrest⟩
      rw [hstep]
      exact system_invoke h _

/-- Where no step is about to begin, a call is served as in the system. -/
theorem system_serve {rest : Announced Reply} (h : c.actors[i]? = some ⟨op, rest, log⟩)
    (hrest : ∀ id step context next, rest ≠ .ask (.invoke id step context) next)
    (give : (a : Act) → Option (a.Answer × Office)) :
    (c.serve i give).system = c.system.serve i fun q => give (.call q) := by
  have htask := getElem?_system h
  match rest with
  | .done r =>
    rw [serve, h, System.serve, htask]
    rfl
  | .ask (.invoke id step context) next => exact absurd rfl (hrest id step context next)
  | .ask (.call q) next =>
    rw [System.serve, htask, Option.bind_some]
    cases hg : give (.call q) with
    | none => simp [serve, h, hg, Task.answered?, Announced.silent]
    | some r =>
      rw [serve_of_ask h hg, system_call]
      simp [hg, Task.answered?, Announced.silent]

theorem exists_run_serve (c : Chronicle) (i : Nat) (ev : Event)
    (give : Office → (a : Act) → Option (a.Answer × Office))
    (hev : ∀ c : Chronicle, c.step ev = c.serve i (give c.office)) :
    ∃ events, (c.run events).system = c.system.serve i fun q => give c.office (.call q) := by
  cases h : c.actors[i]? with
  | none =>
    have hnone : c.system.tasks[i]? = none := by
      rw [system, List.getElem?_map, h]
      rfl
    refine ⟨[], ?_⟩
    rw [System.serve, hnone]
    rfl
  | some a =>
    obtain ⟨events, rest, log, hs, hi, hrest⟩ := exists_run_begun h
    have hoffice : (c.run events).office = c.office := congrArg System.office hs
    refine ⟨events ++ [ev], ?_⟩
    rw [run, List.foldl_append, List.foldl_cons, List.foldl_nil, ← run, hev, system_serve hi hrest, hs,
      hoffice]

/-- Every run of a system is one of a chronicle. -/
theorem exists_run_system (c : Chronicle) (events : List Event) :
    ∃ more, (c.run more).system = c.system.run events := by
  induction events generalizing c with
  | nil => exact ⟨[], rfl⟩
  | cons ev events ih =>
    have hstep : ∃ more, (c.run more).system = c.system.step ev := by
      cases ev with
      | call op => exact ⟨[.call op], system_start c op⟩
      | tick now => exact ⟨[.tick now], rfl⟩
      | proceed i world =>
        obtain ⟨more, hmore⟩ := exists_run_serve c i (.proceed i world) (answer? world) fun _ => rfl
        refine ⟨more, hmore.trans (congrArg (c.system.serve i) (funext fun q => ?_))⟩
        cases q <;> rfl
      | trouble i f =>
        obtain ⟨more, hmore⟩ := exists_run_serve c i (.trouble i f) (fail? f) fun _ => rfl
        refine ⟨more, hmore.trans (congrArg (c.system.serve i) (funext fun q => ?_))⟩
        cases q <;> rfl
    obtain ⟨first, hfirst⟩ := hstep
    obtain ⟨more, hmore⟩ := ih (c.run first)
    refine ⟨first ++ more, ?_⟩
    rw [run, List.foldl_append]
    exact hmore.trans (congrArg (fun s : System => s.run events) hfirst)

end Silent

end Chronicle

end Conductor
