import Conductor.Proofs.System.Answers
import Conductor.Proofs.System.Chronicle

/-! What one step adds to a chronicle: nothing, or a turn of one call, with what the turn does to the stored
runs. -/

namespace Conductor

namespace Office

variable {o o' : Office}

/-- What an act does to the runs that are stored. -/
inductive Did (o : Office) (x : (a : Act) × a.Answer) (o' : Office) : Prop
  | began (id : String) (context : Table Json) (run : Run) (hx : Log.created? x = some (id, context))
    (hc : Log.change? x = none) (hn : id ∉ o.store.ids) (hi : o'.store.ids = o.store.ids ++ [id])
    (hs : run.status = .running) (he : run.error = none)
    (hp : (run.currentStep, run.context) = (0, context))
    (hr : ∀ other, o'.store.record? other = if id = other then some run else o.store.record? other)
  | changed (id : String) (c : Change) (run : Run) (hx : Log.change? x = some (id, c))
    (hn : Log.created? x = none) (hi : o'.store.ids = o.store.ids)
    (hold : o.store.record? id = some run) (hs : run.status = .running)
    (hr : ∀ other, o'.store.record? other =
      if id = other then some (o.store.settle (run.apply c)) else o.store.record? other)
  | kept (hx : Log.change? x = none) (hn : Log.created? x = none) (hi : o'.store.ids = o.store.ids)
    (hr : ∀ other, o'.store.record? other = o.store.record? other)

theorem Served.did {q : Call} {r : q.Answer} (h : o.Served ⟨q, r⟩ o') : o.Did ⟨.call q, r⟩ o' := by
  cases h with
  | made workflowId context run hx hn hi hrun hr =>
    cases hx
    refine .began run.id context run rfl rfl hn hi ?_ ?_ ?_ hr
    · rw [hrun, Store.settle_status]
      rfl
    · rw [hrun, Store.settle_error]
      rfl
    · rw [hrun, Store.settle_currentStep, Store.settle_context]
      rfl
  | changed runId c run hx hi hold hs hr =>
    cases hx
    exact .changed runId c run rfl rfl hi hold hs hr
  | kept hx hu hi hr =>
    refine .kept ?_ ?_ hi hr
    · cases hc : Log.change? ⟨.call q, r⟩ with
      | none => rfl
      | some u =>
        obtain ⟨expected, he⟩ := Log.change?_eq_some (c := u.2) hc
        cases he
        exact absurd rfl (hu u.1 u.2 expected)
    · cases hc : Log.created? ⟨.call q, r⟩ with
      | none => rfl
      | some u =>
        obtain ⟨id, context⟩ := u
        obtain ⟨workflowId, run, he, _⟩ := Log.created?_eq_some hc
        cases he
        exact absurd rfl (hx workflowId context run)

theorem Did.record?_of_none {x : (a : Act) × a.Answer} (h : o.Did x o') (hx : Log.change? x = none)
    (hn : Log.created? x = none) (id : String) : o'.store.record? id = o.store.record? id := by
  cases h with
  | began _ _ _ hx' => cases hn.symm.trans hx'
  | changed _ _ _ hx' => cases hx.symm.trans hx'
  | kept _ _ _ hr => exact hr id

end Office

namespace Chronicle

/-- Call number `i` carries out `op` and has done `log`. -/
def At (c : Chronicle) (i : Nat) (op : Operation) (log : Log Act.Answer) : Prop :=
  ∃ rest, c.actors[i]? = some ⟨op, rest, log⟩

/-- The system without announcements is orderly, each run has a driver, and every call is lawful. -/
structure Orderly (c : Chronicle) : Prop where
  system : c.system.Orderly
  driven : c.system.Driven
  actors : ∀ a ∈ c.actors, a.Lawful

/-- Nothing was done, and at most a new call was made. -/
structure Still (c c' : Chronicle) : Prop where
  store : c'.office.store = c.office.store
  past : c'.past = c.past
  at_or : ∀ {i op log}, c'.At i op log → c.At i op log ∨ log = []

/-- Call number `i` did something; all other calls are as before. -/
structure Turn (c : Chronicle) (i : Nat) (op : Operation) (log : Log Act.Answer)
    (x : (a : Act) × a.Answer) (c' : Chronicle) : Prop where
  asking : c.At i op log
  announced : Engine.announces log x.1
  allowed : ∀ q r, x = ⟨.call q, r⟩ → op.Allows log.calls q
  at_or : ∀ {j op' log'}, c'.At j op' log' →
    (j ≠ i ∧ c.At j op' log') ∨ (j = i ∧ op' = op ∧ log' = log ++ [x])
  past : c'.past = c.past ++ [x]
  did : c.office.Did x c'.office
  ended : ∀ {id run}, c.office.store.record? id = some run → run.status.isTerminal →
    c'.office.store.record? id = some run

variable {calm : Prop} {c c' : Chronicle} {i j : Nat} {op op' : Operation} {log log' : Log Act.Answer}
variable {x : (a : Act) × a.Answer} {id : String} {run : Run}

theorem At.system (h : c.At i op log) : c.system.At i op log.calls := by
  obtain ⟨rest, h⟩ := h
  exact ⟨rest.silent, getElem?_system h⟩

theorem exists_at_of_system {calls : Log Call.Answer} (h : c.system.At i op calls) :
    ∃ log, c.At i op log ∧ log.calls = calls := by
  obtain ⟨rest, h⟩ := h
  rw [Chronicle.system, List.getElem?_map] at h
  obtain ⟨⟨op, rest, log⟩, ha, ht⟩ := Option.map_eq_some_iff.mp h
  cases ht
  exact ⟨log, ⟨rest, ha⟩, rfl⟩

theorem Orderly.allowed_log (h : c.Orderly) (ha : c.At i op log) : log.Allowed Engine.announces := by
  obtain ⟨rest, ha⟩ := ha
  exact (h.actors _ (List.mem_of_getElem? ha)).log

theorem Orderly.getRun_eq (h : c.Orderly) (id : String) :
    c.office.store.getRun id = .ok (c.office.store.record? id) :=
  h.system.office.store.getRun_eq id

theorem still_call (c : Chronicle) (op : Operation) :
    c.Still { c with actors := c.actors ++ [.start op] } := by
  refine ⟨rfl, rfl, ?_⟩
  rintro i op' log ⟨rest, h⟩
  rw [List.getElem?_append] at h
  split at h
  · exact Or.inl ⟨rest, h⟩
  · cases List.mem_singleton.mp (List.mem_of_getElem? h)
    exact Or.inr rfl

theorem at_or_of_set {rest : Announced Reply} {office : Office} {past new : Log Act.Answer}
    (h : At ⟨office, c.actors.set i ⟨op, rest, new⟩, past⟩ j op' log') :
    (j ≠ i ∧ c.At j op' log') ∨ (j = i ∧ op' = op ∧ log' = new) := by
  obtain ⟨rest', h⟩ := h
  by_cases hj : j = i
  · subst hj
    rw [List.getElem?_set_self'] at h
    obtain ⟨_, _, he⟩ := Option.map_eq_some_iff.mp h
    cases he
    exact Or.inr ⟨rfl, rfl, rfl⟩
  · rw [List.getElem?_set_ne (Ne.symm hj)] at h
    exact Or.inl ⟨hj, rest', h⟩

/-- An orderly chronicle stays so, and what a step adds to it is nothing or a turn. -/
theorem Orderly.moves (h : c.Orderly) (hm : c.Moves calm c') :
    c'.Orderly ∧ (c.Still c' ∨ ∃ i op log x, c.Turn i op log x c') := by
  obtain ⟨hsystem, hor⟩ := h.system.moves hm.system
  have hdriven : c'.system.Driven := by
    rcases hor with hq | ⟨_, _, _, _, hx⟩
    · exact hq.driven h.driven
    · exact hx.driven h.driven
  have hended : ∀ {id run}, c.office.store.record? id = some run → run.status.isTerminal →
      c'.office.store.record? id = some run := by
    intro id run hr ht
    rcases hor with hq | ⟨_, _, _, _, hx⟩
    · exact hq.store ▸ hr
    · exact hx.served.record?_of_isTerminal h.system.office hr ht
  cases hm with
  | stay => exact ⟨h, Or.inl ⟨rfl, rfl, Or.inl⟩⟩
  | tick now => exact ⟨⟨hsystem, hdriven, h.actors⟩, Or.inl ⟨rfl, rfl, Or.inl⟩⟩
  | call op =>
    refine ⟨⟨hsystem, hdriven, fun a ha => ?_⟩, Or.inl (still_call c op)⟩
    rcases List.mem_append.mp ha with ha | ha
    · exact h.actors a ha
    · obtain rfl := List.mem_singleton.mp ha
      exact Actor.lawful_start op
  | @act i op a next log r office ht hp =>
    have hl := h.actors _ (List.mem_of_getElem? ht)
    have hannounced : Engine.announces log a := hl.rest.1
    refine ⟨⟨hsystem, hdriven, fun b hb => ?_⟩, Or.inr ⟨i, op, log, ⟨a, r⟩, ?_⟩⟩
    · rcases List.mem_or_eq_of_mem_set hb with hb | rfl
      · exact h.actors b hb
      · exact ⟨hl.rest.2 r, .snoc r hl.log hannounced⟩
    · -- The task behind the call asks the same, so that its own rule admits it.
      have hallowed : ∀ q r', (⟨a, r⟩ : (a : Act) × a.Answer) = ⟨.call q, r'⟩ →
          op.Allows log.calls q := by
        intro q r' he
        cases he
        have hmem : Actor.task ⟨op, .ask (.call q) next, log⟩ ∈ c.system.tasks :=
          List.mem_map_of_mem (List.mem_of_getElem? ht)
        exact (h.system.tasks _ hmem).rest.1
      refine ⟨⟨_, ht⟩, hannounced, hallowed, at_or_of_set, rfl, ?_, hended⟩
      cases hp with
      | call hg =>
        exact (hg.served h.system.office (hallowed _ _ rfl).proper).2.did
      | invoke id step context => exact .kept rfl rfl rfl fun _ => rfl

theorem orderly_start {o : Office} (ho : o.store.ids = []) : (start o).Orderly :=
  ⟨System.orderly_start (Office.sound_of_ids_nil ho), System.driven_start ho, fun _ ha => nomatch ha⟩

/-- What holds at the start, and is kept where nothing is done and by turns, holds after every run. -/
theorem Orderly.run_induction {P : Chronicle → Prop} (h : c.Orderly) (events : List Event) (hs : P c)
    (hq : ∀ c c' : Chronicle, c.Still c' → P c → P c')
    (hx : ∀ (c c' : Chronicle) i op log x, c.Orderly → c'.Orderly → c.Turn i op log x c' → P c → P c') :
    (c.run events).Orderly ∧ P (c.run events) := by
  refine Chronicle.run_induction False (P := fun c => c.Orderly ∧ P c) events False.elim ⟨h, hs⟩ ?_
  rintro c c' hm ⟨h, hs⟩
  obtain ⟨h', hstill | ⟨i, op, log, x, hturn⟩⟩ := h.moves hm
  · exact ⟨h', hq c c' hstill hs⟩
  · exact ⟨h', hx c c' i op log x h h' hturn hs⟩

namespace Turn

variable {p : Int × Table Json}

theorem about_past {α : Type} (ht : c.Turn i op log x c')
    (f : (a : Act) × a.Answer → Option (String × α)) (id : String) :
    Log.about f id c'.past = Log.about f id c.past ++ Log.about f id [x] := by
  rw [ht.past, Log.about_append]

theorem runId?_of_checkpoint? (ht : c.Turn i op log x c') (h : Log.checkpoint? x = some (id, p)) :
    log.calls.runId? = some id := by
  obtain ⟨ch, hc, hp⟩ := Log.checkpoint?_eq_some h
  obtain ⟨expected, rfl⟩ := Log.change?_eq_some hc
  exact ht.announced.2 (by rw [hp]; rfl)

theorem runId?_of_invoked? {handed : Step × Table Json} (ht : c.Turn i op log x c')
    (h : Log.invoked? x = some (id, handed)) : log.calls.runId? = some id := by
  obtain rfl := Log.invoked?_eq_some h
  exact ht.announced.2.1

/-- Updates are those of the driver and cancellations. -/
theorem change (ht : c.Turn i op log x c') {ch : Change} (h : Log.change? x = some (id, ch)) :
    (log.calls.runId? = some id ∧ ∃ n, ch.Driven n) ∨ ∃ now, ch = .cancel now ∧
      x = Log.cancellation id now := by
  obtain ⟨expected, rfl⟩ := Log.change?_eq_some h
  obtain ⟨rfl, ⟨hr, w, _, hd⟩ | ⟨_, ⟨now, rfl⟩, _⟩⟩ := (ht.allowed _ _ rfl).updateRun
  · exact Or.inl ⟨hr, _, hd⟩
  · exact Or.inr ⟨now, rfl, rfl⟩

/-- Nothing is done for a run but by its driver. -/
theorem nothing_of_ne (ht : c.Turn i op log x c') (ho : c.Orderly) (h : c.At j op' log') (hne : j ≠ i)
    (hr : log'.calls.runId? = some id) : Log.checkpoints id [x] = [] ∧ Log.invocations id [x] = [] := by
  have hother : log.calls.runId? ≠ some id := fun hr' =>
    hne (ho.driven.unique h.system ht.asking.system hr hr')
  constructor
  · exact Log.about_singleton_eq_nil fun p hp => hother (ht.runId?_of_checkpoint? hp)
  · exact Log.about_singleton_eq_nil fun p hp => hother (ht.runId?_of_invoked? hp)

end Turn

end Chronicle

end Conductor
