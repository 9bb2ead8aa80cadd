import Conductor.Proofs.System.Account
import Conductor.Proofs.System.Outcome

/-! What is stored of a run came from its driver. The end of a run is stored as its driver wrote it; before
that the context is that of the driver's last checkpoint, or the one that the driver began with. -/

namespace Conductor

namespace System

/-- A task has written the end of a run as it is stored. -/
structure Wrote (log : Log Call.Answer) (id : String) (run : Run) (index : Nat) (now : Time) : Prop where
  driver : log.runId? = some id
  update : ⟨.store (.updateRun id (.final index run.context run.error now) Engine.runningName), .ok true⟩ ∈ log
  place : run.currentStep = index
  status : run.status = if run.error.isSome then .failed else .completed

/-- Each run that has completed or failed is stored as its driver wrote it. -/
def Concluded (s : System) : Prop :=
  ∀ id run, s.office.store.record? id = some run → run.status = .completed ∨ run.status = .failed →
    ∃ i op log index now, s.At i op log ∧ Wrote log id run index now

variable {calm : Prop} {s s' : System} {i : Nat} {op : Operation} {log : Log Call.Answer}
variable {x : (q : Call) × q.Answer} {id : String} {run : Run} {index : Nat} {now : Time}

theorem Wrote.append (h : Wrote log id run index now) (more : Log Call.Answer) :
    Wrote (log ++ more) id run index now :=
  ⟨Log.runId?_append h.driver, List.mem_append_left _ h.update, h.place, h.status⟩

theorem wrote_settle (h : log.runId? = some id) (store : Store) (old : Run) (index : Nat)
    (context : Table Json) (error : Option String) (now : Time) :
    Wrote (log ++ [⟨.store (.updateRun id (.final index context error now) Engine.runningName), .ok true⟩]) id
      (store.settle (old.apply (.final index context error now))) index now where
  driver := Log.runId?_append h
  update := by
    rw [Store.settle_context, Store.settle_error]
    exact List.mem_concat_self
  place := by
    rw [Store.settle_currentStep]
    rfl
  status := by
    rw [Store.settle_status, Store.settle_error]
    rfl

theorem Exchange.concluded (hx : s.Exchange calm i op log x s') (hs : s.Concluded) : s'.Concluded := by
  intro id run hr hstatus
  -- What was stored before is still as its driver wrote it.
  have hold : s.office.store.record? id = some run →
      ∃ i op log index now, s'.At i op log ∧ Wrote log id run index now := by
    intro hr
    obtain ⟨j, op', log', index, now, hat, hw⟩ := hs id run hr hstatus
    obtain ⟨more, hat⟩ := hx.at_of hat
    exact ⟨j, op', _, index, now, hat, hw.append more⟩
  cases hx.served with
  | kept hxe hu hi hrec => exact hold ((hrec id).symm.trans hr)
  | made workflowId context new hxe hn hi hnew hrec =>
    rw [hrec] at hr
    split at hr
    · -- A run that has just been made is running.
      obtain rfl := Option.some.inj hr
      rw [hnew, Store.settle_status] at hstatus
      rcases hstatus with hstatus | hstatus <;> cases hstatus
    · exact hold hr
  | changed runId c old hxe hi hrold hrun hrec =>
    rw [hrec] at hr
    split at hr
    · next hid =>
      subst hid
      obtain rfl := Option.some.inj hr
      have hallowed := hx.allowed
      have hself := hx.at_self
      subst hxe
      rw [Store.settle_status] at hstatus
      obtain ⟨_, ⟨hdriver, w, _, hd⟩ | ⟨_, ⟨now, rfl⟩, _⟩⟩ := hallowed.updateRun
      · cases hd with
        | checkpoint hi =>
          -- A checkpoint leaves the run running.
          have hstill : old.status = .completed ∨ old.status = .failed := hstatus
          rw [hrun] at hstill
          rcases hstill with hstill | hstill <;> cases hstill
        | completed => exact ⟨i, op, _, _, _, hself, wrote_settle hdriver _ old _ _ _ _⟩
        | failed hi he => exact ⟨i, op, _, _, _, hself, wrote_settle hdriver _ old _ _ _ _⟩
      · rcases hstatus with hstatus | hstatus <;> cases hstatus
    · exact hold hr

theorem Quiet.concluded (hq : s.Quiet s') (hs : s.Concluded) : s'.Concluded := by
  intro id run hr hstatus
  obtain ⟨i, op, log, index, now, hat, hw⟩ := hs id run (hq.store ▸ hr) hstatus
  exact ⟨i, op, log, index, now, hq.at_of hat, hw⟩

end System

namespace Chronicle

variable {c c' : Chronicle} {i j : Nat} {op op' : Operation} {log log' : Log Act.Answer}
variable {x : (a : Act) × a.Answer} {id : String} {run : Run}

/-- The driver of a run is the one who made it. -/
def Created (c : Chronicle) : Prop :=
  ∀ i op log id, c.At i op log → log.calls.runId? = some id →
    Log.about Log.created? id c.past = Log.about Log.created? id log

theorem Turn.created (ht : c.Turn i op log x c') (ho : c.Orderly) (ha : c.Account) (hc : c.Created) :
    c'.Created := by
  intro j op' log' id h hr
  rw [ht.about_past]
  rcases ht.at_or h with ⟨hne, h⟩ | ⟨rfl, rfl, rfl⟩
  · -- The run of another call is stored, so that it is not made now.
    have hstored : id ∈ c.office.store.ids := (ho.driven.stored h.system hr).1
    have hnone : Log.about Log.created? id [x] = [] :=
      Log.about_singleton_eq_nil fun context hx => ht.not_mem_of_created hx hstored
    rw [hnone, List.append_nil, hc j op' log' id h hr]
  · -- The call has made its run before, or it makes it now and nothing is noted of the run yet.
    rw [Log.about_append]
    rcases Log.runId?_calls_snoc hr with hr | ⟨context, hx⟩
    · rw [hc j op' log id ht.asking hr]
    · have hnone := (ha.fresh (ht.not_mem_of_created hx)).2.2
      rw [hnone, Log.about_eq_nil_of_subset (ha.noted ht.asking) hnone]

theorem created_run {o : Office} (ho : o.store.ids = []) (events : List Event) :
    ((start o).run events).Created := by
  have hstart : (start o).Created := fun _ _ _ _ ⟨_, h⟩ => nomatch h
  refine ((orderly_start ho).run_induction events (P := fun c => c.Account ∧ c.Created)
    ⟨account_start ho, hstart⟩ ?_ ?_).2.2
  · intro c c' hs h
    refine ⟨hs.account h.1, fun i op log id hat hr => ?_⟩
    rw [hs.past]
    rcases hs.at_or hat with hat | rfl
    · exact h.2 i op log id hat hr
    · cases hr
  · intro c c' i op log x ho ho' ht h
    exact ⟨ht.account ho ho' h.1, ht.created ho h.1 h.2⟩

theorem concluded_run {o : Office} (ho : o.store.ids = []) (events : List Event) :
    ((start o).run events).system.Concluded := by
  have hrec : ∀ id run, o.store.record? id ≠ some run := by
    intro id run hr
    have hm := ((Office.sound_of_ids_nil ho).store.record?_plain hr).2.2
    rw [ho] at hm
    cases hm
  refine (Chronicle.run_induction False (P := fun c => c.Orderly ∧ c.system.Concluded) events
    False.elim ⟨orderly_start ho, fun id run hr => absurd hr (hrec id run)⟩ ?_).2
  rintro c c' hm ⟨h, hs⟩
  refine ⟨(h.moves hm).1, ?_⟩
  obtain ⟨_, hq | ⟨_, _, _, _, hx⟩⟩ := h.system.moves hm.system
  · exact hq.concluded hs
  · exact hx.concluded hs

end Chronicle

end Conductor
