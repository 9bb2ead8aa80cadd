import Conductor.Proofs.System.Concluded
import Conductor.Proofs.System.Course

/-! The context of a run only grows, and only where it should. Whatever is written of a run holds what the
run began with and the outputs of the steps that succeeded; a step that fails leaves the context alone. -/

namespace Conductor

/-- The context that the last of some visits left behind, or else the one that the run began with. -/
def contextAfter (initial : Table Json) (visits : List Visit) : Table Json :=
  (visits.getLast?.map fun v => v.leave v.context).getD initial

theorem contextAfter_of_failed {initial : Table Json} {visits : List Visit} {v : Visit}
    (hv : visits.getLast? = some v) (hf : v.outcome.success = false) :
    contextAfter initial visits = v.context := by
  rw [contextAfter, hv, Option.map_some, Option.getD_some, Visit.leave, if_neg (Bool.eq_false_iff.mp hf)]

theorem Workflow.Way.eq_contextAfter {w : Workflow} {initial context : Table Json} {visits : List Visit}
    {index : Nat} (h : w.Way initial visits index context) : context = contextAfter initial visits := by
  unfold contextAfter
  cases hv : visits.getLast? with
  | none => exact h.eq_initial (List.getLast?_eq_none_iff.mp hv)
  | some v =>
    obtain ⟨hs, he⟩ := h.eq_bound hv
    rw [Option.map_some, Option.getD_some, Visit.leave, if_pos hs]
    exact he

namespace Log

/-- A context that is written of a run after a log, and the visits that the log tells of. -/
structure Bears (registry : Registry) (id : String) (log : Log Act.Answer) (initial : Table Json)
    (visits : List Visit) (context : Table Json) : Prop where
  visited : Visited registry log (visits, none)
  begun : invocations id log = visits.map fun v => (v.step, v.context)
  /-- Each step was handed the context of its own checkpoint. -/
  handed : (checkpoints id log).map Prod.snd = visits.map Visit.context
  grown : Grown initial visits context
  /-- It is what the last step was handed, with the output of the step if that succeeded. -/
  last : context = contextAfter initial visits
  /-- A step that failed leaves the context as it was at the last checkpoint. -/
  failed : ∀ v, visits.getLast? = some v → v.outcome.success = false →
    (checkpoints id log).getLast?.map Prod.snd = some context

variable {log : Log Act.Answer} {id : String} {registry : Registry} {initial : Table Json}

theorem bears_nil (registry : Registry) (id : String) (initial : Table Json) :
    Bears registry id [] initial [] initial :=
  ⟨.nil, rfl, rfl, grown_nil initial, rfl, fun _ hv => nomatch hv⟩

/-- Where no checkpoint is left over, the steps that have begun were handed the contexts of the
checkpoints. -/
theorem map_snd_checkpoints (h : log.Allowed Engine.announces) (hd : due? log = none) (id : String) :
    (checkpoints id log).map Prod.snd = (invocations id log).map Prod.snd := by
  obtain ⟨done, hdone, hhands⟩ := Engine.hands_of_allowed h id
  rw [checkpoints_getLast?, hd, Option.bind_none, Option.toList_none, List.append_nil] at hdone
  rw [hdone]
  refine List.forall₂_eq_eq_eq ▸ List.forall₂_map_left_iff.mpr (List.forall₂_map_right_iff.mpr ?_)
  refine hhands.imp fun p handed hp => ?_
  obtain ⟨w, _, index, rfl, _⟩ := hp
  rfl

/-- What is written of a run in the light of its visits is borne out by them. -/
theorem bears_of_writes {e : Engine} {w : Workflow} {visits : List Visit} {c : Change}
    (h : e.Along w id initial log visits) (hw : e.Writes w initial log visits c)
    (ha : log.Allowed Engine.announces) (hd : due? log = none) :
    ∃ context, c.context = some context ∧ log.Bears e.registry id initial visits context := by
  have hhanded : (checkpoints id log).map Prod.snd = visits.map Visit.context := by
    rw [map_snd_checkpoints ha hd, h.begun, List.map_map]
    rfl
  have hbears : ∀ {context}, Grown initial visits context → context = contextAfter initial visits →
      log.Bears e.registry id initial visits context := by
    intro context hgrown hlast
    refine ⟨h.visited, h.begun, hhanded, hgrown, hlast, fun v hv hf => ?_⟩
    rw [← List.getLast?_map, hhanded, List.getLast?_map, hv, hlast, contextAfter_of_failed hv hf]
    rfl
  cases hw with
  | checkpoint way => exact ⟨_, rfl, hbears way.grown way.eq_contextAfter⟩
  | completed way => exact ⟨_, rfl, hbears way.grown way.eq_contextAfter⟩
  | guarded way => exact ⟨_, rfl, hbears way.grown way.eq_contextAfter⟩
  | troubled way => exact ⟨_, rfl, hbears way.grown way.eq_contextAfter⟩
  | @failed before index context now step outcome way hstep hvisits hfail =>
    -- The step that failed has left nothing behind.
    have hleave : Visit.leave ⟨step, context, outcome⟩ context = context := by
      rw [Visit.leave, if_neg (Bool.eq_false_iff.mp hfail)]
    have hgrown := way.grown.snoc ⟨step, context, outcome⟩
    rw [hleave, ← hvisits] at hgrown
    have hlast : visits.getLast? = some ⟨step, context, outcome⟩ := by
      rw [hvisits, List.getLast?_concat]
    exact ⟨context, rfl, hbears hgrown (contextAfter_of_failed hlast hfail).symm⟩

/-- A log is split at the last checkpoint of a run. -/
theorem exists_last_checkpoint {p : Int × Table Json} (h : (checkpoints id log).getLast? = some p) :
    ∃ before x after, log = before ++ x :: after ∧ checkpoint? x = some (id, p) ∧
      checkpoints id after = [] := by
  obtain ⟨first, hfirst⟩ := List.getLast?_eq_some_iff.mp h
  obtain ⟨front, back, rfl, _, hback⟩ := List.filterMap_eq_append_iff.mp hfirst
  obtain ⟨gap, x, after, rfl, _, hx, hafter⟩ := List.filterMap_eq_cons_iff.mp hback
  obtain ⟨u, hu, hid⟩ := Option.bind_eq_some_iff.mp hx
  split at hid
  · next hid' =>
    obtain rfl := Option.some.inj hid
    refine ⟨front ++ gap, x, after, (List.append_assoc _ _ _).symm, ?_, hafter⟩
    rw [hu, ← hid']
  · cases hid

/-- The run that a call has made is the first one that it has made. -/
theorem head?_created (h : log.findSome? created? = some (id, initial)) :
    (about created? id log).head? = some initial := by
  obtain ⟨front, x, back, rfl, hx, hfront⟩ := List.findSome?_eq_some_iff.mp h
  have hnone : about created? id front = [] := by
    refine about_eq_nil fun y hy u hu => ?_
    rw [hfront y hy] at hu
    cases hu
  rw [List.append_cons, about_append, about_append, hnone, about_singleton hx]
  rfl

end Log

theorem Run.Plain.unconcluded_or {run : Run} (hp : run.Plain) :
    run.Unconcluded ∨ run.status = .completed ∨ run.status = .failed := by
  cases hs : run.status with
  | running => exact Or.inl (Or.inl hs)
  | cancelled => exact Or.inl (Or.inr hs)
  | completed => exact Or.inr (Or.inl rfl)
  | failed => exact Or.inr (Or.inr rfl)
  | other name => exact absurd hs (hp.named name)

/-- What is stored of a run was written by its driver after a first part of the driver's log. -/
inductive Actor.WroteAfter (a : Actor) (id : String) (run : Run) : Log Act.Answer → Prop
  /-- No checkpoint has been made of the run, which is as it began. -/
  | nothing (hs : run.Unconcluded) (hnone : Log.checkpoints id a.log = [])
      (hinitial : a.log.initial? = some run.context) : WroteAfter a id run []
  /-- The last checkpoint is stored, also where the run was cancelled after it. -/
  | checkpoint {before after : Log Act.Answer} {x : (a : Act) × a.Answer} (hs : run.Unconcluded)
      (hlog : a.log = before ++ x :: after)
      (hx : Log.checkpoint? x = some (id, run.currentStep, run.context))
      (hlast : Log.checkpoints id after = []) : WroteAfter a id run before
  | final {before after : Log Act.Answer} {index : Nat} {now : Time}
      (hs : run.status = if run.error.isSome then .failed else .completed)
      (hlog : a.log = before ++ ⟨.call (.store (.updateRun id (.final index run.context run.error now)
        Engine.runningName)), .ok true⟩ :: after) : WroteAfter a id run before

/-- The context of each run is what the run began with and what its steps have put out. -/
structure Chronicle.Grows (c : Chronicle) : Prop where
  /-- So it is in each checkpoint and in each end that is to be written. -/
  written : ∀ a ∈ c.actors, ∀ e, a.operation.engine? = some e → ∀ (before after : Log Act.Answer)
    (id : String) (ch : Change) (expected : Option String) (r : Except Fault Bool),
    a.log = before ++ ⟨.call (.store (.updateRun id ch expected)), r⟩ :: after →
      a.log.calls.runId? = some id ∧ ∃ initial visits context, a.log.initial? = some initial ∧
        a.operation.Begins initial ∧ ch.context = some context ∧
          before.Bears e.registry id initial visits context
  /-- So it is in what is stored. -/
  stored : ∀ id run, c.office.store.getRun id = .ok (some run) → ∃ a ∈ c.actors,
    ∃ (e : Engine) (initial : Table Json) (before : Log Act.Answer) (visits : List Visit),
    a.operation.engine? = some e ∧ a.log.calls.runId? = some id ∧ a.log.initial? = some initial ∧
      a.operation.Begins initial ∧ a.WroteAfter id run before ∧
        before.Bears e.registry id initial visits run.context

section

variable {a : Actor} {e : Engine} {id : String} {run : Run} {initial : Table Json}
variable {before after : Log Act.Answer}

/-- What a driver asks to be written of its run is borne out by its visits. -/
theorem Actor.Coursed.bears (hc : a.Coursed e) (hl : a.Lawful) {ch : Change} {expected : Option String}
    {r : Except Fault Bool}
    (hlog : a.log = before ++ ⟨.call (.store (.updateRun id ch expected)), r⟩ :: after) :
    ∃ initial visits context, a.log.findSome? Log.created? = some (id, initial) ∧
      ch.context = some context ∧ before.Bears e.registry id initial visits context := by
  obtain ⟨_, _, w, initial, visits, halong, hwrites⟩ := hc.allowed.split hlog
  obtain ⟨hannounced, hdue⟩ := hl.log.split hlog
  obtain ⟨context, hcontext, hbears⟩ := Log.bears_of_writes halong hwrites hannounced hdue.1
  refine ⟨initial, visits, context, ?_, hcontext, hbears⟩
  rw [hlog, List.findSome?_append, halong.made, Option.some_or]

theorem Actor.WroteAfter.bears (h : a.WroteAfter id run before) (hc : a.Coursed e) (hl : a.Lawful)
    (hm : a.log.findSome? Log.created? = some (id, initial)) :
    ∃ visits, before.Bears e.registry id initial visits run.context := by
  have hasked : ∀ {after : Log Act.Answer} {ch : Change} {expected : Option String}
      {r : Except Fault Bool}, a.log = before ++ ⟨.call (.store (.updateRun id ch expected)), r⟩ :: after →
        ch.context = some run.context → ∃ visits, before.Bears e.registry id initial visits run.context := by
    intro after ch expected r hlog hcontext
    obtain ⟨initial', visits, context, hm', hcontext', hb⟩ := hc.bears hl hlog
    cases hm.symm.trans hm'
    cases hcontext.symm.trans hcontext'
    exact ⟨visits, hb⟩
  cases h with
  | nothing hs hnone hinitial =>
    obtain rfl := Option.some.inj ((Log.initial?_of_created hm).symm.trans hinitial)
    exact ⟨[], Log.bears_nil e.registry id run.context⟩
  | checkpoint hs hlog hx hlast =>
    obtain ⟨ch, hch, hplace⟩ := Log.checkpoint?_eq_some hx
    obtain ⟨expected, rfl⟩ := Log.change?_eq_some hch
    exact hasked hlog (Change.context_of_place? hplace)
  | final hs hlog => exact hasked hlog rfl

end

namespace Chronicle

variable {c : Chronicle} {a : Actor} {i : Nat} {id : String} {run : Run} {initial : Table Json}

/-- A run that its driver has not concluded is stored with its last checkpoint, or as it began. -/
theorem Account.wroteAfter (ha : c.Account) (hcreated : c.Created) (hi : c.actors[i]? = some a)
    (hm : a.log.findSome? Log.created? = some (id, initial)) (hrun : c.office.store.record? id = some run)
    (hu : run.Unconcluded) : ∃ before, a.WroteAfter id run before := by
  have hat : c.At i a.operation a.log := ⟨a.rest, hi⟩
  have hr := Log.runId?_of_created hm
  have hplace := (ha.place hrun hu).2
  rw [Log.place?, (ha.driver hat hr).1, hcreated i a.operation a.log id hat hr, Log.head?_created hm] at hplace
  cases hlast : (Log.checkpoints id a.log).getLast? with
  | some p =>
    rw [hlast, Option.some_or] at hplace
    obtain rfl := Option.some.inj hplace
    obtain ⟨before, x, after, hlog, hx, hafter⟩ := Log.exists_last_checkpoint hlast
    exact ⟨before, .checkpoint hu hlog hx hafter⟩
  | none =>
    rw [hlast, Option.none_or, Option.map_some] at hplace
    have hsame := (Prod.mk.inj (Option.some.inj hplace)).2
    exact ⟨[], .nothing hu (List.getLast?_eq_none_iff.mp hlast) (hsame ▸ Log.initial?_of_created hm)⟩

/-- A run that has completed or failed is stored as its driver has written it. -/
theorem Orderly.wroteAfter (h : c.Orderly) (hconcluded : c.system.Concluded) (hi : c.actors[i]? = some a)
    (hr : a.log.calls.runId? = some id) (hrun : c.office.store.record? id = some run)
    (hs : run.status = .completed ∨ run.status = .failed) : ∃ before, a.WroteAfter id run before := by
  -- Whoever wrote the end is the driver of the run, and there is but one.
  obtain ⟨j, op, calls, index, now, hat, hwrote⟩ := hconcluded id run hrun hs
  have hself : c.system.At i a.operation a.log.calls := At.system ⟨a.rest, hi⟩
  obtain rfl := h.driven.unique hat hself hwrote.driver hr
  obtain ⟨_, rfl⟩ := hat.inj hself
  obtain ⟨before, after, hlog⟩ := List.append_of_mem (Log.mem_of_mem_calls hwrote.update)
  exact ⟨before, .final hwrote.status hlog⟩

/-- However the calls take turns, whatever the world answers and wherever the store fails, the context of
each run only grows, and only where it should. -/
theorem grows_run {o : Office} (ho : o.store.ids = []) (events : List Event) :
    ((start o).run events).Grows := by
  obtain ⟨h, ha⟩ := account_run ho events
  have hcoursed := coursed_run o events
  refine ⟨fun a hmem e he before after id ch expected r hlog => ?_, fun id run hget => ?_⟩
  · obtain ⟨initial, visits, context, hm, hcontext, hbears⟩ :=
      (hcoursed a hmem e he).bears (h.actors a hmem) hlog
    exact ⟨Log.runId?_of_created hm, initial, visits, context, Log.initial?_of_created hm,
      Engine.begins_of_made (hcoursed a hmem e he).allowed hm, hcontext, hbears⟩
  · rw [h.getRun_eq, Except.ok.injEq] at hget
    obtain ⟨hplain, _, hid⟩ := h.system.office.store.record?_plain hget
    -- The driver of the run has made it with some context.
    obtain ⟨i, w, op, calls, hsystem, hr, _⟩ := h.driven.started id hid
    obtain ⟨e, he⟩ := Operation.exists_engine (Operation.drives_of_runId? (h.system.allowed hsystem) hr)
    obtain ⟨log, ⟨rest, hi⟩, rfl⟩ := exists_at_of_system hsystem
    have hmem := List.mem_of_getElem? hi
    have hr' := hr
    rw [Log.runId?_calls] at hr'
    obtain ⟨⟨_, initial⟩, hm, rfl⟩ := Option.map_eq_some_iff.mp hr'
    -- What is stored of an unfinished run is its last checkpoint, of a finished one its end.
    obtain ⟨before, hwrote⟩ : ∃ before, Actor.WroteAfter ⟨op, rest, log⟩ _ run before := by
      rcases hplain.unconcluded_or with hu | hs
      · exact ha.wroteAfter (created_run ho events) hi hm hget hu
      · exact h.wroteAfter (concluded_run ho events) hi hr hget hs
    have hcourse := hcoursed _ hmem e he
    obtain ⟨visits, hbears⟩ := hwrote.bears hcourse (h.actors _ hmem) hm
    exact ⟨_, hmem, e, initial, before, visits, he, hr, Log.initial?_of_created hm,
      Engine.begins_of_made hcourse.allowed hm, hwrote, hbears⟩

/-- A run whose step replaces a value that the run began with, and leaves another one alone. -/
theorem grows_run_single :
    let begun : Operation := .execute .sample "w" [("kept", .bool true), ("only", .bool true)]
    let c := (start .vacant).run (.call (.save .single) :: .call begun :: turns 0 1 ++ turns 1 7)
    c.Grows ∧ (c.office.store.record? "run-1").map (fun run => (run.status, run.context)) =
      some (.completed, [("kept", .bool true), ("only", .obj []), ("_last_output", .obj [])]) :=
  ⟨grows_run (o := .vacant) rfl _, rfl⟩

end Chronicle

end Conductor
