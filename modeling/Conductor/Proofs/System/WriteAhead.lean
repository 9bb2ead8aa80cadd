import Conductor.Proofs.System.Account

/-! Checkpoints come first. When a step begins, its place and its context are what is stored of the run, and
the steps that begin are those of the checkpoints, in their order. -/

namespace Conductor

/-- The step that begins next, with the context that it is handed. -/
def Announced.imminent {α : Type} : Announced α → List (Step × Table Json)
  | .ask (.invoke _ step context) _ => [(step, context)]
  | _ => []

namespace Chronicle

/-- A run was cancelled, and the last checkpoint before that gave it this place and this context. -/
def CancelledAfter (c : Chronicle) (id : String) (p : Int × Table Json) : Prop :=
  ∃ before now after, c.past = before ++ Log.cancellation id now :: after ∧
    (Log.checkpoints id before).getLast? = some p ∧ Log.checkpoints id after = []

/-- What is stored of a run is the place of a step and the context that the step is handed, and the run is
running or was cancelled after that checkpoint. -/
def Recorded (c : Chronicle) (a : Actor) (id : String) (step : Step) (context : Table Json) : Prop :=
  ∃ (index : Nat) (w : Workflow) (run : Run),
    a.log.calls.runId? = some id ∧ a.log.calls.definition? = some w ∧ w.steps[index]? = some step ∧
      c.office.store.getRun id = .ok (some run) ∧ run.currentStep = index ∧ run.context = context ∧
        (run.status = .running ∨ run.status = .cancelled ∧ c.CancelledAfter id (index, context))

structure WritesAhead (c : Chronicle) : Prop where
  /-- So it is when a step begins. -/
  step : ∀ a ∈ c.actors, ∀ id step context next, a.rest = .ask (.invoke id step context) next →
    c.Recorded a id step context
  /-- So it still is whenever the world is asked, which only a step does that has begun. -/
  errand : ∀ a ∈ c.actors, ∀ o next, a.rest = .ask (.call (.outside o)) next →
    ∃ id step context, a.log.engaged? = some (id, step, context) ∧ c.Recorded a id step context
  /-- The steps that have begun for a run, with the one about to begin, are those of its checkpoints. -/
  sequence : ∀ a ∈ c.actors, ∀ id w, a.log.calls.runId? = some id → a.log.calls.definition? = some w →
    List.Forall₂ w.Hands (Log.checkpoints id c.past) (Log.invocations id c.past ++ a.rest.imminent)
  /-- A run that nobody has made has neither. -/
  nothing : ∀ id, (∀ a ∈ c.actors, a.log.calls.runId? ≠ some id) →
    Log.checkpoints id c.past = [] ∧ Log.invocations id c.past = []

variable {c : Chronicle} {a : Actor} {op : Operation} {log : Log Act.Answer} {id : String} {run : Run}
variable {step : Step} {context : Table Json}

theorem exists_at_of_mem (h : a ∈ c.actors) : ∃ i, c.At i a.operation a.log := by
  obtain ⟨i, hi⟩ := List.mem_iff_getElem?.mp h
  exact ⟨i, a.rest, hi⟩

/-- No checkpoint of a run is made after its cancellation. -/
theorem Account.split_of_cancelled (ha : c.Account) {now : Time}
    (hm : Log.cancellation id now ∈ c.past) :
    ∃ before after, c.past = before ++ Log.cancellation id now :: after ∧
      Log.checkpoints id before = Log.checkpoints id c.past ∧ Log.checkpoints id after = [] := by
  obtain ⟨before, after, hp⟩ := List.append_of_mem hm
  have hafter := ha.frozen hp (rfl : Log.change? _ = some (id, .cancel now)) rfl
  refine ⟨before, after, hp, ?_, hafter⟩
  have hnone : Log.checkpoints id [Log.cancellation id now] = [] := rfl
  rw [hp, List.append_cons, Log.checkpoints_append, Log.checkpoints_append, hafter, hnone, List.append_nil,
    List.append_nil]

theorem Account.recorded (ha : c.Account) (ho : c.Orderly) (hmem : a ∈ c.actors)
    (hf : a.log.Faces id step context) : c.Recorded a id step context := by
  obtain ⟨hr, p, hopen, w, hw, index, rfl, hs⟩ := hf
  obtain ⟨i, hat⟩ := exists_at_of_mem hmem
  obtain ⟨_, run, hrun, hu⟩ := ha.opened hat hopen
  -- The last checkpoint of the run is the one that this driver made last.
  have hlast : (Log.checkpoints id c.past).getLast? = some ((index : Int), context) := by
    rw [(ha.driver hat hr).1]
    exact Log.getLast?_checkpoints hopen
  have hplace := (ha.place hrun hu).2
  rw [Log.place?, hlast, Option.some_or, Option.some.injEq, Prod.mk.injEq] at hplace
  have hget : c.office.store.getRun id = .ok (some run) := by
    rw [ho.getRun_eq, hrun]
  refine ⟨index, w, run, hr, hw, hs, hget, hplace.1.symm, hplace.2.symm, ?_⟩
  rcases hu with hu | hu
  · exact Or.inl hu
  · obtain ⟨now, hm⟩ := ha.cancelled hrun hu
    obtain ⟨before, after, hp, hbefore, hafter⟩ := ha.split_of_cancelled hm
    exact Or.inr ⟨hu, before, now, after, hp, hbefore ▸ hlast, hafter⟩

theorem Account.sequence (ha : c.Account) (ho : c.Orderly) (hmem : a ∈ c.actors) {w : Workflow}
    (hr : a.log.calls.runId? = some id) (hw : a.log.calls.definition? = some w) :
    List.Forall₂ w.Hands (Log.checkpoints id c.past) (Log.invocations id c.past ++ a.rest.imminent) := by
  obtain ⟨i, hat⟩ := exists_at_of_mem hmem
  have hlaw := ho.actors a hmem
  obtain ⟨done, hdone, hhands⟩ := Engine.hands_of_allowed hlaw.log id
  have himp : ∀ p handed, a.log.Hands p handed → w.Hands p handed := by
    rintro p handed ⟨w', hw', hp⟩
    cases hw.symm.trans hw'
    exact hp
  rw [(ha.driver hat hr).1, (ha.driver hat hr).2, hdone, Log.checkpoints_getLast?]
  refine List.rel_append (hhands.imp himp) ?_
  obtain ⟨op, rest, log⟩ := a
  -- A checkpoint is left over exactly when its step begins next.
  match rest with
  | .done reply =>
    have hd : Log.due? log = none := hlaw.rest
    rw [hd]
    exact .nil
  | .ask (.call q) next =>
    rw [Engine.due?_of_announces hlaw.rest.1]
    exact .nil
  | .ask (.invoke id' step context) next =>
    obtain ⟨hdue, hr', p, hopen, hp⟩ := hlaw.rest.1
    obtain ⟨u, hu⟩ := Option.isSome_iff_exists.mp hdue
    cases (Log.open?_of_due? hu).symm.trans hopen
    cases hr.symm.trans hr'
    have hsome : ((Log.due? log).bind fun u => if u.1 = id then some u.2 else none) = some p := by
      rw [hu, Option.bind_some, if_pos rfl]
    rw [hsome]
    exact .cons (himp _ _ hp) .nil

/-- However the calls take turns, checkpoints come before their steps. -/
theorem writesAhead_run {o : Office} (ho : o.store.ids = []) (events : List Event) :
    ((start o).run events).WritesAhead := by
  obtain ⟨h, ha⟩ := account_run ho events
  refine ⟨fun a hmem id step context next hrest => ?_, fun a hmem q next hrest => ?_,
    fun a hmem id w hr hw => ha.sequence h hmem hr hw, fun id hnone => ?_⟩
  · have hlaw := (h.actors a hmem).rest
    rw [hrest] at hlaw
    exact ha.recorded h hmem hlaw.1.2
  · have hlaw := (h.actors a hmem).rest
    rw [hrest] at hlaw
    obtain ⟨_, id, step, context, he, hf⟩ := hlaw.1
    exact ⟨id, step, context, he, ha.recorded h hmem hf⟩
  · have hfresh : id ∉ ((start o).run events).office.store.ids := by
      intro hid
      obtain ⟨i, w, op, calls, hat, hr, _⟩ := h.driven.started id hid
      obtain ⟨log, ⟨rest, hi⟩, rfl⟩ := exists_at_of_system hat
      exact hnone _ (List.mem_of_getElem? hi) hr
    exact ⟨(ha.fresh hfresh).1, (ha.fresh hfresh).2.1⟩

/-- A run that is cancelled after the checkpoint of its step and before the step begins. -/
theorem writesAhead_cancelled :
    let c := (start .vacant).run (opening ++ turns 1 1 ++ .call (.cancel "run-1") :: turns 2 3)
    c.WritesAhead ∧ Log.checkpoints "run-1" c.past = [(0, [])] ∧ Log.invocations "run-1" c.past = [] ∧
      (c.actors[1]?.map fun a => a.rest.imminent) =
        some [(⟨"only", "Only", .transform ⟨none⟩⟩, [])] :=
  ⟨writesAhead_run rfl _, rfl, rfl, rfl⟩

end Chronicle

end Conductor
