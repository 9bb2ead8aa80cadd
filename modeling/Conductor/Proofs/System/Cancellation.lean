import Conductor.Proofs.System.Outcome
import Conductor.Proofs.System.WriteAhead

/-! Cancelled runs. After its cancellation a run does nothing more, but for the step of its last checkpoint,
and what this step comes to is dropped. -/

namespace Conductor

namespace Chronicle

/-- What remains of a run that was cancelled between two parts of the past. -/
structure Dropped (c : Chronicle) (id : String) (before after : Log Act.Answer) (run : Run) : Prop where
  checkpoints : Log.checkpoints id after = []
  /-- No step begins any more but, once at most, that of the last checkpoint, if it had not begun. -/
  invocations : Log.invocations id after = [] ∨ ∃ a ∈ c.actors, ∃ w p handed,
    a.log.calls.runId? = some id ∧ a.log.calls.definition? = some w ∧
      Log.invocations id after = [handed] ∧ w.Hands p handed ∧
        (Log.checkpoints id before).getLast? = some p ∧
          (Log.invocations id before).length < (Log.checkpoints id before).length
  stored : c.office.store.getRun id = .ok (some run)
  status : run.status = .cancelled
  error : run.error = none
  /-- The run keeps the place and the context of its last checkpoint, or those that it began with. -/
  place : Log.place? id before = some (run.currentStep, run.context)

/-- The next things that a call does, with the answers of a world that changes. -/
def turnsOf (i n : Nat) (world : Nat → World) : List Event :=
  (List.range n).map fun k => .proceed i (world k)

/-- The driver of a run comes back with this record of it, and after enough turns it has come back. -/
def Returns (c : Chronicle) (id : String) (run : Run) : Prop :=
  ∀ i a, c.actors[i]? = some a → a.log.calls.runId? = some id →
    (∀ r, a.rest = .done r → r = .run (.ok run)) ∧
      ∀ world, ∃ n log, (c.run (turnsOf i n world)).actors[i]? =
        some ⟨a.operation, .done (.run (.ok run)), log⟩

variable {c : Chronicle} {a : Actor} {id : String} {run : Run} {i : Nat}

theorem run_append (c : Chronicle) (events more : List Event) :
    c.run (events ++ more) = (c.run events).run more :=
  List.foldl_append

theorem calm_append_turnsOf {events : List Event} (hc : ∀ ev ∈ events, ev.Calm) (i n : Nat)
    (world : Nat → World) : ∀ ev ∈ events ++ turnsOf i n world, ev.Calm := by
  intro ev hev
  rcases List.mem_append.mp hev with hev | hev
  · exact hc ev hev
  · obtain ⟨k, _, rfl⟩ := List.mem_map.mp hev
    trivial

/-- A call that is let alone comes to its end. -/
theorem exists_done (h : c.actors[i]? = some a) (world : Nat → World) :
    ∃ n r more, (c.run (turnsOf i n world)).actors[i]? = some ⟨a.operation, .done r, a.log ++ more⟩ := by
  obtain ⟨op, rest, log⟩ := a
  -- by induction on what is left of the call, each turn leads to one of its parts
  induction rest generalizing c world log with
  | done r => exact ⟨0, r, [], by rw [List.append_nil]; exact h⟩
  | ask a next ih =>
    have hi : i < c.actors.length := (List.getElem?_eq_some_iff.mp h).1
    have hstep : ∃ r, (c.step (.proceed i (world 0))).actors[i]? =
        some ⟨op, next r, log ++ [⟨a, r⟩]⟩ := by
      match a with
      | .call (.store q) =>
        refine ⟨(c.office.answer q).1, ?_⟩
        rw [step, serve_of_ask h rfl]
        exact List.getElem?_set_self hi
      | .call (.outside o) =>
        refine ⟨world 0 o, ?_⟩
        rw [step, serve_of_ask h rfl]
        exact List.getElem?_set_self hi
      | .invoke id step' context =>
        refine ⟨(), ?_⟩
        rw [step, serve_of_ask h rfl]
        exact List.getElem?_set_self hi
    obtain ⟨r, hr⟩ := hstep
    obtain ⟨n, reply, more, hn⟩ := ih r (fun k => world (k + 1)) _ hr
    refine ⟨n + 1, reply, [⟨a, r⟩] ++ more, ?_⟩
    rw [← List.append_assoc, ← hn, turnsOf, List.range_succ_eq_map, List.map_cons, List.map_map]
    rfl

/-- A run that has ended stays as it is stored. -/
theorem Orderly.record?_run (h : c.Orderly) (events : List Event)
    (hr : c.office.store.record? id = some run) (ht : run.status.isTerminal) :
    (c.run events).office.store.record? id = some run := by
  refine (h.run_induction events (P := fun c => c.office.store.record? id = some run) hr ?_ ?_).2
  · intro c c' hs hr
    rw [hs.store, hr]
  · intro c c' i op log x _ _ hturn hr
    exact hturn.ended hr ht

theorem told_run {o : Office} (ho : o.store.ids = []) (events : List Event)
    (hc : ∀ ev ∈ events, ev.Calm) : ((start o).run events).system.Told := by
  have hsound := Office.sound_of_ids_nil ho
  refine (Chronicle.run_induction True (P := fun c => c.Orderly ∧ c.system.Told) events
    (fun _ => hc) ⟨orderly_start ho, System.told_start hsound ho⟩ ?_).2
  rintro c c' hm ⟨h, ht⟩
  refine ⟨(h.moves hm).1, ?_⟩
  obtain ⟨_, hq | ⟨_, _, _, _, hx⟩⟩ := h.system.moves hm.system
  · exact hq.told ht
  · exact hx.told h.system h.driven ht

/-- Where no store call fails, a driver that has come back has come back with the run as it is stored. -/
theorem Orderly.returned (h : c.Orderly) (ht : c.system.Told) (hi : c.actors[i]? = some a)
    (hr : a.log.calls.runId? = some id) (hrun : c.office.store.record? id = some run) {r : Reply}
    (hrest : a.rest = .done r) : r = .run (.ok run) := by
  have hmem : a.task ∈ c.system.tasks := List.mem_map_of_mem (List.mem_of_getElem? hi)
  have hdone : a.task.rest = .done r := congrArg Announced.silent hrest
  obtain ⟨run', rfl, hget, _⟩ := System.getRun_of_returned h.system ht hmem hr hdone
  have hget : c.office.store.getRun id = .ok (some run') := hget
  rw [h.getRun_eq, hrun] at hget
  cases hget
  rfl

theorem returns_of_cancelled {o : Office} (ho : o.store.ids = []) {events : List Event}
    (hc : ∀ ev ∈ events, ev.Calm) (hrun : ((start o).run events).office.store.record? id = some run)
    (hs : run.status = .cancelled) : ((start o).run events).Returns id run := by
  intro i a hi hr
  have h := (account_run ho events).1
  refine ⟨fun r => h.returned (told_run ho events hc) hi hr hrun, fun world => ?_⟩
  obtain ⟨n, r, more, hn⟩ := exists_done hi world
  -- After these turns the run is stored as before, and no store call has failed in them.
  have hcalm := calm_append_turnsOf hc i n world
  have h' := (account_run ho (events ++ turnsOf i n world)).1
  have ht' := told_run ho _ hcalm
  have hrun' := h.record?_run (turnsOf i n world) hrun (by rw [hs]; rfl)
  rw [run_append] at h' ht'
  have hr' : Log.runId? (a.log ++ more).calls = some id := Log.runId?_calls_append hr more
  have hreply := h'.returned ht' hn hr' hrun' rfl
  exact ⟨n, _, hreply ▸ hn⟩

/-- At most one checkpoint of before has its step begin afterwards, and this is the last one. -/
theorem Account.exists_dropped (ha : c.Account) (ho : c.Orderly) {before after : Log Act.Answer} {now : Time}
    (hp : c.past = before ++ Log.cancellation id now :: after) : ∃ run, c.Dropped id before after run := by
  obtain ⟨run, hrun, hs, he, hplace⟩ := ha.dropped hp
  have hafter : Log.checkpoints id after = [] :=
    ha.frozen hp (rfl : Log.change? _ = some (id, .cancel now)) rfl
  refine ⟨run, hafter, ?_, by rw [ho.getRun_eq, hrun], hs, he, hplace⟩
  obtain ⟨i, w, op, calls, hat, hr, hw⟩ :=
    ho.driven.started id (ho.system.office.store.record?_plain hrun).2.2
  obtain ⟨log, ⟨rest, hi⟩, rfl⟩ := exists_at_of_system hat
  have hmem := List.mem_of_getElem? hi
  have hsequence := ha.sequence ho hmem hr hw
  have hcheck : Log.checkpoints id c.past = Log.checkpoints id before := by
    rw [hp, List.append_cons, Log.checkpoints_append, Log.checkpoints_append, hafter, List.append_nil]
    exact List.append_nil _
  have hbegun : Log.invocations id c.past = Log.invocations id before ++ Log.invocations id after := by
    rw [hp, List.append_cons, Log.invocations_append, Log.invocations_append]
    exact congrArg (· ++ _) (List.append_nil _)
  rw [hcheck, hbegun, List.append_assoc] at hsequence
  -- As many steps have begun, or are about to, as checkpoints were made; all but one of them before.
  have hlength := hsequence.length_eq
  have hahead : (Log.checkpoints id before).length ≤ (Log.invocations id before).length + 1 :=
    ha.ahead (hp ▸ List.prefix_append before _)
  simp only [List.length_append] at hlength
  cases hmore : Log.invocations id after with
  | nil => exact Or.inl rfl
  | cons handed others =>
    rw [hmore, List.length_cons] at hlength
    obtain rfl : others = [] := List.length_eq_zero_iff.mp (by omega)
    have himminent : Announced.imminent rest = [] := List.length_eq_zero_iff.mp (by omega)
    have hlast := List.forall₂_drop_append _ _ _ hsequence
    rw [hmore, himminent, List.append_nil] at hlast
    obtain ⟨p, rest', hhands, hnil, hdrop⟩ := List.forall₂_cons_right_iff.mp hlast
    obtain rfl := List.forall₂_nil_right_iff.mp hnil
    refine Or.inr ⟨_, hmem, w, p, handed, hr, hw, rfl, hhands, ?_, by omega⟩
    have hsplit := List.take_append_drop (Log.invocations id before).length (Log.checkpoints id before)
    rw [← hsplit, hdrop, List.getLast?_concat]

/-- However the calls take turns, a run does nothing more after a cancellation of it has come back with
true, but for the step of its last checkpoint; what this step comes to is dropped. Where no store call fails
the driver comes back with the run as it was cancelled. -/
theorem dropped_run {o : Office} (ho : o.store.ids = []) (events : List Event) {j : Nat}
    {log : Log Act.Answer}
    (hj : ((start o).run events).actors[j]? = some ⟨.cancel id, .done (.cancelled (.ok true)), log⟩) :
    ∃ before now after run, Log.cancellation id now ∈ log ∧
      ((start o).run events).past = before ++ Log.cancellation id now :: after ∧
        ((start o).run events).Dropped id before after run ∧
          ((∀ ev ∈ events, ev.Calm) → ((start o).run events).Returns id run) := by
  obtain ⟨h, ha⟩ := account_run ho events
  -- The answer that came back is the one to the update that the cancellation asked for.
  have hmem : Actor.task ⟨.cancel id, .done (.cancelled (.ok true)), log⟩ ∈
      ((start o).run events).system.tasks := List.mem_map_of_mem (List.mem_of_getElem? hj)
  obtain ⟨run, now, hlog⟩ : Cancelled id log.calls (.ok true) := (h.system.tasks _ hmem).rest
  have hentry : Log.cancellation id now ∈ log := by
    refine Log.mem_of_mem_calls ?_
    rw [hlog]
    exact List.mem_cons_of_mem _ (List.mem_cons_of_mem _ List.mem_cons_self)
  obtain ⟨before, after, hp⟩ := List.append_of_mem (ha.noted ⟨_, hj⟩ hentry)
  obtain ⟨run, hdropped⟩ := ha.exists_dropped h hp
  refine ⟨before, now, after, run, hentry, hp, hdropped, fun hc => ?_⟩
  have hrun := hdropped.stored
  rw [h.getRun_eq, Except.ok.injEq] at hrun
  exact returns_of_cancelled ho hc hrun hdropped.status

/-- A run whose step begins after the cancellation. Its output is dropped. -/
theorem dropped_run_single :
    let events := opening ++ turns 1 1 ++ .call (.cancel "run-1") :: turns 2 3 ++ turns 1 4
    let c := (start .vacant).run events
    Log.invocations "run-1" c.past = [(⟨"only", "Only", .transform ⟨none⟩⟩, [])] ∧
      ∃ log, c.actors[2]? = some ⟨.cancel "run-1", .done (.cancelled (.ok true)), log⟩ ∧
        ∃ before now after run, Log.cancellation "run-1" now ∈ log ∧
          c.past = before ++ Log.cancellation "run-1" now :: after ∧
            c.Dropped "run-1" before after run ∧ c.Returns "run-1" run := by
  intro events c
  have hc : ∀ ev ∈ events, Event.Calm ev := by
    simp [events, opening, turns, List.replicate, Event.Calm]
  obtain ⟨before, now, after, run, hentry, hp, hdropped, hreturns⟩ :=
    dropped_run (o := .vacant) rfl events (rfl : c.actors[2]? = some ⟨.cancel "run-1", _, _⟩)
  exact ⟨rfl, _, rfl, before, now, after, run, hentry, hp, hdropped, hreturns hc⟩

end Chronicle

end Conductor
