import Conductor.Proofs.System.Orderly

/-! Runs that have ended. Every write of a run is on the condition that it is running, so that a run which
is not running any more keeps all of its fields. -/

namespace Conductor

namespace Office

variable {o o' : Office} {x : (q : Call) × q.Answer} {id : String} {run : Run}

theorem Served.mem_ids (h : o.Served x o') (hm : id ∈ o.store.ids) : id ∈ o'.store.ids := by
  cases h with
  | made workflowId context new hx hn hi hrun hr => exact hi ▸ List.mem_append_left _ hm
  | changed runId c old hx hi hold hs hr => exact hi ▸ hm
  | kept hx hu hi hr => exact hi ▸ hm

/-- An exchange leaves a run that has ended as it is. -/
theorem Served.record?_of_isTerminal (h : o.Served x o') (ho : o.Sound)
    (hr : o.store.record? id = some run) (ht : run.status.isTerminal) :
    o'.store.record? id = some run := by
  cases h with
  | made workflowId context new hx hn hi hrun hrec =>
    -- The new run does not take the place of a stored one.
    have hm : id ∈ o.store.ids := (ho.store.record?_plain hr).2.2
    have hne : new.id ≠ id := fun he => hn (he ▸ hm)
    rw [hrec, if_neg hne, hr]
  | changed runId c old hx hi hold hs hrec =>
    -- The changed run was running, so that it is another one.
    have hne : runId ≠ id := by
      rintro rfl
      obtain rfl : old = run := Option.some.inj (hold.symm.trans hr)
      rw [hs] at ht
      cases ht
    rw [hrec, if_neg hne, hr]
  | kept hx hu hi hrec => rw [hrec, hr]

end Office

namespace System

variable {s : System} {id : String} {run : Run}

theorem Orderly.record?_run (h : s.Orderly) (events : List Event)
    (hr : s.office.store.record? id = some run) (ht : run.status.isTerminal) :
    (s.run events).office.store.record? id = some run := by
  refine (h.run_induction False (P := fun s => s.office.store.record? id = some run) events
    False.elim hr ?_ ?_).2
  · intro s s' hq hr
    rw [hq.store, hr]
  · intro s s' i op log x h hx hr
    exact hx.served.record?_of_isTerminal h.office hr ht

/-- A run that has ended stays as it is stored, in all of its fields and whatever happens. -/
theorem getRun_run_of_isTerminal {o : Office} (ho : o.store.ids = []) (before after : List Event)
    (hr : ((start o).run before).office.store.getRun id = .ok (some run))
    (ht : run.status.isTerminal) :
    (((start o).run before).run after).office.store.getRun id = .ok (some run) := by
  have h : ((start o).run before).Orderly := (orderly_start (Office.sound_of_ids_nil ho)).run before
  rw [h.office.store.getRun_eq, Except.ok.injEq] at hr
  rw [(h.run after).office.store.getRun_eq, h.record?_run after hr ht]

/-- A run that was cancelled before its first step, and that its driver then comes back to. -/
theorem getRun_run_cancelled :
    let s := (start .vacant).run (opening ++ .call (.cancel "run-1") :: turns 2 3)
    let run : Run := ⟨"run-1", "w", .cancelled, 0, [], none, .start, some .start, []⟩
    s.office.store.getRun "run-1" = .ok (some run) ∧
      (s.run (turns 1 6)).office.store.getRun "run-1" = .ok (some run) :=
  ⟨rfl, getRun_run_of_isTerminal rfl _ _ rfl rfl⟩

end System

end Conductor
