import Conductor.Proofs.System.Answers

/-! The outcome of a run. Where no store call fails, what is stored of a run, what its driver comes back
with and what cancellations of it come back with fit together. -/

namespace Conductor

variable {op : Operation} {log : Log Call.Answer} {id : String}

theorem Log.exists_createRun (h : Log.runId? log = some id) :
    ∃ workflowId context run, ⟨.store (.createRun workflowId context), run⟩ ∈ log ∧ run.id = id := by
  obtain ⟨x, hx, h⟩ := List.exists_of_findSome?_eq_some h
  split at h
  · next workflowId context run => exact ⟨workflowId, context, run, hx, Option.some.inj h⟩
  · cases h

theorem Operation.drives_of_runId? (h : log.Allowed op.Allows) (hr : log.runId? = some id) :
    op.Drives := by
  obtain ⟨workflowId, context, run, hm, _⟩ := Log.exists_createRun hr
  obtain ⟨before, _, ha⟩ := h.exists_before hm
  cases op with
  | execute e id context => trivial
  | trigger e id context kind triggeredBy => trivial
  | cancel id => cases ha
  | save w => cases ha
  | _ => exact ha.elim

/-- A cancellation is on its way with fewer than three answers and no update, or it has come back. -/
theorem Task.Lawful.cancel {rest : Work Reply} (h : Task.Lawful ⟨.cancel id, rest, log⟩) :
    (∃ q next, rest = .ask q next ∧ log.length < 3 ∧
      ∀ runId c expected r, ⟨.store (.updateRun runId c expected), r⟩ ∉ log) ∨
    ∃ r, rest = .done (.cancelled r) ∧ Cancelled id log r := by
  have hrest := h.rest
  cases rest with
  | ask q next =>
    refine Or.inl ⟨q, next, rfl, ?_⟩
    have hq : cancels id log q := hrest.1
    cases hq <;> simp
  | done r =>
    cases r with
    | cancelled r => exact Or.inr ⟨r, rfl, hrest⟩
    | _ => exact hrest.elim

namespace System

variable {s : System} {i j : Nat} {c : Change} {expected : Option String}

/-- A cancellation of a run has come back, telling whether the run was running. -/
def CancelReturned (s : System) (i : Nat) (id : String) (made : Bool) : Prop :=
  ∃ log, s.tasks[i]? = some ⟨.cancel id, .done (.cancelled (.ok made)), log⟩

/-- The outcome of a run is one, and all parties agree on it. -/
structure Agreed (s : System) (id : String) : Prop where
  one_cancel : ∀ i j, s.CancelReturned i id true → s.CancelReturned j id true → i = j
  /-- The driver comes back with the run as it is stored, which has ended. -/
  returned : ∀ t ∈ s.tasks, t.log.runId? = some id → ∀ r, t.rest = .done r →
    ∃ run, r = .run (.ok run) ∧ s.office.store.getRun id = .ok (some run) ∧ run.status.isTerminal
  cancelled_iff : ∀ run, s.office.store.getRun id = .ok (some run) →
    (run.status = .cancelled ↔ ∃ i, s.CancelReturned i id true)
  /-- The run has completed or failed when the last update of its driver was made. -/
  concluded_iff : ∀ run, s.office.store.getRun id = .ok (some run) →
    (run.status = .completed ∨ run.status = .failed ↔
      ∃ t ∈ s.tasks, t.log.runId? = some id ∧ ∃ index context error now,
        ⟨.store (.updateRun id (.final index context error now) Engine.runningName), .ok true⟩ ∈ t.log)

/-- Updates are those of the driver and those of cancellations. -/
theorem Orderly.asked_updateRun (h : s.Orderly) {r : Except Fault Bool}
    (ha : s.Asked i op ⟨.store (.updateRun id c expected), r⟩) :
    expected = Engine.runningName ∧
      ((∃ log n, s.At i op log ∧ log.runId? = some id ∧ c.Driven n ∧
          ⟨.store (.updateRun id c expected), r⟩ ∈ log) ∨
        (op = .cancel id ∧ ∃ now, c = .cancel now)) := by
  obtain ⟨log, hat, hm⟩ := ha
  obtain ⟨before, ⟨more, rfl⟩, hallowed⟩ := (h.allowed hat).exists_before hm
  obtain ⟨he, ⟨hr, w, _, hc⟩ | ⟨hop, hc, _⟩⟩ := hallowed.updateRun
  · exact ⟨he, Or.inl ⟨_, _, hat, Log.runId?_append hr, hc, hm⟩⟩
  · exact ⟨he, Or.inr ⟨hop, hc⟩⟩

theorem cancelReturned_iff (h : s.Orderly) (ht : s.Told) :
    s.CancelReturned i id true ↔ ∃ now, s.Asked i (.cancel id)
      ⟨.store (.updateRun id (.cancel now) Engine.runningName), .ok true⟩ := by
  constructor
  · rintro ⟨log, hi⟩
    have hends := (h.tasks _ (List.mem_of_getElem? hi)).rest
    obtain ⟨run, now, hlog⟩ : Cancelled id log (.ok true) := hends
    exact ⟨now, log, ⟨_, hi⟩, by simp [hlog]⟩
  · rintro ⟨now, log, ⟨rest, hi⟩, hm⟩
    rcases (h.tasks _ (List.mem_of_getElem? hi)).cancel with ⟨_, _, _, _, hn⟩ | ⟨r, rfl, hr⟩
    · exact absurd hm (hn _ _ _ _)
    · match r with
      | .ok made =>
        obtain ⟨run, now', rfl⟩ := hr
        obtain ⟨_, hmade⟩ : Change.cancel now = .cancel now' ∧ made = true := by
          simpa [eq_comm] using hm
        exact ⟨_, hmade ▸ hi⟩
      | .error f =>
        rcases hr with rfl | hr
        · simp at hm
        · exact absurd (ht.answered ⟨_, hi⟩) hr

theorem getRun_of_returned (h : s.Orderly) (ht : s.Told) {t : Task} (hmem : t ∈ s.tasks)
    (hr : t.log.runId? = some id) {r : Reply} (hrest : t.rest = .done r) :
    ∃ run, r = .run (.ok run) ∧ s.office.store.getRun id = .ok (some run) ∧ run.status.isTerminal := by
  -- A driver that has come back has read the run after its end.
  obtain ⟨i, hi⟩ := at_of_mem hmem
  have hdrives := Operation.drives_of_runId? (h.allowed hi) hr
  have hends : t.operation.Ends t.log r := by
    have hlawful := (h.tasks t hmem).rest
    rwa [hrest] at hlawful
  obtain ⟨result, rfl, hret⟩ := hends.returned hdrives
  have hret := hret (ht.answered hi) fun runId hm => ht.missed ⟨t.log, hi, hm⟩ hdrives
  match result with
  | .error f => exact nomatch hr.symm.trans hret
  | .ok run =>
    obtain ⟨before, runId, hlog, hid, hc⟩ := hret
    rw [hlog] at hi hr
    obtain rfl : runId = id := Option.some.inj ((Log.runId?_append hid).symm.trans hr)
    have hread := ht.read hi hc
    obtain ⟨st, run', hrun', rfl, hterm⟩ := ht.over_of_closed hi hc.append
    obtain rfl : run = run' := Option.some.inj (hread.symm.trans hrun')
    exact ⟨run, rfl, by rw [h.office.store.getRun_eq, hread], hterm⟩

theorem cancelReturned_of_cancelled (h : s.Orderly) (ht : s.Told) {run : Run}
    (hr : s.office.store.record? id = some run) (hs : run.status = .cancelled) :
    ∃ i, s.CancelReturned i id true := by
  obtain ⟨i, op, c, expected, hc, ha⟩ := ht.ended hr (by simp [hs])
  rw [hs] at hc
  -- A driver never sets this status.
  obtain ⟨rfl, ⟨_, _, _, _, hd, _⟩ | ⟨rfl, now, rfl⟩⟩ := h.asked_updateRun ha
  · cases hd <;> cases hc
  · exact ⟨i, (cancelReturned_iff h ht).mpr ⟨now, ha⟩⟩

theorem final_of_concluded (h : s.Orderly) (ht : s.Told) {run : Run}
    (hr : s.office.store.record? id = some run) (hs : run.status = .completed ∨ run.status = .failed) :
    ∃ t ∈ s.tasks, t.log.runId? = some id ∧ ∃ index context error now,
      ⟨.store (.updateRun id (.final index context error now) Engine.runningName), .ok true⟩ ∈ t.log := by
  have hne : run.status ≠ .running := by
    rcases hs with hs | hs <;> simp [hs]
  obtain ⟨i, op, c, expected, hc, ha⟩ := ht.ended hr hne
  obtain ⟨rfl, ⟨log, n, hat, hid, hd, hm⟩ | ⟨_, now, rfl⟩⟩ := h.asked_updateRun ha
  · obtain ⟨t, htm, rfl, rfl⟩ := hat.exists_mem
    refine ⟨t, htm, hid, ?_⟩
    cases hd with
    | checkpoint hi => cases hc
    | completed => exact ⟨_, _, _, _, hm⟩
    | failed hi he => exact ⟨_, _, _, _, hm⟩
  · -- A cancellation sets its own status only.
    have hcancelled : Status.cancelled = run.status := Option.some.inj hc
    rcases hs with hs | hs <;> exact nomatch hcancelled.trans hs

theorem agreed (h : s.Orderly) (ht : s.Told) (id : String) : s.Agreed id where
  one_cancel i j hi hj := by
    obtain ⟨now, hi⟩ := (cancelReturned_iff h ht).mp hi
    obtain ⟨now', hj⟩ := (cancelReturned_iff h ht).mp hj
    exact ht.unique hi rfl hj rfl
  returned t hmem hr r hrest := getRun_of_returned h ht hmem hr hrest
  cancelled_iff run hrun := by
    rw [h.office.store.getRun_eq, Except.ok.injEq] at hrun
    refine ⟨cancelReturned_of_cancelled h ht hrun, fun ⟨i, hi⟩ => ?_⟩
    obtain ⟨now, ha⟩ := (cancelReturned_iff h ht).mp hi
    obtain ⟨run', hrun', hs, _⟩ := ht.made ha rfl
    obtain rfl : run = run' := Option.some.inj (hrun.symm.trans hrun')
    exact hs
  concluded_iff run hrun := by
    rw [h.office.store.getRun_eq, Except.ok.injEq] at hrun
    refine ⟨final_of_concluded h ht hrun, ?_⟩
    rintro ⟨t, htm, _, index, context, error, now, hm⟩
    obtain ⟨i, hi⟩ := at_of_mem htm
    obtain ⟨run', hrun', hs, _⟩ := ht.made ⟨t.log, hi, hm⟩ rfl
    obtain rfl : run = run' := Option.some.inj (hrun.symm.trans hrun')
    rw [hs]
    cases error
    · exact Or.inl rfl
    · exact Or.inr rfl

/-! ### Cancellations that come too late -/

/-- From task number `n` on nobody updates a run, and everybody who looks for it finds it. -/
structure Late (n : Nat) (id : String) (s : System) : Prop where
  ended : ∃ st, s.Over id st
  updates : ∀ i op c expected, n ≤ i → ¬ s.Asked i op ⟨.store (.updateRun id c expected), .ok true⟩
  reads : ∀ i op, n ≤ i → ¬ s.Asked i op ⟨.store (.getRun id), .ok none⟩

variable {s' : System} {n : Nat}

theorem late_of_over {st : Status} (h : s.Over id st) : s.Late s.tasks.length id := by
  have hat : ∀ i op y, s.tasks.length ≤ i → ¬ s.Asked i op y := by
    rintro i op y hi ⟨log, ⟨rest, ht⟩, _⟩
    have hlt := (List.getElem?_eq_some_iff.mp ht).1
    omega
  exact ⟨⟨st, h⟩, fun i op c expected => hat i op _, fun i op => hat i op _⟩

theorem Exchange.late {x : (q : Call) × q.Answer} (hx : s.Exchange True i op log x s') (ho : s.Orderly)
    (h : s.Late n id) : s'.Late n id := by
  obtain ⟨st, hover⟩ := h.ended
  refine ⟨⟨st, hx.over_of ho hover⟩, fun j op' c expected hj ha => ?_, fun j op' hj ha => ?_⟩
  · rcases hx.asked_or ha with ha | ⟨_, _, rfl⟩
    · exact h.updates j op' c expected hj ha
    · -- An update would be of a run that is running.
      obtain ⟨run, hr, rfl, hterm⟩ := hover
      obtain ⟨old, hold, hs, _⟩ := hx.served.updateRun
      obtain rfl : old = run := Option.some.inj (hold.symm.trans hr)
      rw [hs] at hterm
      cases hterm
  · rcases hx.asked_or ha with ha | ⟨_, _, rfl⟩
    · exact h.reads j op' hj ha
    · obtain ⟨run, hr, _⟩ := hover
      cases hr.symm.trans hx.tells

theorem Quiet.late (hq : s.Quiet s') (h : s.Late n id) : s'.Late n id := by
  obtain ⟨st, hover⟩ := h.ended
  refine ⟨⟨st, hq.over_iff.mpr hover⟩, fun i op c expected hi ha => ?_, fun i op hi ha => ?_⟩
  · exact h.updates i op c expected hi (hq.asked_iff.mp ha)
  · exact h.reads i op hi (hq.asked_iff.mp ha)

theorem Late.cancel (hl : s.Late n id) (h : s.Orderly) (ht : s.Told) (hi : n ≤ i) {t : Task}
    (hget : s.tasks[i]? = some t) (hop : t.operation = .cancel id) :
    t.rest = .done (.cancelled (.ok false)) ∨
      t.log.length < 3 ∧ ∃ q next, t.rest = .ask q next := by
  obtain ⟨op, rest, log⟩ := t
  obtain rfl : op = .cancel id := hop
  rcases (h.tasks _ (List.mem_of_getElem? hget)).cancel with ⟨q, next, hrest, hlen, _⟩ | ⟨r, rfl, hr⟩
  · exact Or.inr ⟨hlen, q, next, hrest⟩
  · match r with
    | .ok false => exact Or.inl rfl
    | .ok true =>
      obtain ⟨run, now, rfl⟩ := hr
      exact absurd ⟨_, ⟨_, hget⟩, by simp⟩ (hl.updates i _ (.cancel now) Engine.runningName hi)
    | .error f =>
      rcases hr with rfl | hr
      · exact absurd ⟨_, ⟨_, hget⟩, by simp⟩ (hl.reads i (.cancel id) hi)
      · exact absurd (ht.answered ⟨_, hget⟩) hr

/-- However the calls take turns, a run has one outcome that all of them agree on, and a cancellation
that is called for after the end of the run comes back with false. -/
theorem run_agreed {o : Office} (ho : o.store.ids = []) (before after : List Event)
    (hc : ∀ ev ∈ before ++ after, ev.Calm) (id : String) :
    ((start o).run before).Agreed id ∧
      ∀ run, ((start o).run before).office.store.getRun id = .ok (some run) → run.status.isTerminal →
        ∀ i t, ((start o).run before).tasks.length ≤ i →
          (((start o).run before).run after).tasks[i]? = some t → t.operation = .cancel id →
            t.rest = .done (.cancelled (.ok false)) ∨
              t.log.length < 3 ∧ ∃ q next, t.rest = .ask q next := by
  have hsound := Office.sound_of_ids_nil ho
  have hquiet : ∀ s s' : System, s.Quiet s' → s.Driven ∧ s.Told → s'.Driven ∧ s'.Told :=
    fun s s' hq h => ⟨hq.driven h.1, hq.told h.2⟩
  obtain ⟨h, hd, ht⟩ := (orderly_start hsound).run_induction True
    (P := fun s => s.Driven ∧ s.Told) before (fun _ ev hev => hc ev (List.mem_append_left _ hev))
    ⟨driven_start ho, told_start hsound ho⟩ hquiet
    fun s s' i op log x ho hx h => ⟨hx.driven h.1, hx.told ho h.1 h.2⟩
  refine ⟨agreed h ht id, fun run hr hterm i t hi hget hop => ?_⟩
  rw [h.office.store.getRun_eq, Except.ok.injEq] at hr
  obtain ⟨h', ⟨_, ht'⟩, hl⟩ := h.run_induction True
    (P := fun s => (s.Driven ∧ s.Told) ∧ s.Late ((start o).run before).tasks.length id) after
    (fun _ ev hev => hc ev (List.mem_append_right _ hev))
    ⟨⟨hd, ht⟩, late_of_over ⟨run, hr, rfl, hterm⟩⟩ (fun s s' hq h => ⟨hquiet s s' hq h.1, hq.late h.2⟩)
    fun s s' i op log x ho hx h => ⟨⟨hx.driven h.1.1, hx.told ho h.1.1 h.1.2⟩, hx.late ho h.2⟩
  exact hl.cancel h' ht' hi hget hop

/-- A run that is cancelled before its first step, and a second cancellation of it after its end. -/
theorem run_agreed_cancelled :
    let s := (start .vacant).run (opening ++ .call (.cancel "run-1") :: turns 2 3 ++ turns 1 6)
    let s' := s.run (.call (.cancel "run-1") :: turns 3 3)
    s.Agreed "run-1" ∧ s.CancelReturned 2 "run-1" true ∧
      ∀ t, s'.tasks[3]? = some t → t.operation = .cancel "run-1" →
        t.rest = .done (.cancelled (.ok false)) ∨ t.log.length < 3 ∧ ∃ q next, t.rest = .ask q next := by
  intro s s'
  have hc : ∀ ev ∈ (opening ++ .call (.cancel "run-1") :: turns 2 3 ++ turns 1 6) ++
      (.call (.cancel "run-1") :: turns 3 3), Event.Calm ev := by
    simp [opening, turns, List.replicate, Event.Calm]
  obtain ⟨hs, hlate⟩ := run_agreed (o := .vacant) rfl _ _ hc "run-1"
  exact ⟨hs, ⟨_, rfl⟩, fun t hget hop => hlate _ rfl rfl 3 t (by decide) hget hop⟩

end System

end Conductor
