import Conductor.Proofs.System.Frozen

/-! The driver of a run is the task that made it, on the definition that it had found. Each stored run has
exactly one. -/

namespace Conductor

namespace System

/-- Task number `i` made a run, on the definition that it had found. -/
def StartedBy (s : System) (i : Nat) (id : String) (w : Workflow) : Prop :=
  ∃ op log, s.At i op log ∧ log.runId? = some id ∧ log.definition? = some w

/-- Every stored run has one driver, and every run that was made is stored. -/
structure Driven (s : System) : Prop where
  started : ∀ id ∈ s.office.store.ids, ∃ i w, s.StartedBy i id w
  stored : ∀ {i op log id}, s.At i op log → log.runId? = some id →
    id ∈ s.office.store.ids ∧ ∃ w, log.definition? = some w
  unique : ∀ {i j op op' log log' id}, s.At i op log → s.At j op' log' → log.runId? = some id →
    log'.runId? = some id → i = j

variable {calm : Prop} {s s' : System} {i j : Nat} {op op' : Operation} {log log' : Log Call.Answer}
variable {x : (q : Call) × q.Answer} {id : String} {w w' : Workflow}

theorem startedOn_iff : s.StartedOn id w ↔ ∃ i, s.StartedBy i id w := by
  constructor
  · rintro ⟨t, ht, hr, hd⟩
    obtain ⟨i, hi⟩ := at_of_mem ht
    exact ⟨i, t.operation, t.log, hi, hr, hd⟩
  · rintro ⟨i, op, log, hi, hr, hd⟩
    obtain ⟨t, ht, rfl, rfl⟩ := hi.exists_mem
    exact ⟨t, ht, hr, hd⟩

theorem Driven.startedBy_inj (h : s.Driven) (hi : s.StartedBy i id w) (hj : s.StartedBy j id w') :
    i = j ∧ w = w' := by
  obtain ⟨op, log, hat, hr, hd⟩ := hi
  obtain ⟨op', log', hat', hr', hd'⟩ := hj
  obtain rfl := h.unique hat hat' hr hr'
  obtain ⟨rfl, rfl⟩ := hat.inj hat'
  exact ⟨rfl, Option.some.inj (hd.symm.trans hd')⟩

namespace Exchange

theorem at_self (hx : s.Exchange calm i op log x s') : s'.At i op (log ++ [x]) := by
  apply hx.at_iff.mpr
  rw [if_pos rfl]
  exact ⟨rfl, rfl⟩

theorem at_or (hx : s.Exchange calm i op log x s') (h : s'.At j op' log') :
    s.At j op' log' ∨ (j = i ∧ op' = op ∧ log' = log ++ [x]) := by
  have h := hx.at_iff.mp h
  by_cases hj : j = i
  · rw [if_pos hj] at h
    exact Or.inr ⟨hj, h⟩
  · rw [if_neg hj] at h
    exact Or.inl h

theorem at_of (hx : s.Exchange calm i op log x s') (h : s.At j op' log') :
    ∃ more, s'.At j op' (log' ++ more) := by
  by_cases hj : j = i
  · subst hj
    obtain ⟨rfl, rfl⟩ := hx.asking.inj h
    exact ⟨[x], hx.at_self⟩
  · exact ⟨[], hx.at_iff.mpr (by simpa [hj] using h)⟩

/-- A task that drives a run afterwards drove it before, or it has just made the run. -/
theorem runId?_or (hx : s.Exchange calm i op log x s') (h : s'.At j op' log')
    (hr : log'.runId? = some id) :
    (∃ old more, log' = old ++ more ∧ s.At j op' old ∧ old.runId? = some id) ∨
      (j = i ∧ log' = log ++ [x] ∧ ∃ workflowId context run,
        x = ⟨.store (.createRun workflowId context), run⟩ ∧ run.id = id) := by
  rcases hx.at_or h with h | ⟨rfl, rfl, rfl⟩
  · exact Or.inl ⟨log', [], (List.append_nil _).symm, h, hr⟩
  · rcases Log.runId?_snoc hr with hr | hmade
    · exact Or.inl ⟨log, [x], rfl, hx.asking, hr⟩
    · exact Or.inr ⟨rfl, rfl, hmade⟩

theorem startedBy_of (hx : s.Exchange calm i op log x s') (hd : s.Driven)
    (hm : id ∈ s.office.store.ids) (h : s'.StartedBy j id w) : s.StartedBy j id w := by
  -- The task had made the run before, or the run would be new now.
  obtain ⟨op', log', hat, hr, hw⟩ := h
  rcases hx.runId?_or hat hr with ⟨old, more, rfl, hold, hr⟩ | ⟨_, _, workflowId, context, run, rfl, hid⟩
  · obtain ⟨_, w', hw'⟩ := hd.stored hold hr
    obtain rfl : w' = w := Option.some.inj ((Log.definition?_append hw').symm.trans hw)
    exact ⟨op', old, hold, hr, hw'⟩
  · exact absurd (hid ▸ hm) hx.served.createRun.1

theorem started (hx : s.Exchange calm i op log x s') (hd : s.Driven) (hm : id ∈ s'.office.store.ids) :
    ∃ j w, s'.StartedBy j id w := by
  by_cases hold : id ∈ s.office.store.ids
  · obtain ⟨j, w, op', log', hat, hr, hw⟩ := hd.started id hold
    obtain ⟨more, hat⟩ := hx.at_of hat
    exact ⟨j, w, op', _, hat, Log.runId?_append hr, Log.definition?_append hw⟩
  -- A run that is new was made by the task that was answered.
  have hallowed := hx.allowed
  have hat := hx.at_self
  cases hx.served with
  | made workflowId context run hxe hn hi hrun hrec =>
    subst hxe
    obtain ⟨hnone, w, hw⟩ := hallowed.createRun
    have hid : id = run.id := by
      rcases List.mem_append.mp (hi ▸ hm) with hm | hm
      · exact absurd hm hold
      · exact List.mem_singleton.mp hm
    subst hid
    exact ⟨i, w, op, _, hat, Log.runId?_snoc_of_eq_none hnone, Log.definition?_append hw⟩
  | changed runId c old hxe hi hold' hs hrec => exact absurd (hi ▸ hm) hold
  | kept hxe hu hi hrec => exact absurd (hi ▸ hm) hold

theorem stored (hx : s.Exchange calm i op log x s') (hd : s.Driven) (h : s'.At j op' log')
    (hr : log'.runId? = some id) :
    id ∈ s'.office.store.ids ∧ ∃ w, log'.definition? = some w := by
  rcases hx.runId?_or h hr with ⟨old, more, rfl, hold, hr⟩ |
    ⟨_, rfl, workflowId, context, run, rfl, hid⟩
  · obtain ⟨hm, w, hw⟩ := hd.stored hold hr
    exact ⟨hx.served.mem_ids hm, w, Log.definition?_append hw⟩
  · obtain ⟨_, hi, _⟩ := hx.served.createRun
    obtain ⟨_, w, hw⟩ := hx.allowed.createRun
    refine ⟨?_, w, Log.definition?_append hw⟩
    rw [hi, hid]
    exact List.mem_concat_self

theorem unique (hx : s.Exchange calm i op log x s') (hd : s.Driven) {k : Nat} {op₁ op₂ : Operation}
    {log₁ log₂ : Log Call.Answer} (h₁ : s'.At j op₁ log₁) (h₂ : s'.At k op₂ log₂)
    (hr₁ : log₁.runId? = some id) (hr₂ : log₂.runId? = some id) : j = k := by
  -- A driver of before has its run stored, and a run that is just made was not stored.
  rcases hx.runId?_or h₁ hr₁ with ⟨_, _, _, hold₁, hr₁⟩ | ⟨rfl, _, _, _, run, rfl, hid⟩
  · rcases hx.runId?_or h₂ hr₂ with ⟨_, _, _, hold₂, hr₂⟩ | ⟨rfl, _, _, _, run, rfl, hid⟩
    · exact hd.unique hold₁ hold₂ hr₁ hr₂
    · exact absurd (hid ▸ (hd.stored hold₁ hr₁).1) hx.served.createRun.1
  · rcases hx.runId?_or h₂ hr₂ with ⟨_, _, _, hold₂, hr₂⟩ | ⟨rfl, _⟩
    · exact absurd (hid ▸ (hd.stored hold₂ hr₂).1) hx.served.createRun.1
    · rfl

theorem driven (hx : s.Exchange calm i op log x s') (hd : s.Driven) : s'.Driven :=
  ⟨fun _ => hx.started hd, hx.stored hd, hx.unique hd⟩

end Exchange

namespace Quiet

/-- A new task has not made a run. -/
theorem at_of_runId? (hq : s.Quiet s') (h : s'.At i op log) (hr : log.runId? = some id) :
    s.At i op log := by
  rcases hq.at_or h with h | rfl
  · exact h
  · cases hr

theorem driven (hq : s.Quiet s') (hd : s.Driven) : s'.Driven where
  started id hm := by
    obtain ⟨i, w, op, log, h, hr, hw⟩ := hd.started id (hq.store ▸ hm)
    exact ⟨i, w, op, log, hq.at_of h, hr, hw⟩
  stored h hr := hq.store ▸ hd.stored (hq.at_of_runId? h hr) hr
  unique h h' hr hr' := hd.unique (hq.at_of_runId? h hr) (hq.at_of_runId? h' hr') hr hr'

end Quiet

theorem driven_start {o : Office} (ho : o.store.ids = []) : (start o).Driven := by
  refine ⟨fun id hm => ?_, fun h => absurd h (not_at_start o), fun h => absurd h (not_at_start o)⟩
  have hm : id ∈ o.store.ids := hm
  rw [ho] at hm
  cases hm

end System

end Conductor
