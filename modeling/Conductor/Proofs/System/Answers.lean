import Conductor.Proofs.System.Drivers

/-! What the answers that tasks were given still tell of the stored runs. A run that is known to have ended
has ended for good, by the one update that set its status. -/

namespace Conductor

theorem Run.Plain.isTerminal {r : Run} (hr : r.Plain) (hs : r.status ≠ .running) :
    r.status.isTerminal := by
  cases h : r.status with
  | running => exact absurd h hs
  | other name => exact absurd h (hr.named name)
  | _ => rfl

/-- The statuses that are set are those of runs that have ended. -/
theorem Operation.Allows.isTerminal {op : Operation} {log : Log Call.Answer} {runId : String}
    {c : Change} {expected : Option String} (h : op.Allows log (.store (.updateRun runId c expected)))
    {st : Status} (hc : c.status = some st) : st.isTerminal := by
  obtain ⟨_, ⟨_, _, _, hd⟩ | ⟨_, ⟨now, rfl⟩, _⟩⟩ := h.updateRun
  · cases hd with
    | checkpoint hi => cases hc
    | completed =>
      obtain rfl := Option.some.inj hc
      rfl
    | failed hi he =>
      obtain rfl := Option.some.inj hc
      rfl
  · obtain rfl := Option.some.inj hc
    rfl

namespace System

/-- A task was given an answer. -/
def Asked (s : System) (i : Nat) (op : Operation) (y : (q : Call) × q.Answer) : Prop :=
  ∃ log, s.At i op log ∧ y ∈ log

/-- A run is stored with a status that it keeps. -/
def Over (s : System) (id : String) (st : Status) : Prop :=
  ∃ run, s.office.store.record? id = some run ∧ run.status = st ∧ st.isTerminal

variable {s s' : System} {i j : Nat} {op op' : Operation} {log log' : Log Call.Answer}
variable {x y : (q : Call) × q.Answer} {id : String} {st st' : Status}

/-- What the answers tell, where no store call fails. -/
structure Told (s : System) : Prop where
  answered : ∀ {i op log}, s.At i op log → log.Trusted
  found : ∀ {i op id run}, s.Asked i op ⟨.store (.getRun id), .ok (some run)⟩ → id ∈ s.office.store.ids
  missed : ∀ {i op id}, s.Asked i op ⟨.store (.getRun id), .ok none⟩ → ¬ op.Drives
  refused : ∀ {i op id c expected}, s.Asked i op ⟨.store (.updateRun id c expected), .ok false⟩ →
    ∃ st, s.Over id st
  made : ∀ {i op id c expected st}, s.Asked i op ⟨.store (.updateRun id c expected), .ok true⟩ →
    c.status = some st → s.Over id st
  /-- What a task has read last, once it knew that the run had ended, is what is stored. -/
  read : ∀ {i op id run log}, s.At i op (log ++ [⟨.store (.getRun id), .ok (some run)⟩]) →
    Log.Closed log id → s.office.store.record? id = some run
  ended : ∀ {id run}, s.office.store.record? id = some run → run.status ≠ .running →
    ∃ i op c expected, c.status = some run.status ∧
      s.Asked i op ⟨.store (.updateRun id c expected), .ok true⟩
  unique : ∀ {i j op op' id c c' expected expected' st st'},
    s.Asked i op ⟨.store (.updateRun id c expected), .ok true⟩ → c.status = some st →
    s.Asked j op' ⟨.store (.updateRun id c' expected'), .ok true⟩ → c'.status = some st' → i = j

theorem Told.over_of_closed (ht : s.Told) (h : s.At i op log) (hc : log.Closed id) :
    ∃ st, s.Over id st := by
  -- Either an update was refused, or one was made that set a status.
  obtain ⟨c, made, hm, hs⟩ := hc
  cases made with
  | false => exact ht.refused ⟨log, h, hm⟩
  | true =>
    obtain ⟨st, hst⟩ := Option.isSome_iff_exists.mp (hs rfl)
    exact ⟨st, ht.made ⟨log, h, hm⟩ hst⟩

namespace Exchange

theorem asked_self (hx : s.Exchange True i op log x s') : s'.Asked i op x :=
  ⟨log ++ [x], hx.at_self, List.mem_concat_self⟩

theorem asked_of (hx : s.Exchange True i op log x s') (h : s.Asked j op' y) : s'.Asked j op' y := by
  obtain ⟨old, hat, hy⟩ := h
  obtain ⟨more, hat⟩ := hx.at_of hat
  exact ⟨old ++ more, hat, List.mem_append_left _ hy⟩

theorem asked_or (hx : s.Exchange True i op log x s') (h : s'.Asked j op' y) :
    s.Asked j op' y ∨ (j = i ∧ op' = op ∧ y = x) := by
  obtain ⟨new, hat, hy⟩ := h
  rcases hx.at_or hat with hat | ⟨rfl, rfl, rfl⟩
  · exact Or.inl ⟨new, hat, hy⟩
  · rcases List.mem_append.mp hy with hy | hy
    · exact Or.inl ⟨log, hx.asking, hy⟩
    · exact Or.inr ⟨rfl, rfl, List.mem_singleton.mp hy⟩

theorem over_of (hx : s.Exchange True i op log x s') (ho : s.Orderly) (h : s.Over id st) :
    s'.Over id st := by
  obtain ⟨run, hr, rfl, ht⟩ := h
  exact ⟨run, hx.served.record?_of_isTerminal ho.office hr ht, rfl, ht⟩

/-- A run that is updated with a status is running before and has this status afterwards. -/
theorem over_of_made (hx : s.Exchange True i op log x s') {c : Change} {expected : Option String}
    (hxe : x = ⟨.store (.updateRun id c expected), .ok true⟩) (hc : c.status = some st) :
    s'.Over id st ∧ ∀ st', ¬ s.Over id st' := by
  subst hxe
  obtain ⟨old, hold, hs, hnew⟩ := hx.served.updateRun
  refine ⟨⟨_, hnew, ?_, hx.allowed.isTerminal hc⟩, fun st' h => ?_⟩
  · rw [Store.settle_status]
    simp only [Run.apply, hc, Option.getD_some]
  · obtain ⟨run, hr, rfl, ht⟩ := h
    obtain rfl : old = run := Option.some.inj (hold.symm.trans hr)
    rw [hs] at ht
    cases ht

theorem mem_ids_of_updateRun (hx : s.Exchange True i op log x s') (hd : s.Driven) (ht : s.Told)
    {c : Change} {expected : Option String} {r : Except Fault Bool}
    (hxe : x = ⟨.store (.updateRun id c expected), r⟩) : id ∈ s.office.store.ids := by
  -- A driver has made the run, and a cancellation has found it.
  have hallowed := hx.allowed
  rw [hxe] at hallowed
  obtain ⟨_, ⟨hr, _⟩ | ⟨_, _, run, hm⟩⟩ := hallowed.updateRun
  · exact (hd.stored hx.asking hr).1
  · exact ht.found ⟨log, hx.asking, hm⟩

theorem over_of_refused (hx : s.Exchange True i op log x s') (ho : s.Orderly) (hd : s.Driven)
    (ht : s.Told) {c : Change} {expected : Option String}
    (hxe : x = ⟨.store (.updateRun id c expected), .ok false⟩) : ∃ st, s.Over id st := by
  have hm := hx.mem_ids_of_updateRun hd ht hxe
  have htells := hx.tells
  rw [hxe] at htells
  cases hr : s.office.store.record? id with
  | none => exact absurd hm (ho.office.store.record?_eq_none_iff.mp hr)
  | some run =>
    have hp := (ho.office.store.record?_plain hr).1
    exact ⟨run.status, run, hr, rfl, hp.isTerminal (htells run hr)⟩

theorem answered (hx : s.Exchange True i op log x s') (ht : s.Told) (h : s'.At j op' log') :
    log'.Trusted := by
  have htells := hx.tells
  rcases hx.at_or h with h | ⟨_, _, rfl⟩
  · exact ht.answered h
  -- The store is calm, so that the new answer is no failure.
  have hlog := ht.answered hx.asking
  constructor
  · intro id c expected f hm
    rcases List.mem_append.mp hm with hm | hm
    · exact hlog.updates id c expected f hm
    · obtain rfl := List.mem_singleton.mp hm
      exact htells trivial
  · intro id f hm
    rcases List.mem_append.mp hm with hm | hm
    · exact hlog.reads id f hm
    · obtain rfl := List.mem_singleton.mp hm
      exact htells trivial

theorem missed (hx : s.Exchange True i op log x s') (ho : s.Orderly) (hd : s.Driven) (ht : s.Told)
    (h : s'.Asked j op' ⟨.store (.getRun id), .ok none⟩) : ¬ op'.Drives := by
  rcases hx.asked_or h with h | ⟨_, rfl, rfl⟩
  · exact ht.missed h
  · intro hdrives
    have hr : log.runId? = some id := by
      have hallowed := hx.allowed
      cases op' with
      | execute e id context => exact hallowed
      | trigger e id context kind triggeredBy => exact hallowed
      | _ => exact hdrives.elim
    -- A driver reads the run that it has made, which is stored.
    exact ho.office.store.record?_eq_none_iff.mp hx.tells (hd.stored hx.asking hr).1

theorem read (hx : s.Exchange True i op log x s') (ho : s.Orderly) (ht : s.Told) {run : Run}
    (h : s'.At j op' (log' ++ [⟨.store (.getRun id), .ok (some run)⟩])) (hc : log'.Closed id) :
    s'.office.store.record? id = some run := by
  -- Before the step the run had ended already, so that it is stored as it was.
  suffices hs : s.office.store.record? id = some run ∧ ∃ st, s.Over id st by
    obtain ⟨hr, st, run', hr', rfl, hterm⟩ := hs
    obtain rfl : run = run' := Option.some.inj (hr.symm.trans hr')
    exact hx.served.record?_of_isTerminal ho.office hr hterm
  rcases hx.at_or h with h | ⟨_, _, hlog⟩
  · exact ⟨ht.read h hc, ht.over_of_closed h hc.append⟩
  · obtain ⟨rfl, hy⟩ := List.append_inj' hlog rfl
    obtain rfl := List.singleton_inj.mp hy
    exact ⟨hx.tells, ht.over_of_closed hx.asking hc⟩

theorem ended (hx : s.Exchange True i op log x s') (ht : s.Told) {run : Run}
    (hr : s'.office.store.record? id = some run) (hs : run.status ≠ .running) :
    ∃ j op' c expected, c.status = some run.status ∧
      s'.Asked j op' ⟨.store (.updateRun id c expected), .ok true⟩ := by
  have hold : s.office.store.record? id = some run → ∃ j op' c expected, c.status = some run.status ∧
      s'.Asked j op' ⟨.store (.updateRun id c expected), .ok true⟩ := by
    intro hr
    obtain ⟨j, op', c, expected, hc, ha⟩ := ht.ended hr hs
    exact ⟨j, op', c, expected, hc, hx.asked_of ha⟩
  cases hx.served with
  | made workflowId context new hxe hn hi hnew hrec =>
    rw [hrec] at hr
    split at hr
    · obtain rfl : new = run := Option.some.inj hr
      rw [hnew, Store.settle_status] at hs
      exact absurd rfl hs
    · exact hold hr
  | changed runId c old hxe hi hrold hrun hrec =>
    rw [hrec] at hr
    split at hr
    · next hid =>
      subst hid
      -- The status was running before, so that the change has set it.
      obtain rfl : s.office.store.settle (old.apply c) = run := Option.some.inj hr
      refine ⟨i, op, c, _, ?_, hxe ▸ hx.asked_self⟩
      rw [Store.settle_status] at hs ⊢
      cases hc : c.status with
      | none => exact absurd (by simp [Run.apply, hc, hrun]) hs
      | some st => simp [Run.apply, hc]
    · exact hold hr
  | kept hxe hu hi hrec => exact hold (hrec id ▸ hr)

theorem told (hx : s.Exchange True i op log x s') (ho : s.Orderly) (hd : s.Driven) (ht : s.Told) :
    s'.Told where
  answered := hx.answered ht
  missed := hx.missed ho hd ht
  read := hx.read ho ht
  ended := hx.ended ht
  found {j op' id run} h := by
    rcases hx.asked_or h with h | ⟨_, _, rfl⟩
    · exact hx.served.mem_ids (ht.found h)
    · exact hx.served.mem_ids (ho.office.store.record?_plain hx.tells).2.2
  refused {j op' id c expected} h := by
    rcases hx.asked_or h with h | ⟨_, _, hxe⟩
    · obtain ⟨st, hst⟩ := ht.refused h
      exact ⟨st, hx.over_of ho hst⟩
    · obtain ⟨st, hst⟩ := hx.over_of_refused ho hd ht hxe.symm
      exact ⟨st, hx.over_of ho hst⟩
  made {j op' id c expected st} h hc := by
    rcases hx.asked_or h with h | ⟨_, _, hxe⟩
    · exact hx.over_of ho (ht.made h hc)
    · exact (hx.over_of_made hxe.symm hc).1
  unique {j k op₁ op₂ id c₁ c₂ expected₁ expected₂ st₁ st₂} h₁ hc₁ h₂ hc₂ := by
    -- Of two updates that set a status the later one would be of a run that is over.
    rcases hx.asked_or h₁ with h₁ | ⟨hj, _, hx₁⟩
    · rcases hx.asked_or h₂ with h₂ | ⟨hk, _, hx₂⟩
      · exact ht.unique h₁ hc₁ h₂ hc₂
      · exact absurd (ht.made h₁ hc₁) ((hx.over_of_made hx₂.symm hc₂).2 st₁)
    · rcases hx.asked_or h₂ with h₂ | ⟨hk, _, hx₂⟩
      · exact absurd (ht.made h₂ hc₂) ((hx.over_of_made hx₁.symm hc₁).2 st₂)
      · exact hj.trans hk.symm

end Exchange

namespace Quiet

theorem asked_iff (hq : s.Quiet s') : s'.Asked i op y ↔ s.Asked i op y := by
  constructor
  · rintro ⟨log, hat, hy⟩
    rcases hq.at_or hat with hat | rfl
    · exact ⟨log, hat, hy⟩
    · cases hy
  · rintro ⟨log, hat, hy⟩
    exact ⟨log, hq.at_of hat, hy⟩

theorem over_iff (hq : s.Quiet s') : s'.Over id st ↔ s.Over id st := by
  unfold Over
  rw [hq.store]

theorem told (hq : s.Quiet s') (ht : s.Told) : s'.Told where
  answered {i op log} h := by
    rcases hq.at_or h with h | rfl
    · exact ht.answered h
    · exact ⟨fun _ _ _ _ => List.not_mem_nil, fun _ _ => List.not_mem_nil⟩
  found h := hq.store ▸ ht.found (hq.asked_iff.mp h)
  missed h := ht.missed (hq.asked_iff.mp h)
  refused h := by
    obtain ⟨st, hst⟩ := ht.refused (hq.asked_iff.mp h)
    exact ⟨st, hq.over_iff.mpr hst⟩
  made h hc := hq.over_iff.mpr (ht.made (hq.asked_iff.mp h) hc)
  read {i op id run log} h hc := by
    rcases hq.at_or h with h | h
    · exact hq.store ▸ ht.read h hc
    · simp at h
  ended h hs := by
    obtain ⟨i, op, c, expected, hc, ha⟩ := ht.ended (hq.store ▸ h) hs
    exact ⟨i, op, c, expected, hc, hq.asked_iff.mpr ha⟩
  unique h hc h' hc' := ht.unique (hq.asked_iff.mp h) hc (hq.asked_iff.mp h') hc'

end Quiet

theorem told_start {o : Office} (ho : o.Sound) (hi : o.store.ids = []) : (start o).Told := by
  have hat : ∀ {i op y}, ¬ (start o).Asked i op y := fun ⟨_, hat, _⟩ => not_at_start o hat
  refine ⟨fun h => absurd h (not_at_start o), fun h => absurd h hat, fun h => absurd h hat,
    fun h => absurd h hat, fun h => absurd h hat, fun h => absurd h (not_at_start o),
    fun {id run} h _ => ?_, fun h => absurd h hat⟩
  have hm : id ∈ o.store.ids := (ho.store.record?_plain h).2.2
  rw [hi] at hm
  cases hm

end System

end Conductor
