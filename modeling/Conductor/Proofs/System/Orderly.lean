import Conductor.Proofs.System.Rules

/-! Orderly systems, in which every task keeps to the rule of its call. A step of such a system leaves the
stored runs alone, or it is one exchange of a task with its surroundings. -/

namespace Conductor

/-- What is left of a task keeps to the rule of its call, as did all that it has asked. -/
structure Task.Lawful (t : Task) : Prop where
  rest : t.rest.KeepsTo t.operation.Allows t.operation.Ends t.log
  log : t.log.Allowed t.operation.Allows

theorem Task.lawful_start (op : Operation) : (Task.start op).Lawful := ⟨op.work_keepsTo, .nil⟩

namespace System

/-- The office is sound and every task is lawful. -/
structure Orderly (s : System) : Prop where
  office : s.office.Sound
  tasks : ∀ t ∈ s.tasks, t.Lawful

/-- Task number `i` carries out `op` and has asked `log`. -/
def At (s : System) (i : Nat) (op : Operation) (log : Log Call.Answer) : Prop :=
  ∃ rest, s.tasks[i]? = some ⟨op, rest, log⟩

/-- Nothing happened to the stored runs, and at most a new task was added. -/
structure Quiet (s s' : System) : Prop where
  store : s'.office.store = s.office.store
  at_or : ∀ {i op log}, s'.At i op log → s.At i op log ∨ log = []
  at_of : ∀ {i op log}, s.At i op log → s'.At i op log

/-- Task number `i` asked a question and was answered; all other tasks are as before. -/
structure Exchange (calm : Prop) (s : System) (i : Nat) (op : Operation) (log : Log Call.Answer)
    (x : (q : Call) × q.Answer) (s' : System) : Prop where
  asking : s.At i op log
  allowed : op.Allows log x.1
  at_iff : ∀ {j op' log'}, s'.At j op' log' ↔
    if j = i then op' = op ∧ log' = log ++ [x] else s.At j op' log'
  served : s.office.Served x s'.office
  tells : s.office.Tells calm x

variable {calm : Prop} {s s' : System} {i j : Nat} {op op' : Operation} {log log' : Log Call.Answer}
variable {x : (q : Call) × q.Answer}

theorem at_of_mem {t : Task} (h : t ∈ s.tasks) : ∃ i, s.At i t.operation t.log := by
  obtain ⟨i, hi⟩ := List.mem_iff_getElem?.mp h
  exact ⟨i, t.rest, hi⟩

theorem At.exists_mem (h : s.At i op log) : ∃ t ∈ s.tasks, t.operation = op ∧ t.log = log := by
  obtain ⟨rest, h⟩ := h
  exact ⟨_, List.mem_of_getElem? h, rfl, rfl⟩

theorem At.inj (h : s.At i op log) (h' : s.At i op' log') : op = op' ∧ log = log' := by
  obtain ⟨rest, h⟩ := h
  obtain ⟨rest', h'⟩ := h'
  cases h.symm.trans h'
  exact ⟨rfl, rfl⟩

theorem not_at_start (o : Office) : ¬ (start o).At i op log := by
  rintro ⟨rest, h⟩
  cases h

theorem Orderly.allowed (h : s.Orderly) (ha : s.At i op log) : log.Allowed op.Allows := by
  obtain ⟨rest, ha⟩ := ha
  exact (h.tasks _ (List.mem_of_getElem? ha)).log

theorem orderly_start {o : Office} (h : o.Sound) : (start o).Orderly :=
  ⟨h, fun _ ht => nomatch ht⟩

theorem quiet_call (s : System) (op : Operation) :
    s.Quiet { s with tasks := s.tasks ++ [.start op] } := by
  refine ⟨rfl, ?_, ?_⟩
  · rintro i op' log ⟨rest, h⟩
    rw [List.getElem?_append] at h
    split at h
    · exact Or.inl ⟨rest, h⟩
    · -- The only task behind the old ones is the new one, which has asked nothing.
      obtain ht := List.mem_singleton.mp (List.mem_of_getElem? h)
      cases ht
      exact Or.inr rfl
  · rintro i op' log ⟨rest, h⟩
    have hi : i < s.tasks.length := (List.getElem?_eq_some_iff.mp h).1
    exact ⟨rest, (List.getElem?_append_left hi).trans h⟩

theorem at_set_iff {rest : Work Reply} {office : Office} {new : Log Call.Answer} (h : s.At i op log) :
    At ⟨office, s.tasks.set i ⟨op, rest, new⟩⟩ j op' log' ↔
      if j = i then op' = op ∧ log' = new else s.At j op' log' := by
  obtain ⟨old, h⟩ := h
  have hi : i < s.tasks.length := (List.getElem?_eq_some_iff.mp h).1
  by_cases hj : j = i
  · subst hj
    simp [At, hi, eq_comm]
  · simp [At, List.getElem?_set_ne (Ne.symm hj), hj]

/-- An orderly system stays so, and what a step of it does is nothing or an exchange. -/
theorem Orderly.moves (h : s.Orderly) (hm : s.Moves calm s') :
    s'.Orderly ∧ (s.Quiet s' ∨ ∃ i op log x, s.Exchange calm i op log x s') := by
  cases hm with
  | stay => exact ⟨h, Or.inl ⟨rfl, Or.inl, id⟩⟩
  | tick now => exact ⟨⟨⟨h.office.store, h.office.numbered⟩, h.tasks⟩, Or.inl ⟨rfl, Or.inl, id⟩⟩
  | call op =>
    refine ⟨⟨h.office, fun t ht => ?_⟩, Or.inl (quiet_call s op)⟩
    rcases List.mem_append.mp ht with ht | ht
    · exact h.tasks t ht
    · obtain rfl := List.mem_singleton.mp ht
      exact Task.lawful_start op
  | @exchange i op q next log r office ht hg =>
    -- The rule of the call admits the question, and so the answer does to the runs what it says.
    have hl := h.tasks _ (List.mem_of_getElem? ht)
    have hq : op.Allows log q := hl.rest.1
    obtain ⟨ho, hserved⟩ := hg.served h.office hq.proper
    refine ⟨⟨ho, fun t hmem => ?_⟩, Or.inr ⟨i, op, log, ⟨q, r⟩, ?_⟩⟩
    · rcases List.mem_or_eq_of_mem_set hmem with hmem | rfl
      · exact h.tasks t hmem
      · exact ⟨hl.rest.2 r, .snoc r hl.log hq⟩
    · have ha : s.At i op log := ⟨_, ht⟩
      exact ⟨ha, hq, at_set_iff ha, hserved, hg.tells h.office hq.proper⟩

/-- What holds at the start, and is kept by quiet steps and by exchanges, holds after every run. -/
theorem Orderly.run_induction {P : System → Prop} (h : s.Orderly) (calm : Prop) (events : List Event)
    (hc : calm → ∀ ev ∈ events, ev.Calm) (hs : P s)
    (hq : ∀ s s' : System, s.Quiet s' → P s → P s')
    (hx : ∀ (s s' : System) i op log x, s.Orderly → s.Exchange calm i op log x s' → P s → P s') :
    (s.run events).Orderly ∧ P (s.run events) := by
  refine System.run_induction calm (P := fun s => s.Orderly ∧ P s) events hc ⟨h, hs⟩ ?_
  rintro s s' hm ⟨h, hs⟩
  obtain ⟨h', hquiet | ⟨i, op, log, x, hex⟩⟩ := h.moves hm
  · exact ⟨h', hq s s' hquiet hs⟩
  · exact ⟨h', hx s s' i op log x h hex hs⟩

theorem Orderly.run (h : s.Orderly) (events : List Event) : (s.run events).Orderly := by
  refine System.run_induction False events False.elim h fun s s' hm h => ?_
  exact (h.moves hm).1

end System

end Conductor
