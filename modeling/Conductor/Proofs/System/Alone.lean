import Conductor.Proofs.System.Aims

/-! A run among others, and the same run alone. Where the world answers each call by what this call has asked,
what others do at the store makes no difference to a run: each question about it is answered alike in both
worlds, and each of its writes does the same. -/

namespace Conductor

/-- What happens next. -/
inductive Move where
  /-- A new call is made. -/
  | call (op : Operation)
  /-- A task is answered what it asks. -/
  | turn (task : Nat)
  /-- The store call of a task fails. -/
  | trouble (task : Nat) (f : Fault)
  | tick (now : Time)

/-- The task that goes on, if one does. -/
def Move.task? : Move → Option Nat
  | .turn j | .trouble j _ => some j
  | _ => none

/-- How the world answers each call, by what this call has asked. -/
abbrev Responses := Nat → Log Call.Answer → World

def Responses.still : Responses := fun _ _ => .still

/-- The moves in which no other task goes on than some. -/
def only (keep : Nat → Bool) (moves : List Move) : List Move := moves.filter fun m => m.task?.all keep

namespace Operation

def isCancelOf (id : String) : Operation → Bool
  | .cancel other => other = id
  | _ => false

def isSave : Operation → Bool
  | .save _ => true
  | _ => false

end Operation

namespace System

def event (w : Responses) (s : System) : Move → Event
  | .call op => .call op
  | .turn j => .proceed j (w j ((s.tasks[j]?.map Task.log).getD []))
  | .trouble j f => .trouble j f
  | .tick now => .tick now

def move (w : Responses) (s : System) (m : Move) : System := s.step (s.event w m)

def play (w : Responses) (s : System) (moves : List Move) : System := moves.foldl (move w) s

/-- The task is the driver of a run or a cancellation of it. -/
def concerns (s : System) (driver : Nat) (id : String) (j : Nat) : Bool :=
  j = driver || s.tasks[j]?.any (·.operation.isCancelOf id)

/-- The task saves a definition. -/
def saves (s : System) (j : Nat) : Bool := s.tasks[j]?.any (·.operation.isSave)

variable {w : Responses} {s s' a : System} {i j k : Nat} {op op' : Operation} {log log' : Log Call.Answer}
variable {id : String} {m : Move}

theorem play_append (before after : List Move) :
    s.play w (before ++ after) = (s.play w before).play w after :=
  List.foldl_append

theorem exists_play_eq_run (w : Responses) (s : System) (moves : List Move) :
    ∃ events, s.play w moves = s.run events := by
  induction moves generalizing s with
  | nil => exact ⟨[], rfl⟩
  | cons m moves ih =>
    obtain ⟨events, he⟩ := ih (s.move w m)
    exact ⟨s.event w m :: events, he⟩

theorem moves_move (w : Responses) (s : System) (m : Move) : s.Moves False (s.move w m) :=
  moves_step _ False.elim

/-- Nothing that was asked is forgotten. -/
theorem Orderly.at_move (h : s.Orderly) (w : Responses) (m : Move) (hat : s.At j op log) :
    ∃ more, (s.move w m).At j op (log ++ more) := by
  obtain ⟨_, hq | ⟨_, _, _, _, hx⟩⟩ := h.moves (moves_move w s m)
  · exact ⟨[], by simpa using hq.at_of hat⟩
  · exact hx.at_of hat

end System

/-! ### Two offices that match for one run -/

namespace Office

/-- What is stored of one run is the same; and the definitions are, where they are shared. -/
structure Matches (shared : Prop) (id : String) (o a : Office) : Prop where
  clock : a.clock = o.clock
  settle : a.store.settle = o.store.settle
  record : a.store.record? id = o.store.record? id
  cleared : shared → a.store.cleared = o.store.cleared

/-- A question that concerns one run only, at two offices. -/
def Concerns (shared : Prop) (id : String) (o a : Office) : StoreCall → Prop
  | .getWorkflow _ | .saveWorkflow _ => shared
  | .createRun _ _ => a.created = o.created ∧ runId (o.created + 1) = id
  | .updateRun other c expected => other = id ∧ expected = Engine.runningName ∧ c.Plain
  | .getRun other => other = id
  | .listRuns _ => False
  | .now => True

variable {shared : Prop} {id : String} {o o' a : Office} {c : StoreCall}

theorem clock_answer (o : Office) (c : StoreCall) : (o.answer c).2.clock = o.clock := by cases c <;> rfl

theorem settle_answer (o : Office) (c : StoreCall) : (o.answer c).2.store.settle = o.store.settle := by
  cases c with
  | saveWorkflow w => cases h : o.store <;> simp [Office.answer, h] <;> rfl
  | createRun workflowId context => exact Store.settle_createRun o.store _
  | updateRun id c expected => exact Store.settle_updateRun o.store id c expected
  | _ => rfl

theorem created_answer (o : Office) (hc : ∀ workflowId context, c ≠ .createRun workflowId context) :
    (o.answer c).2.created = o.created := by
  cases c with
  | createRun workflowId context => exact absurd rfl (hc workflowId context)
  | _ => rfl

/-- A question that concerns the run is answered alike, and does alike. -/
theorem Matches.answer (h : o.Matches shared id a) (ho : o.Sound) (ha : a.Sound)
    (hc : o.Concerns shared id a c) :
    (a.answer c).1 = (o.answer c).1 ∧ (o.answer c).2.Matches shared id (a.answer c).2 := by
  have hclock : (a.answer c).2.clock = (o.answer c).2.clock := by
    rw [clock_answer, clock_answer, h.clock]
  have hsettle : (a.answer c).2.store.settle = (o.answer c).2.store.settle := by
    rw [settle_answer, settle_answer, h.settle]
  cases c with
  | getWorkflow workflowId =>
    refine ⟨?_, h⟩
    change a.store.getWorkflow workflowId = o.store.getWorkflow workflowId
    rw [← Store.getWorkflow_cleared, h.cleared hc, Store.getWorkflow_cleared]
  | saveWorkflow w =>
    refine ⟨rfl, hclock, hsettle, ?_, fun hs => ?_⟩
    · exact (Store.record?_saveWorkflow a.store w id).trans
        (h.record.trans (Store.record?_saveWorkflow o.store w id).symm)
    · change (a.store.saveWorkflow w).cleared = (o.store.saveWorkflow w).cleared
      rw [Store.cleared_saveWorkflow, Store.cleared_saveWorkflow, h.cleared hs]
  | createRun workflowId context =>
    obtain ⟨hcreated, hid⟩ := hc
    have hrun : (a.answer (.createRun workflowId context)).1 =
        (o.answer (.createRun workflowId context)).1 := by
      rw [fst_createRun, fst_createRun, h.settle, hcreated, h.clock]
    refine ⟨hrun, hclock, hsettle, ?_, fun hs => ?_⟩
    · obtain ⟨_, _, hrec, _⟩ := (ho.createRun workflowId context).2.createRun
      obtain ⟨_, _, hrec', _⟩ := (ha.createRun workflowId context).2.createRun
      rw [id_createRun, hid] at hrec
      rw [id_createRun, hcreated, hid] at hrec'
      rw [hrec, hrec', hrun]
    · exact (Store.cleared_createRun a.store _).trans
        ((h.cleared hs).trans (Store.cleared_createRun o.store _).symm)
  | updateRun other c expected =>
    obtain ⟨rfl, rfl, hplain⟩ := hc
    have hfst : (a.answer (.updateRun other c Engine.runningName)).1 =
        (o.answer (.updateRun other c Engine.runningName)).1 := by
      change (a.store.updateRun _ _ _).1 = (o.store.updateRun _ _ _).1
      rw [ha.store.fst_updateRun hplain, ho.store.fst_updateRun hplain, h.record]
    refine ⟨hfst, hclock, hsettle, ?_, fun hs => ?_⟩
    · change (a.store.updateRun _ _ _).2.record? _ = (o.store.updateRun _ _ _).2.record? _
      rw [ha.store.record?_updateRun hplain, ho.store.record?_updateRun hplain, h.record, h.settle]
    · exact (Store.cleared_updateRun a.store _ _ _).trans
        ((h.cleared hs).trans (Store.cleared_updateRun o.store _ _ _).symm)
  | getRun other =>
    obtain rfl : other = id := hc
    refine ⟨?_, h⟩
    change a.store.getRun other = o.store.getRun other
    rw [ha.store.getRun_eq, ho.store.getRun_eq, h.record]
  | listRuns workflowId => exact hc.elim
  | now => exact ⟨h.clock, h⟩

/-- What others ask leaves the offices matching. -/
theorem Matches.other (h : o.Matches shared id a) (hs : o.Served ⟨.store c, (o.answer c).1⟩ (o.answer c).2)
    (hcreate : ∀ workflowId context, c = .createRun workflowId context → runId (o.created + 1) ≠ id)
    (hupdate : ∀ other change expected, c = .updateRun other change expected → other ≠ id)
    (hsave : shared → ∀ w, c ≠ .saveWorkflow w) : (o.answer c).2.Matches shared id a := by
  refine ⟨?_, ?_, ?_, fun hshared => ?_⟩
  · rw [clock_answer, h.clock]
  · rw [settle_answer, h.settle]
  · rw [h.record]
    cases hs with
    | made workflowId context run hx hn hi hrun hr =>
      obtain ⟨hq, hanswer⟩ := Sigma.mk.inj hx
      obtain rfl := Call.store.inj hq
      obtain rfl := eq_of_heq hanswer
      rw [hr, if_neg]
      rw [id_createRun]
      exact hcreate _ _ rfl
    | changed other change run hx hi hold hstatus hr =>
      obtain ⟨hq, _⟩ := Sigma.mk.inj hx
      rw [hr, if_neg (hupdate other change _ (Call.store.inj hq))]
    | kept hx hu hi hr => exact (hr id).symm
  · rw [Store.cleared_answer o (hsave hshared), h.cleared hshared]

end Office

/-! ### Two systems that match for one run -/

namespace Operation

variable {op : Operation} {log : Log Call.Answer} {id : String}

theorem eq_cancel_of_isCancelOf (h : op.isCancelOf id) : op = .cancel id := by
  cases op with
  | cancel other => exact congrArg cancel (of_decide_eq_true h)
  | _ => cases h

theorem exists_eq_save_of_isSave (h : op.isSave) : ∃ w, op = .save w := by
  cases op with
  | save w => exact ⟨w, rfl⟩
  | _ => cases h

theorem Allows.saveWorkflow {w : Workflow} (h : op.Allows log (.store (.saveWorkflow w))) : op.isSave := by
  cases op with
  | save w => rfl
  | cancel id => cases h
  | _ => exact h.elim

theorem Drives.workflowId?_ne_none (h : op.Drives) : op.workflowId? ≠ none := by
  cases op with
  | execute e id context => exact Option.some_ne_none _
  | trigger e id context kind triggeredBy => exact Option.some_ne_none _
  | _ => exact h.elim

theorem Drives.allows {q : Call} (h : op.Drives) (hq : op.Allows log q) : Engine.drives log q := by
  cases op with
  | execute e id context => exact hq
  | trigger e id context kind triggeredBy => exact hq
  | _ => exact h.elim

end Operation

namespace System

/-- Who is to go on: the driver of the run, cancellations of it and, where definitions are shared, those who
save one. No other call drives the run. -/
structure Destined (keep : Nat → Bool) (shared : Prop) (driver : Nat) (id : String) (s : System) : Prop where
  keep_iff : ∀ {j op log}, s.At j op log →
    (keep j ↔ j = driver ∨ op.isCancelOf id ∨ (shared ∧ op.isSave))
  runId : ∀ {j op log other}, s.At j op log → log.runId? = some other → (other = id ↔ j = driver)
  drives : ∀ {op log}, s.At driver op log → op.Drives

/-- The calls that go on are at the same place in both systems. Before the run is made, the other one is about
to make it under the same id. -/
structure Matches (keep : Nat → Bool) (shared : Prop) (driver : Nat) (id : String) (n : Nat)
    (s a : System) : Prop where
  length : a.tasks.length = s.tasks.length
  tasks : ∀ j, keep j → a.tasks[j]? = s.tasks[j]?
  office : s.office.Matches shared id a.office
  created : (∀ op log, s.At driver op log → log.runId? = none) → a.office.created = n

variable {w : Responses} {s a : System} {i j n : Nat} {op : Operation} {log : Log Call.Answer}
variable {id : String} {m : Move} {keep : Nat → Bool} {shared : Prop}

theorem Destined.of_move (hd : (s.move w m).Destined keep shared i id) (h : s.Orderly) :
    s.Destined keep shared i id where
  keep_iff hat := by
    obtain ⟨more, hat⟩ := h.at_move w m hat
    exact hd.keep_iff hat
  runId hat hr := by
    obtain ⟨more, hat⟩ := h.at_move w m hat
    exact hd.runId hat (Log.runId?_append hr)
  drives hat := by
    obtain ⟨more, hat⟩ := h.at_move w m hat
    exact hd.drives hat

theorem serve_of_ask {q : Call} {next : q.Answer → Work Reply} {r : q.Answer} {office : Office}
    {give : (q : Call) → Option (q.Answer × Office)} (h : s.tasks[j]? = some ⟨op, .ask q next, log⟩)
    (hg : give q = some (r, office)) :
    s.serve j give = ⟨office, s.tasks.set j ⟨op, next r, log ++ [⟨q, r⟩]⟩⟩ := by
  simp [serve, h, Task.answered?, hg]

theorem serve_of_none {give : (q : Call) → Option (q.Answer × Office)}
    (h : ∀ op q next log, s.tasks[j]? = some ⟨op, .ask q next, log⟩ → give q = none) :
    s.serve j give = s := by
  unfold serve
  cases ht : s.tasks[j]? with
  | none => rfl
  | some t =>
    obtain ⟨op, rest, log⟩ := t
    cases rest with
    | done r => rfl
    | ask q next => simp [Task.answered?, h op q next log ht]

theorem move_turn_of_ask {q : Call} {next : q.Answer → Work Reply}
    (h : s.tasks[j]? = some ⟨op, .ask q next, log⟩) :
    s.move w (.turn j) = match q, next with
      | .store c, next => ⟨(s.office.answer c).2, s.tasks.set j ⟨op, next (s.office.answer c).1,
          log ++ [⟨.store c, (s.office.answer c).1⟩]⟩⟩
      | .outside q, next => ⟨s.office, s.tasks.set j ⟨op, next (w j log q),
          log ++ [⟨.outside q, w j log q⟩]⟩⟩ := by
  cases q with
  | store c => exact serve_of_ask h rfl
  | outside q =>
    refine serve_of_ask h ?_
    rw [h]
    rfl

theorem move_turn_of_not_ask (h : ¬ ∃ op q next log, s.tasks[j]? = some ⟨op, .ask q next, log⟩) :
    s.move w (.turn j) = s :=
  serve_of_none fun op q next log hask => absurd ⟨op, q, next, log, hask⟩ h

/-- A run that is made is the one in question exactly if its driver makes it. -/
theorem Destined.id_createRun {workflowId : String} {context : Table Json} {next : Run → Work Reply}
    (hd : (s.move w (.turn j)).Destined keep shared i id)
    (ht : s.tasks[j]? = some ⟨op, .ask (.store (.createRun workflowId context)) next, log⟩)
    (hnone : log.runId? = none) : Office.runId (s.office.created + 1) = id ↔ j = i := by
  rw [← Office.id_createRun s.office workflowId context]
  rw [move_turn_of_ask ht] at hd
  have hlen : j < s.tasks.length := (List.getElem?_eq_some_iff.mp ht).1
  exact hd.runId ⟨_, List.getElem?_set_self hlen⟩ (Log.runId?_snoc_of_eq_none hnone)

/-- What the calls that go on ask concerns the run only, and the definitions where they are shared. -/
theorem Matches.concerns (h : s.Matches keep shared i id n a) (hs : s.Orderly)
    (hk : ∀ t ∈ s.tasks, t.Keeps Operation.Aims Operation.Attains)
    (hbegun : shared ∨ ∃ op log, s.At i op log ∧ log ≠ []) (hid : id = Office.runId (n + 1))
    (hd : (s.move w (.turn j)).Destined keep shared i id) (hj : keep j) {c : StoreCall}
    {next : c.Answer → Work Reply} (ht : s.tasks[j]? = some ⟨op, .ask (.store c) next, log⟩) :
    s.office.Concerns shared id a.office c := by
  have hat : s.At j op log := ⟨_, ht⟩
  have hmem := List.mem_of_getElem? ht
  have hallowed : op.Allows log (.store c) := (hs.tasks _ hmem).rest.1
  have haims : op.Aims log (.store c) := (hk _ hmem).1.1
  have hd' := hd.of_move hs
  rcases (hd'.keep_iff hat).mp hj with rfl | hcancel | ⟨hshared, hsave⟩
  · -- The driver of the run asks about the run that it has made, or makes it.
    have hdrives := hd'.drives hat
    have hq := hdrives.allows hallowed
    cases c with
    | getWorkflow workflowId =>
      rcases hbegun with hshared | ⟨op', log', hat', hne⟩
      · exact hshared
      · obtain ⟨_, rfl⟩ := hat.inj hat'
        exact absurd haims.2 hne
    | saveWorkflow w => exact hq.elim
    | createRun workflowId context =>
      have hmade := (hd.id_createRun ht hq.1).mpr rfl
      refine ⟨(h.created fun op' log' hat' => ?_).trans ?_, hmade⟩
      · obtain ⟨_, rfl⟩ := hat.inj hat'
        exact hq.1
      · have hn := Office.runId_injective (hmade.trans hid)
        omega
    | updateRun other change expected =>
      obtain ⟨rfl, hr, _, _, hdriven⟩ := hq
      exact ⟨(hd'.runId hat hr).mpr rfl, rfl, hdriven.plain⟩
    | getRun other => exact (hd'.runId hat hq).mpr rfl
    | listRuns workflowId => exact absurd haims hdrives.workflowId?_ne_none
    | now => trivial
  · obtain rfl := Operation.eq_cancel_of_isCancelOf hcancel
    have hq : cancels id log (.store c) := hallowed
    cases hq with
    | look => exact rfl
    | clock run => trivial
    | mark run now => exact ⟨rfl, rfl, Change.plain_cancel now⟩
  · obtain ⟨w, rfl⟩ := Operation.exists_eq_save_of_isSave hsave
    have hq : Call.store c = .store (.saveWorkflow w) := hallowed
    cases hq
    exact hshared

theorem At.set (h : s.At j op log) (office : Office) (rest : Work Reply) (new : Log Call.Answer) :
    At ⟨office, s.tasks.set j ⟨op, rest, new⟩⟩ j op new := by
  refine (at_set_iff h).mpr ?_
  rw [if_pos rfl]
  exact ⟨rfl, rfl⟩

/-- A call that goes on is answered alike in both systems. -/
theorem Matches.exchange (h : s.Matches keep shared i id n a) {q : Call} {next : q.Answer → Work Reply}
    (ht : s.tasks[j]? = some ⟨op, .ask q next, log⟩) (r : q.Answer) {os oa : Office}
    (ho : os.Matches shared id oa)
    (hcreated : oa.created = a.office.created ∨ j = i ∧ Log.runId? (log ++ [⟨q, r⟩]) ≠ none) :
    Matches keep shared i id n ⟨os, s.tasks.set j ⟨op, next r, log ++ [⟨q, r⟩]⟩⟩
      ⟨oa, a.tasks.set j ⟨op, next r, log ++ [⟨q, r⟩]⟩⟩ := by
  have hat : s.At j op log := ⟨_, ht⟩
  refine ⟨by simp [h.length], fun k hk => ?_, ho, fun hnone => ?_⟩
  · simp only [List.getElem?_set, h.length, h.tasks k hk]
  · rcases hcreated with hcreated | ⟨rfl, hmade⟩
    · refine hcreated.trans (h.created fun op' log' hat' => ?_)
      -- A run that is not made after the exchange was not made before it either.
      by_cases hji : j = i
      · subst hji
        obtain ⟨rfl, rfl⟩ := hat.inj hat'
        have hlater := hnone op _ (hat.set _ _ _)
        cases hr : log.runId? with
        | none => rfl
        | some made => exact (Log.runId?_append hr).symm.trans hlater
      · exact hnone op' log' ((at_set_iff hat).mpr (by rwa [if_neg (Ne.symm hji)]))
    · exact absurd (hnone op _ (hat.set _ _ _)) hmade

theorem Matches.turn (h : s.Matches keep shared i id n a) (hs : s.Orderly) (ha : a.Orderly)
    (hk : ∀ t ∈ s.tasks, t.Keeps Operation.Aims Operation.Attains)
    (hbegun : shared ∨ ∃ op log, s.At i op log ∧ log ≠ []) (hid : id = Office.runId (n + 1))
    (hd : (s.move w (.turn j)).Destined keep shared i id) (hj : keep j) :
    (s.move w (.turn j)).Matches keep shared i id n (a.move w (.turn j)) := by
  have htask := h.tasks j hj
  by_cases hask : ∃ op q next log, s.tasks[j]? = some ⟨op, .ask q next, log⟩
  · obtain ⟨op, q, next, log, ht⟩ := hask
    have ht' := htask.trans ht
    cases q with
    | outside q =>
      rw [move_turn_of_ask ht, move_turn_of_ask ht']
      exact h.exchange ht _ h.office (Or.inl rfl)
    | store c =>
      have hc := h.concerns hs hk hbegun hid hd hj ht
      obtain ⟨hanswer, hoffice⟩ := h.office.answer hs.office ha.office hc
      have hallowed : op.Allows log (.store c) := (hs.tasks _ (List.mem_of_getElem? ht)).rest.1
      rw [move_turn_of_ask ht, move_turn_of_ask ht']
      simp only [hanswer]
      refine h.exchange ht _ hoffice ?_
      by_cases hcreate : ∃ workflowId context, c = .createRun workflowId context
      · -- The run is made: from now on its number does not matter any more.
        obtain ⟨workflowId, context, rfl⟩ := hcreate
        have hnone := hallowed.createRun.1
        refine Or.inr ⟨(hd.id_createRun ht hnone).mp hc.2, ?_⟩
        rw [Log.runId?_snoc_of_eq_none hnone]
        exact Option.some_ne_none _
      · exact Or.inl (Office.created_answer a.office fun _ _ he => hcreate ⟨_, _, he⟩)
  · have hask' : ¬ ∃ op q next log, a.tasks[j]? = some ⟨op, .ask q next, log⟩ := htask.symm ▸ hask
    rwa [move_turn_of_not_ask hask, move_turn_of_not_ask hask']

/-- What another call is answered leaves the calls that go on where they are. -/
theorem Matches.skip (h : s.Matches keep shared i id n a) {rest : Work Reply}
    (ht : s.tasks[j]? = some ⟨op, rest, log⟩) (hj : ¬ keep j) (hji : j ≠ i) {os : Office}
    (ho : os.Matches shared id a.office) (rest' : Work Reply) (log' : Log Call.Answer) :
    Matches keep shared i id n ⟨os, s.tasks.set j ⟨op, rest', log'⟩⟩ a := by
  refine ⟨by simp [h.length], fun k hk => ?_, ho, fun hnone => h.created fun op'' log'' hat => ?_⟩
  · have hne : j ≠ k := fun he => hj (he ▸ hk)
    rw [h.tasks k hk, List.getElem?_set_ne hne]
  · exact hnone op'' log'' ((at_set_iff ⟨rest, ht⟩).mpr (by rwa [if_neg (Ne.symm hji)]))

theorem Destined.ne_of_not_keep (hd : s.Destined keep shared i id) (hat : s.At j op log) (hj : ¬ keep j) :
    j ≠ i :=
  fun he => hj ((hd.keep_iff hat).mpr (Or.inl he))

theorem Matches.turn_other (h : s.Matches keep shared i id n a) (hs : s.Orderly)
    (hd : (s.move w (.turn j)).Destined keep shared i id) (hj : ¬ keep j) :
    (s.move w (.turn j)).Matches keep shared i id n a := by
  have hd' := hd.of_move hs
  by_cases hask : ∃ op q next log, s.tasks[j]? = some ⟨op, .ask q next, log⟩
  · obtain ⟨op, q, next, log, ht⟩ := hask
    have hat : s.At j op log := ⟨_, ht⟩
    have hji := hd'.ne_of_not_keep hat hj
    cases q with
    | outside q =>
      rw [move_turn_of_ask ht]
      exact h.skip ht hj hji h.office _ _
    | store c =>
      have hallowed : op.Allows log (.store c) := (hs.tasks _ (List.mem_of_getElem? ht)).rest.1
      have hgives : s.office.Gives False (.store c) _ _ := .store c
      have hserved := (hgives.served hs.office hallowed.proper).2
      rw [move_turn_of_ask ht]
      refine h.skip ht hj hji (h.office.other hserved ?_ ?_ ?_) _ _
      · rintro workflowId context rfl hmade
        exact hji ((hd.id_createRun ht hallowed.createRun.1).mp hmade)
      · -- Others update the runs that they have made or are to cancel.
        rintro other change expected rfl rfl
        obtain ⟨_, ⟨hr, _⟩ | ⟨rfl, _⟩⟩ := hallowed.updateRun
        · exact hji ((hd'.runId hat hr).mp rfl)
        · exact hj ((hd'.keep_iff hat).mpr (Or.inr (Or.inl (decide_eq_true rfl))))
      · rintro hshared w rfl
        exact hj ((hd'.keep_iff hat).mpr (Or.inr (Or.inr ⟨hshared, hallowed.saveWorkflow⟩)))
  · rwa [move_turn_of_not_ask hask]

theorem Matches.trouble (h : s.Matches keep shared i id n a) (hd : s.Destined keep shared i id) (f : Fault) :
    (s.move w (.trouble j f)).Matches keep shared i id n
      (if keep j then a.move w (.trouble j f) else a) := by
  have hnone : ∀ b : System, (∀ op c next log, b.tasks[j]? = some ⟨op, .ask (.store c) next, log⟩ →
      c.failed? f = none) → b.move w (.trouble j f) = b := by
    refine fun b hb => serve_of_none fun op q next log hask => ?_
    cases q with
    | store c => simp only [hb op c next log hask, Option.map_none]
    | outside q => rfl
  -- Not every call of a store can fail, and a task may ask for something else.
  by_cases hfail : ∃ op c next log r, s.tasks[j]? = some ⟨op, .ask (.store c) next, log⟩ ∧
      c.failed? f = some r
  · obtain ⟨op, c, next, log, r, ht, hr⟩ := hfail
    have hmove : ∀ b : System, b.tasks[j]? = some ⟨op, .ask (.store c) next, log⟩ →
        b.move w (.trouble j f) =
          ⟨b.office, b.tasks.set j ⟨op, next r, log ++ [⟨.store c, r⟩]⟩⟩ := by
      refine fun b hb => serve_of_ask hb ?_
      simp only [hr, Option.map_some]
    rw [hmove s ht]
    split
    · next hj =>
      rw [hmove a ((h.tasks j hj).trans ht)]
      exact h.exchange ht r h.office (Or.inl rfl)
    · next hj => exact h.skip ht hj (hd.ne_of_not_keep ⟨_, ht⟩ hj) h.office _ _
  · have hstay : ∀ op c next log, s.tasks[j]? = some ⟨op, .ask (.store c) next, log⟩ →
        c.failed? f = none := by
      intro op c next log ht
      cases hr : c.failed? f with
      | none => rfl
      | some r => exact absurd ⟨op, c, next, log, r, ht, hr⟩ hfail
    rw [hnone s hstay]
    split
    · next hj => rwa [hnone a fun op c next log ht => hstay op c next log ((h.tasks j hj).symm.trans ht)]
    · exact h

theorem Matches.call (h : s.Matches keep shared i id n a) (op : Operation) :
    (s.move w (.call op)).Matches keep shared i id n (a.move w (.call op)) := by
  refine ⟨?_, fun k hk => ?_, h.office, fun hnone => h.created fun op' log' hat => ?_⟩
  · simp [move, event, step, h.length]
  · simp only [move, event, step, List.getElem?_append, h.length, h.tasks k hk]
  · exact hnone op' log' ((quiet_call s op).at_of hat)

theorem Matches.tick (h : s.Matches keep shared i id n a) (now : Time) :
    (s.move w (.tick now)).Matches keep shared i id n (a.move w (.tick now)) :=
  ⟨h.length, h.tasks, ⟨rfl, h.office.settle, h.office.record, h.office.cleared⟩, h.created⟩

/-- After one move the systems still match, where the other one makes it only for the calls that go on. -/
theorem Matches.move (h : s.Matches keep shared i id n a) (hs : s.Orderly) (ha : a.Orderly)
    (hk : ∀ t ∈ s.tasks, t.Keeps Operation.Aims Operation.Attains)
    (hbegun : shared ∨ ∃ op log, s.At i op log ∧ log ≠ []) (hid : id = Office.runId (n + 1))
    (hd : (s.move w m).Destined keep shared i id) :
    (s.move w m).Matches keep shared i id n (if m.task?.all keep then a.move w m else a) := by
  cases m with
  | call op => exact h.call op
  | tick now => exact h.tick now
  | trouble j f => exact h.trouble (hd.of_move hs) f
  | turn j =>
    by_cases hj : keep j
    · have hall : (Move.turn j).task?.all keep := hj
      rw [if_pos hall]
      exact h.turn hs ha hk hbegun hid hd hj
    · have hall : ¬ (Move.turn j).task?.all keep := hj
      rw [if_neg hall]
      exact h.turn_other hs hd hj

theorem Destined.of_play {moves : List Move} (hd : (s.play w moves).Destined keep shared i id)
    (h : s.Orderly) : s.Destined keep shared i id := by
  induction moves generalizing s with
  | nil => exact hd
  | cons m moves ih => exact (ih hd (h.moves (moves_move w s m)).1).of_move h

theorem Matches.play {moves : List Move} (h : s.Matches keep shared i id n a) (hs : s.Orderly)
    (ha : a.Orderly)
    (hk : ∀ t ∈ s.tasks, t.Keeps Operation.Aims Operation.Attains)
    (hbegun : shared ∨ ∃ op log, s.At i op log ∧ log ≠ []) (hid : id = Office.runId (n + 1))
    (hd : (s.play w moves).Destined keep shared i id) :
    (s.play w moves).Matches keep shared i id n (a.play w (only keep moves)) ∧
      (a.play w (only keep moves)).Orderly := by
  induction moves generalizing s a with
  | nil => exact ⟨h, ha⟩
  | cons m moves ih =>
    have hs' := (hs.moves (moves_move w s m)).1
    have hbegun' : shared ∨ ∃ op log, (s.move w m).At i op log ∧ log ≠ [] := by
      refine hbegun.imp_right fun ⟨op, log, hat, hne⟩ => ?_
      obtain ⟨more, hat⟩ := hs.at_move w m hat
      exact ⟨op, _, hat, List.append_ne_nil_of_left_ne_nil hne more⟩
    -- The end shows who drives the run; this is carried back to where the next move leaves the system.
    have hmove := h.move hs ha hk hbegun hid (Destined.of_play hd hs')
    have hk' := (moves_move w s m).keeps Operation.work_aims hk
    rw [only, List.filter_cons]
    split
    · next hall =>
      rw [if_pos hall] at hmove
      exact ih hmove hs' (ha.moves (moves_move w a m)).1 hk' hbegun' hd
    · next hall =>
      rw [if_neg hall] at hmove
      exact ih hmove hs' ha hk' hbegun' hd

/-- Where others come to an end, the calls that went on are left. -/
theorem Matches.narrow {keep' : Nat → Bool} (h : s.Matches keep shared i id n a)
    (hkeep : ∀ j, keep' j → keep j) : s.Matches keep' False i id n a :=
  ⟨h.length, fun j hj => h.tasks j (hkeep j hj),
    ⟨h.office.clock, h.office.settle, h.office.record, False.elim⟩, h.created⟩

/-! ### The end shows who drives a run -/

theorem orderly_play {o : Office} (ho : o.Sound) (w : Responses) (moves : List Move) :
    ((start o).play w moves).Orderly := by
  obtain ⟨events, he⟩ := exists_play_eq_run w (start o) moves
  exact he ▸ (orderly_start ho).run events

theorem driven_play {o : Office} (hi : o.store.ids = []) (w : Responses) (moves : List Move) :
    ((start o).play w moves).Driven := by
  obtain ⟨events, he⟩ := exists_play_eq_run w (start o) moves
  rw [he]
  exact ((orderly_start (Office.sound_of_ids_nil hi)).run_induction False (P := Driven) events False.elim
    (driven_start hi) (fun s s' hq h => hq.driven h) fun s s' i op log x _ hx h => hx.driven h).2

theorem keeps_play (o : Office) (w : Responses) (moves : List Move) :
    ∀ t ∈ ((start o).play w moves).tasks, t.Keeps Operation.Aims Operation.Attains := by
  obtain ⟨events, he⟩ := exists_play_eq_run w (start o) moves
  exact he ▸ keeps_run Operation.work_aims o events

/-- The id of a run is made from a number. -/
theorem exists_runId_eq (o : Office) (w : Responses) (moves : List Move)
    (hat : ((start o).play w moves).At i op log) (hr : log.runId? = some id) :
    ∃ n, id = Office.runId (n + 1) := by
  obtain ⟨events, he⟩ := exists_play_eq_run w (start o) moves
  rw [he] at hat
  obtain ⟨t, ht, _, rfl⟩ := hat.exists_mem
  obtain ⟨workflowId, context, run, hm, rfl⟩ := Log.exists_createRun hr
  obtain ⟨o', o'', hg⟩ := exists_gives o events t ht _ hm
  cases hg with
  | store c => exact ⟨o'.created, Office.id_createRun o' workflowId context⟩
  | trouble h ha => cases ha

theorem destined_of_driver (hs : s.Orderly) (hd : s.Driven) (hat : s.At i op log)
    (hr : log.runId? = some id)
    (hkeep : ∀ {j op log}, s.At j op log → (keep j ↔ j = i ∨ op.isCancelOf id ∨ (shared ∧ op.isSave))) :
    s.Destined keep shared i id where
  keep_iff := hkeep
  runId {j op' log' other} hat' hr' := by
    constructor
    · rintro rfl
      exact hd.unique hat' hat hr' hr
    · rintro rfl
      obtain ⟨_, rfl⟩ := hat.inj hat'
      exact Option.some.inj (hr'.symm.trans hr)
  drives hat' := by
    obtain ⟨rfl, _⟩ := hat.inj hat'
    exact Operation.drives_of_runId? (hs.allowed hat) hr

theorem concerns_iff (hat : s.At j op log) : s.concerns i id j ↔ j = i ∨ op.isCancelOf id := by
  obtain ⟨rest, ht⟩ := hat
  simp [System.concerns, ht]

theorem saves_iff (hat : s.At j op log) : s.saves j ↔ op.isSave := by
  obtain ⟨rest, ht⟩ := hat
  simp [saves, ht]

/-- As long as definitions are shared, all who save one go on as well. -/
theorem matches_before {o : Office} (hi : o.store.ids = []) (w : Responses) (before after : List Move)
    {n : Nat} (hat : ((start o).play w (before ++ after)).At i op log) (hr : log.runId? = some id)
    (hn : id = Office.runId (n + 1)) :
    let s := (start o).play w (before ++ after)
    let keep := fun j => s.concerns i id j || s.saves j
    let a := (start { o with created := n }).play w (only keep before)
    ((start o).play w before).Matches keep True i id n a ∧ a.Orderly := by
  intro s keep a
  have hsound := Office.sound_of_ids_nil hi
  have hs : s.Orderly := orderly_play hsound w _
  have hend : s.Destined keep True i id := by
    refine destined_of_driver hs (driven_play hi w _) hat hr fun hat' => ?_
    rw [Bool.or_eq_true, concerns_iff hat', saves_iff hat', or_assoc, true_and]
  have hsplit : s = ((start o).play w before).play w after := play_append before after
  rw [hsplit] at hend
  have hstart : (start o).Matches keep True i id n (start { o with created := n }) :=
    ⟨rfl, fun _ _ => rfl, ⟨rfl, rfl, rfl, fun _ => rfl⟩, fun _ => rfl⟩
  exact hstart.play (orderly_start hsound) (orderly_start (Office.sound_of_ids_nil hi))
    (fun _ ht => nomatch ht) (Or.inl trivial) hn (hend.of_play (orderly_play hsound w before))

/-- Whatever others do, a run comes to the same as alone. Once its driver has found the definition only the
driver and those who cancel the run need go on: each of them then asks, and is answered, the same, and the run
is stored as it is among the others. So it does not matter either what is saved after that. -/
theorem play_alone {o : Office} (hi : o.store.ids = []) (w : Responses) (before after : List Move) {i : Nat}
    {id : String}
    (hfound : (((start o).play w before).tasks[i]?.bind (·.log.definition?)).isSome)
    (hmade : ((start o).play w (before ++ after)).tasks[i]?.bind (·.log.runId?) = some id) :
    let s := (start o).play w (before ++ after)
    ∃ n, id = Office.runId (n + 1) ∧
      let a := (start { o with created := n }).play w
        (only (fun j => s.concerns i id j || s.saves j) before ++ only (s.concerns i id) after)
      (∀ j, s.concerns i id j → a.tasks[j]? = s.tasks[j]?) ∧
        a.office.store.getRun id = s.office.store.getRun id := by
  intro s
  have hsound := Office.sound_of_ids_nil hi
  obtain ⟨t, ht, hr⟩ := Option.bind_eq_some_iff.mp hmade
  obtain ⟨t₀, ht₀, hd₀⟩ := Option.bind_eq_some_iff.mp (Option.some_get hfound).symm
  have hat : s.At i t.operation t.log := ⟨t.rest, ht⟩
  have hs : s.Orderly := orderly_play hsound w _
  have hsplit : s = ((start o).play w before).play w after := play_append before after
  obtain ⟨n, hn⟩ := exists_runId_eq o w _ hat hr
  refine ⟨n, hn, ?_⟩
  obtain ⟨hmatches, ha⟩ := matches_before hi w before after hat hr hn
  -- Now the driver has found its definition, and it does not look for one again.
  have hbegun : t₀.log ≠ [] := by
    intro hnil
    rw [hnil] at hd₀
    cases hd₀
  have hdestined : (((start o).play w before).play w after).Destined (s.concerns i id) False i id := by
    rw [← hsplit]
    refine destined_of_driver hs (driven_play hi w _) hat hr fun hat' => ?_
    rw [concerns_iff hat', false_and, or_false]
  have hnarrow := hmatches.narrow fun j (hj : s.concerns i id j) => by simp [s, hj]
  obtain ⟨hend, ha'⟩ := hnarrow.play (orderly_play hsound w before) ha (keeps_play o w before)
    (Or.inr ⟨t₀.operation, t₀.log, ⟨t₀.rest, ht₀⟩, hbegun⟩) hn hdestined
  rw [play_append]
  rw [← hsplit] at hend
  refine ⟨hend.tasks, ?_⟩
  rw [ha'.office.store.getRun_eq, hs.office.store.getRun_eq, hend.office.record]

/-- A definition is saved, and two calls to carry it out have found it. -/
def together : List Move :=
  [.call (.save .single), .call (.execute .sample "w" []), .call (.execute .sample "w" []),
    .turn 0, .turn 1, .turn 1, .turn 2]

/-- Another definition is saved in its place, and one of the two runs is cancelled. -/
def apart : List Move :=
  [.call (.save { Workflow.single with enabled := false, steps := [], ids_nodup := List.nodup_nil }), .turn 3,
    .turn 2, .turn 1, .turn 2, .call (.cancel "run-2"), .turn 4, .turn 1, .turn 4, .turn 4] ++
      List.replicate 4 (.turn 1) ++ List.replicate 4 (.turn 2)

/-- Both runs, on their way together and apart. -/
def mingled : System := (start .vacant).play .still (together ++ apart)

/-- The run that is cancelled comes to what it would come to without the other one. -/
theorem play_alone_cancelled :
    let a := (start ⟨.memory .empty, .start, 1⟩).play .still
      (only (fun j => mingled.concerns 2 "run-2" j || mingled.saves j) together ++
        only (mingled.concerns 2 "run-2") apart)
    let run : Run := ⟨"run-2", "w", .cancelled, 0, [], none, .start, some .start, []⟩
    (((start .vacant).play .still together).tasks[2]?.bind (·.log.definition?)).isSome ∧
      mingled.tasks[2]?.bind (·.log.runId?) = some "run-2" ∧
      mingled.concerns 2 "run-2" 2 ∧ mingled.concerns 2 "run-2" 4 ∧
        a.tasks[2]? = mingled.tasks[2]? ∧ a.tasks[4]? = mingled.tasks[4]? ∧
          mingled.office.store.getRun "run-2" = .ok (some run) ∧
            a.office.store.getRun "run-2" = .ok (some run) := by
  have hfound : (((start .vacant).play .still together).tasks[2]?.bind (·.log.definition?)).isSome := by
    decide +kernel
  have hmade : mingled.tasks[2]?.bind (·.log.runId?) = some "run-2" := by decide +kernel
  have hdriver : mingled.concerns 2 "run-2" 2 := by decide +kernel
  have hcancel : mingled.concerns 2 "run-2" 4 := by decide +kernel
  have hid : "run-2" = Office.runId 2 := by decide
  obtain ⟨n, hn, htasks, hrun⟩ := play_alone (o := .vacant) rfl .still together apart hfound hmade
  obtain rfl : n = 1 := Nat.succ.inj (Office.runId_injective (hn.symm.trans hid))
  have hsame := htasks 2 hdriver
  have hsame' := htasks 4 hcancel
  intro a run
  have hstored : mingled.office.store.getRun "run-2" = .ok (some run) := rfl
  exact ⟨hfound, hmade, hdriver, hcancel, hsame, hsame', hstored, hrun.trans hstored⟩

end System

end Conductor
