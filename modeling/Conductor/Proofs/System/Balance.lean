import Conductor.Proofs.Store.Listing
import Conductor.Proofs.System.Aims
import Conductor.Proofs.System.Refinement

/-! The balance of a workflow: its runs, counted by status, against the calls that carried it out or cancelled
a run of it. At every moment each run stands for one call, and what the counts of runs and calls differ by are
calls that are on their way. -/

namespace Conductor

theorem nodup_filterMap {α β : Type} {f : α → Option β} {l : List α}
    (h : ∀ (i j : Nat) a a' b, l[i]? = some a → l[j]? = some a' → f a = some b → f a' = some b → i = j) :
    (l.filterMap f).Nodup := by
  refine List.pairwise_filterMap.mpr (List.pairwise_iff_getElem.mpr fun i j hi hj hlt b hb b' hb' => ?_)
  rintro rfl
  have he := h i j _ _ b (List.getElem?_eq_getElem hi) (List.getElem?_eq_getElem hj) hb hb'
  omega

theorem countP_filterMap {α β : Type} (f : α → Option β) (p : β → Bool) (l : List α) :
    (l.filterMap f).countP p = l.countP fun a => (f a).any p := by
  rw [List.countP_filterMap]
  refine List.countP_congr fun a _ => ?_
  cases f a <;> rfl

/-- A count splits along a second property. -/
theorem countP_split {α : Type} (l : List α) (p q : α → Bool) :
    l.countP p = l.countP (fun a => q a && p a) + l.countP (fun a => !q a && p a) := by
  rw [List.countP_eq_countP_filter_add l p q, List.countP_filter, List.countP_filter]
  congr 1 <;> exact List.countP_congr fun a _ => by simp [and_comm]

namespace Stats

/-- The numbers of runs in a list, by status. -/
def tally (runs : List Run) : Stats :=
  ⟨runs.length, runs.countP (·.status = .running), runs.countP (·.status = .completed),
    runs.countP (·.status = .failed), runs.countP (·.status = .cancelled)⟩

variable {runs : List Run}

theorem ofRuns_eq_tally (h : ∀ run ∈ runs, run.Plain) : ofRuns runs = .ok (tally runs) := by
  suffices hfold : ∀ s : Stats, runs.foldlM addRun s = .ok ⟨s.total + (tally runs).total,
      s.running + (tally runs).running, s.completed + (tally runs).completed,
      s.failed + (tally runs).failed, s.cancelled + (tally runs).cancelled⟩ by
    simpa [zero, ofRuns] using hfold zero
  induction runs with
  | nil => exact fun s => rfl
  | cons run runs ih =>
    intro s
    have hp := h run List.mem_cons_self
    have ih := ih fun r hr => h r (List.mem_cons_of_mem _ hr)
    cases hs : run.status with
    | other name => exact absurd hs (hp.named name)
    | _ =>
      simp only [List.foldlM_cons, addRun, hp.written, Table.get?_nil, hs, add]
      refine (ih _).trans ?_
      simp [tally, hs]
      omega

/-- Every run has one of the four statuses. -/
theorem total_tally (h : ∀ run ∈ runs, run.Plain) :
    let s := tally runs
    s.total = s.running + s.completed + s.failed + s.cancelled := by
  induction runs with
  | nil => rfl
  | cons run runs ih =>
    have ih := ih fun r hr => h r (List.mem_cons_of_mem _ hr)
    simp only [tally] at ih
    cases hs : run.status with
    | other name => exact absurd hs ((h run List.mem_cons_self).named name)
    | _ =>
      simp [tally, hs]
      omega

end Stats

namespace Task

/-- The call has found a definition to carry out. -/
def hasFound (t : Task) : Bool := t.log.definition?.any t.operation.accepts

def hasMade (t : Task) : Bool := t.log.runId?.isSome

def isDone (t : Task) : Bool :=
  match t.rest with
  | .done _ => true
  | .ask _ _ => false

/-- The run that the call has come back with. -/
def returned? (t : Task) : Option Run :=
  match t.rest with
  | .done (.run (.ok run)) => some run
  | _ => none

/-- The run that the call has cancelled, as it has come back with. -/
def cancelled? (t : Task) : Option String :=
  match t.operation, t.rest with
  | .cancel id, .done (.cancelled (.ok true)) => some id
  | _, _ => none

theorem returned?_eq_some {t : Task} {run : Run} :
    t.returned? = some run ↔ t.rest = .done (.run (.ok run)) := by
  unfold returned?
  split
  · next found hrest => simp [hrest]
  · next hrest => simpa using hrest run

theorem isDone_iff {t : Task} : t.isDone ↔ ∃ r, t.rest = .done r := by
  unfold isDone
  split
  · next r hrest => simp [hrest]
  · next q next hrest => simp [hrest]

end Task

/-- The call has failed. -/
def Reply.Fails : Reply → Prop
  | .run (.error _) | .cancelled (.error _) | .runs (.error _) | .stats (.error _) => True
  | _ => False

namespace System

/-- The run that a call on a workflow has made, as it is stored. -/
def runOf? (s : System) (workflowId : String) (t : Task) : Option Run :=
  if t.operation.workflowId? = some workflowId then t.log.runId?.bind s.office.store.record? else none

/-- The calls on a workflow with some property. -/
def calls (s : System) (workflowId : String) (p : Task → Bool) : Nat :=
  s.tasks.countP fun t => t.operation.workflowId? = some workflowId && p t

/-- The calls that have found what to carry out, and have not made a run yet. -/
def starting (s : System) (workflowId : String) : Nat :=
  s.calls workflowId fun t => t.hasFound && !t.hasMade

/-- The calls that are on their way although their run has ended. -/
def closing (s : System) (workflowId : String) (st : Status) : Nat :=
  s.tasks.countP fun t => !t.isDone && (s.runOf? workflowId t).any (·.status = st)

/-- What is listed and counted of a workflow agrees with the calls on it. -/
structure Balanced (s : System) (workflowId : String) (runs : List Run) (stats : Stats) : Prop where
  listed : stats.total = runs.length
  found : stats.total + s.starting workflowId = s.calls workflowId Task.hasFound
  sum : stats.total = stats.running + stats.completed + stats.failed + stats.cancelled
  cancelled : stats.cancelled =
    s.tasks.countP fun t => t.cancelled?.any fun id => runs.any (·.id = id)
  completed : stats.completed = s.closing workflowId .completed +
    s.calls workflowId fun t => t.returned?.any (·.status = .completed)
  failed : stats.failed = s.closing workflowId .failed +
    s.calls workflowId fun t => t.returned?.any (·.status = .failed)
  running : stats.running + s.starting workflowId + s.closing workflowId .completed +
    s.closing workflowId .failed + s.closing workflowId .cancelled =
      s.calls workflowId fun t => t.hasFound && !t.isDone

/-- Every call that has found a workflow has come back, or its run is running. -/
def Settled (s : System) (workflowId : String) : Prop :=
  ∀ t ∈ s.tasks, t.operation.workflowId? = some workflowId → t.hasFound →
    t.isDone ∨ (s.runOf? workflowId t).any (·.status = .running)

instance (s : System) (workflowId : String) : Decidable (s.Settled workflowId) :=
  inferInstanceAs (Decidable (∀ t ∈ s.tasks, _))

/-- Each run has one place in the store, and keeps the workflow that it was made for. -/
structure Kept (s : System) : Prop where
  nodup : s.office.store.ids.Nodup
  made : ∀ {i op workflowId context run}, s.Asked i op ⟨.store (.createRun workflowId context), run⟩ →
    ∃ stored, s.office.store.record? run.id = some stored ∧ stored.workflowId = workflowId

end System

theorem Office.Served.workflowId {o o' : Office} {x : (q : Call) × q.Answer} (h : o.Served x o')
    (ho : o.Sound) {id : String} {run : Run} (hr : o.store.record? id = some run) :
    ∃ stored, o'.store.record? id = some stored ∧ stored.workflowId = run.workflowId := by
  cases h with
  | made workflowId context new hx hn hi hnew hrec =>
    have hne : new.id ≠ id := fun he => hn (he ▸ (ho.store.record?_plain hr).2.2)
    exact ⟨run, by rw [hrec, if_neg hne, hr], rfl⟩
  | changed runId c old hx hi hold hs hrec =>
    rw [hrec]
    split
    · next hid =>
      subst hid
      obtain rfl : old = run := Option.some.inj (hold.symm.trans hr)
      exact ⟨_, rfl, Store.settle_workflowId _ _⟩
    · exact ⟨run, hr, rfl⟩
  | kept hx hu hi hrec => exact ⟨run, (hrec id).trans hr, rfl⟩

namespace System

variable {s s' : System} {i : Nat} {op : Operation} {log : Log Call.Answer} {x : (q : Call) × q.Answer}

theorem Exchange.kept (hx : s.Exchange True i op log x s') (ho : s.Orderly) (hk : s.Kept) : s'.Kept where
  nodup := by
    cases hx.served with
    | made workflowId context run hxe hn hi hrun hrec =>
      rw [hi]
      exact List.nodup_append_comm.mp (List.nodup_cons.mpr ⟨hn, hk.nodup⟩)
    | changed runId c run hxe hi hold hs hrec => exact hi ▸ hk.nodup
    | kept hxe hu hi hrec => exact hi ▸ hk.nodup
  made {j op' workflowId context run} h := by
    rcases hx.asked_or h with h | ⟨_, _, rfl⟩
    · obtain ⟨stored, hstored, rfl⟩ := hk.made h
      exact hx.served.workflowId ho.office hstored
    · refine ⟨run, hx.served.createRun.2.2.1, ?_⟩
      cases hx.served with
      | made workflowId context run hxe hn hi hrun hrec =>
        cases hxe
        rw [hrun, Store.settle_workflowId]
        rfl
      | changed runId c run hxe hi hold hs hrec => cases hxe
      | kept hxe hu hi hrec => exact absurd rfl (hxe _ _ _)

theorem Quiet.kept (hq : s.Quiet s') (hk : s.Kept) : s'.Kept where
  nodup := hq.store ▸ hk.nodup
  made h := hq.store ▸ hk.made (hq.asked_iff.mp h)

/-- All that is known of a system that began without runs and in which no store call has failed. -/
structure Reckoned (s : System) : Prop where
  orderly : s.Orderly
  driven : s.Driven
  told : s.Told
  kept : s.Kept
  aimed : ∀ t ∈ s.tasks, t.Aimed

theorem reckoned_run {o : Office} (hi : o.store.ids = []) (hf : o.store.Filed) (events : List Event)
    (hc : ∀ ev ∈ events, ev.Calm) : ((start o).run events).Reckoned := by
  have hsound := Office.sound_of_ids_nil hi
  have hkept : (start o).Kept := by
    refine ⟨?_, fun ⟨_, hat, _⟩ => absurd hat (not_at_start o)⟩
    rw [show (start o).office.store.ids = [] from hi]
    exact List.nodup_nil
  obtain ⟨h, hd, ht, hk⟩ := (orderly_start hsound).run_induction True
    (P := fun s => s.Driven ∧ s.Told ∧ s.Kept) events (fun _ => hc)
    ⟨driven_start hi, told_start hsound hi, hkept⟩
    (fun s s' hq h => ⟨hq.driven h.1, hq.told h.2.1, hq.kept h.2.2⟩)
    fun s s' i op log x ho hx h => ⟨hx.driven h.1, hx.told ho h.1 h.2.1, hx.kept ho h.2.2⟩
  exact ⟨h, hd, ht, hk, aimed_run hf events⟩

namespace Reckoned

variable {t : Task} {id workflowId : String} {run : Run}

/-- A run that was made is stored, as one of the workflow that its call is on. -/
theorem stored (h : s.Reckoned) (ht : t ∈ s.tasks) (hr : t.log.runId? = some id) :
    (∃ run, s.office.store.record? id = some run ∧ t.operation.workflowId? = some run.workflowId) ∧
      t.hasFound := by
  obtain ⟨i, hi⟩ := at_of_mem ht
  obtain ⟨_, context, made, hm, rfl⟩ := Log.exists_createRun hr
  obtain ⟨run, hrun, rfl⟩ := h.kept.made ⟨t.log, hi, hm⟩
  obtain ⟨hid, w, hw, ha⟩ := (h.aimed t ht).made _ _ _ hm
  refine ⟨⟨run, hrun, hid⟩, ?_⟩
  rw [Task.hasFound, hw]
  exact ha

theorem runOf?_eq_some (h : s.Reckoned) (ht : t ∈ s.tasks) :
    s.runOf? workflowId t = some run ↔ t.log.runId? = some run.id ∧
      s.office.store.record? run.id = some run ∧ run.workflowId = workflowId := by
  unfold runOf?
  constructor
  · intro hr
    split at hr
    · next hid =>
      obtain ⟨id, hmade, hrec⟩ := Option.bind_eq_some_iff.mp hr
      obtain rfl := (h.orderly.office.store.record?_plain hrec).2.1
      obtain ⟨⟨run', hrec', hw⟩, _⟩ := h.stored ht hmade
      obtain rfl : run = run' := Option.some.inj (hrec.symm.trans hrec')
      exact ⟨hmade, hrec, Option.some.inj (hw.symm.trans hid)⟩
    · cases hr
  · rintro ⟨hmade, hrec, rfl⟩
    obtain ⟨⟨run', hrec', hw⟩, _⟩ := h.stored ht hmade
    obtain rfl : run = run' := Option.some.inj (hrec.symm.trans hrec')
    rw [if_pos hw, hmade, Option.bind_some, hrec]

/-- The stored runs of a workflow are those that calls on it have made, each by one call. -/
theorem records_perm (h : s.Reckoned) (workflowId : String) :
    (s.office.store.records.filter (·.workflowId = workflowId)).Perm
      (s.tasks.filterMap (s.runOf? workflowId)) := by
  have hsound := h.orderly.office.store
  have hrecords : s.office.store.records.Nodup :=
    List.Nodup.of_map Run.id (hsound.ids_records ▸ h.kept.nodup)
  refine (List.perm_ext_iff_of_nodup (hrecords.filter _) (nodup_filterMap ?_)).mpr fun run => ?_
  · intro i j t t' run hi hj hr hr'
    -- Two calls that have made the same run are one.
    have hmade := ((h.runOf?_eq_some (List.mem_of_getElem? hi)).mp hr).1
    have hmade' := ((h.runOf?_eq_some (List.mem_of_getElem? hj)).mp hr').1
    exact h.driven.unique ⟨_, hi⟩ ⟨_, hj⟩ hmade hmade'
  · rw [List.mem_filter, hsound.mem_records, List.mem_filterMap, decide_eq_true_eq]
    constructor
    · rintro ⟨hrec, hw⟩
      obtain ⟨i, w, op, log, hat, hr, _⟩ := h.driven.started run.id (hsound.record?_plain hrec).2.2
      obtain ⟨t, ht, rfl, rfl⟩ := hat.exists_mem
      exact ⟨t, ht, (h.runOf?_eq_some ht).mpr ⟨hr, hrec, hw⟩⟩
    · rintro ⟨t, ht, hr⟩
      exact ((h.runOf?_eq_some ht).mp hr).2

theorem plain_runOf? (h : s.Reckoned) (ht : t ∈ s.tasks) (hr : s.runOf? workflowId t = some run) :
    run.Plain :=
  (h.orderly.office.store.record?_plain ((h.runOf?_eq_some ht).mp hr).2.1).1

/-- A call on a workflow comes back with a run exactly if it has made one, and then with this run as it is
stored, which has ended. -/
theorem returned?_eq_some_iff (h : s.Reckoned) (ht : t ∈ s.tasks) :
    t.operation.workflowId? = some workflowId ∧ t.returned? = some run ↔
      t.isDone ∧ s.runOf? workflowId t = some run := by
  rw [Task.returned?_eq_some, h.runOf?_eq_some ht, Task.isDone_iff]
  constructor
  · rintro ⟨hid, hrest⟩
    obtain ⟨i, hi⟩ := at_of_mem ht
    have hdrives := Operation.drives_of_workflowId? hid
    have hends := (h.orderly.tasks t ht).rest
    rw [hrest] at hends
    obtain ⟨_, hreply, hret⟩ := Operation.Ends.returned hends hdrives
    cases hreply
    obtain ⟨before, id, hlog, hr, hclosed⟩ := hret (h.told.answered hi) fun runId hm =>
      h.told.missed ⟨t.log, hi, hm⟩ hdrives
    rw [hlog] at hi
    have hrec := h.told.read hi hclosed
    obtain rfl := (h.orderly.office.store.record?_plain hrec).2.1
    have hmade : t.log.runId? = some run.id := hlog ▸ Log.runId?_append hr
    obtain ⟨⟨run', hrec', hw⟩, _⟩ := h.stored ht hmade
    obtain rfl : run = run' := Option.some.inj (hrec.symm.trans hrec')
    exact ⟨⟨_, hrest⟩, hmade, hrec, Option.some.inj (hw.symm.trans hid)⟩
  · rintro ⟨⟨r, hrest⟩, hmade, hrec, hw⟩
    obtain ⟨⟨run', hrec', hid⟩, _⟩ := h.stored ht hmade
    obtain ⟨found, rfl, hget, _⟩ := getRun_of_returned h.orderly h.told ht hmade hrest
    rw [h.orderly.office.store.getRun_eq, Except.ok.injEq] at hget
    obtain rfl : run = run' := Option.some.inj (hrec.symm.trans hrec')
    obtain rfl : run = found := Option.some.inj (hrec.symm.trans hget)
    exact ⟨hw ▸ hid, hrest⟩

theorem isTerminal_of_isDone (h : s.Reckoned) (ht : t ∈ s.tasks) (hd : t.isDone)
    (hr : s.runOf? workflowId t = some run) : run.status.isTerminal := by
  obtain ⟨r, hrest⟩ := Task.isDone_iff.mp hd
  obtain ⟨hmade, hrec, _⟩ := (h.runOf?_eq_some ht).mp hr
  obtain ⟨found, _, hget, hterm⟩ := getRun_of_returned h.orderly h.told ht hmade hrest
  rw [h.orderly.office.store.getRun_eq, hrec] at hget
  cases hget
  exact hterm

/-- The runs of the calls with some property, by status: each call has one run at most. -/
theorem tally_filter (h : s.Reckoned) (workflowId : String) (p : Task → Bool) :
    let runs := (s.tasks.filter p).filterMap (s.runOf? workflowId)
    (s.tasks.countP fun t => p t && (s.runOf? workflowId t).isSome) =
      runs.countP (·.status = .running) + runs.countP (·.status = .completed) +
        runs.countP (·.status = .failed) + runs.countP (·.status = .cancelled) := by
  intro runs
  have hplain : ∀ run ∈ runs, run.Plain := by
    intro run hrun
    obtain ⟨t, ht, hr⟩ := List.mem_filterMap.mp hrun
    exact h.plain_runOf? (List.mem_filter.mp ht).1 hr
  calc
    _ = runs.length := by
      rw [List.length_filterMap_eq_countP, List.countP_filter]
      exact List.countP_congr fun t _ => by simp [and_comm]
    _ = _ := Stats.total_tally hplain

theorem hasMade_iff (h : s.Reckoned) (ht : t ∈ s.tasks) :
    (t.operation.workflowId? = some workflowId ∧ t.hasMade) ↔ (s.runOf? workflowId t).isSome := by
  constructor
  · rintro ⟨hid, hmade⟩
    obtain ⟨id, hr⟩ := Option.isSome_iff_exists.mp hmade
    obtain ⟨⟨run, hrec, _⟩, _⟩ := h.stored ht hr
    rw [runOf?, if_pos hid, hr, Option.bind_some, hrec]
    rfl
  · intro hsome
    obtain ⟨run, hrun⟩ := Option.isSome_iff_exists.mp hsome
    obtain ⟨hr, hrec, hw⟩ := (h.runOf?_eq_some ht).mp hrun
    obtain ⟨⟨run', hrec', hid⟩, _⟩ := h.stored ht hr
    obtain rfl : run = run' := Option.some.inj (hrec.symm.trans hrec')
    exact ⟨hw ▸ hid, by rw [Task.hasMade, hr]; rfl⟩

/-- A call that has found what to carry out does not come back without a run. -/
theorem hasMade_of_isDone (h : s.Reckoned) (ht : t ∈ s.tasks) (hf : t.hasFound) (hd : t.isDone) :
    t.hasMade := by
  obtain ⟨r, hrest⟩ := Task.isDone_iff.mp hd
  obtain ⟨w, hw, ha⟩ := (Option.any_eq_true _ _).mp hf
  exact Option.isSome_iff_ne_none.mpr (((h.aimed t ht).attains r hrest).1 w hw ha)

/-- The calls that have found what to carry out have made a run or are about to. -/
theorem calls_hasFound (h : s.Reckoned) (workflowId : String) :
    (s.tasks.countP fun t => (s.runOf? workflowId t).isSome) + s.starting workflowId =
      s.calls workflowId Task.hasFound := by
  have hsplit := countP_split s.tasks (fun t => t.operation.workflowId? = some workflowId && t.hasFound)
    Task.hasMade
  rw [starting, calls, calls, hsplit]
  congr 1
  · refine List.countP_congr fun t ht => ?_
    rw [← h.hasMade_iff ht]
    constructor
    · rintro ⟨hid, hmade⟩
      obtain ⟨id, hr⟩ := Option.isSome_iff_exists.mp hmade
      simp [hid, hmade, (h.stored ht hr).2]
    · simp only [Bool.and_eq_true, decide_eq_true_eq]
      exact fun hall => ⟨hall.2.1, hall.1⟩
  · refine List.countP_congr fun t _ => ?_
    simp only [Bool.and_eq_true, decide_eq_true_eq]
    tauto

/-- The runs of a status are those that calls came back with, and those that calls are about to. -/
theorem countP_status (h : s.Reckoned) (workflowId : String) (st : Status) :
    (s.tasks.filterMap (s.runOf? workflowId)).countP (·.status = st) = s.closing workflowId st +
      s.calls workflowId fun t => t.returned?.any (·.status = st) := by
  rw [countP_filterMap, countP_split s.tasks _ Task.isDone, Nat.add_comm, closing, calls]
  congr 1
  refine List.countP_congr fun t ht => ?_
  simp only [Bool.and_eq_true, decide_eq_true_eq, Option.any_eq_true]
  constructor
  · rintro ⟨hd, run, hrun, hs⟩
    obtain ⟨hid, hr⟩ := (h.returned?_eq_some_iff ht).mpr ⟨hd, hrun⟩
    exact ⟨hid, run, hr, hs⟩
  · rintro ⟨hid, run, hr, hs⟩
    obtain ⟨hd, hrun⟩ := (h.returned?_eq_some_iff ht).mp ⟨hid, hr⟩
    exact ⟨hd, run, hrun, hs⟩

/-- A call that has come back leaves its run ended. -/
theorem countP_running (h : s.Reckoned) (workflowId : String) :
    (s.tasks.filterMap (s.runOf? workflowId)).countP (·.status = .running) =
      s.closing workflowId .running := by
  rw [countP_filterMap, closing]
  refine List.countP_congr fun t ht => ?_
  simp only [Bool.and_eq_true, Bool.not_eq_true', decide_eq_true_eq, Option.any_eq_true]
  refine ⟨fun ⟨run, hrun, hs⟩ => ⟨?_, run, hrun, hs⟩, fun hall => hall.2⟩
  rw [Bool.eq_false_iff]
  intro hd
  have hterm := h.isTerminal_of_isDone ht hd hrun
  rw [hs] at hterm
  cases hterm

/-- The calls that have made a run and have not come back, by the status of the run. -/
theorem sum_closing (h : s.Reckoned) (workflowId : String) :
    (s.tasks.countP fun t => !t.isDone && (s.runOf? workflowId t).isSome) =
      s.closing workflowId .running + s.closing workflowId .completed + s.closing workflowId .failed +
        s.closing workflowId .cancelled := by
  have hbusy : ∀ st, ((s.tasks.filter fun t => !t.isDone).filterMap (s.runOf? workflowId)).countP
      (·.status = st) = s.closing workflowId st := by
    intro st
    rw [countP_filterMap, List.countP_filter, closing]
    exact List.countP_congr fun t _ => by simp [and_comm]
  have htally := h.tally_filter workflowId fun t => !t.isDone
  simpa only [hbusy] using htally

/-- The calls that have not come back are those that are about to make a run, those whose run is running and
those whose run has ended. -/
theorem calls_unfinished (h : s.Reckoned) (workflowId : String) :
    (s.tasks.filterMap (s.runOf? workflowId)).countP (·.status = .running) + s.starting workflowId +
      s.closing workflowId .completed + s.closing workflowId .failed + s.closing workflowId .cancelled =
        s.calls workflowId fun t => t.hasFound && !t.isDone := by
  -- Some of these calls have made their run, the others are about to.
  rw [h.countP_running, calls, countP_split s.tasks _ Task.hasMade]
  have hmade : (s.tasks.countP fun t => t.hasMade && (decide (t.operation.workflowId? = some workflowId) &&
      (t.hasFound && !t.isDone))) = s.tasks.countP fun t => !t.isDone && (s.runOf? workflowId t).isSome := by
    refine List.countP_congr fun t ht => ?_
    simp only [Bool.and_eq_true, decide_eq_true_eq, ← h.hasMade_iff ht]
    constructor
    · exact fun ⟨hm, hid, _, hd⟩ => ⟨hd, hid, hm⟩
    · rintro ⟨hd, hid, hm⟩
      obtain ⟨id, hr⟩ := Option.isSome_iff_exists.mp hm
      exact ⟨hm, hid, (h.stored ht hr).2, hd⟩
  have hstarting : (s.tasks.countP fun t => !t.hasMade && (decide (t.operation.workflowId? =
      some workflowId) && (t.hasFound && !t.isDone))) = s.starting workflowId := by
    rw [starting, calls]
    refine List.countP_congr fun t ht => ?_
    simp only [Bool.and_eq_true, Bool.not_eq_true', decide_eq_true_eq]
    refine ⟨fun ⟨hm, hid, hf, _⟩ => ⟨hid, hf, hm⟩, fun ⟨hid, hf, hm⟩ => ⟨hm, hid, hf, ?_⟩⟩
    rw [Bool.eq_false_iff]
    intro hd
    cases hm.symm.trans (h.hasMade_of_isDone ht hf hd)
  have hsum := h.sum_closing workflowId
  omega

theorem cancelled?_eq_some_iff (ht : s.tasks[i]? = some t) :
    t.cancelled? = some id ↔ s.CancelReturned i id true := by
  unfold Task.cancelled? CancelReturned
  rw [ht]
  obtain ⟨op, rest, log⟩ := t
  constructor
  · intro hc
    split at hc
    · next hop hrest =>
      cases hc
      exact ⟨log, by rw [show op = _ from hop, show rest = _ from hrest]⟩
    · cases hc
  · rintro ⟨log', ht⟩
    cases ht
    rfl

/-- Each cancelled run of a list was cancelled by one call that came back with true. -/
theorem cancelled_perm (h : s.Reckoned) {runs : List Run} (hids : (runs.map Run.id).Nodup)
    (hrec : ∀ run ∈ runs, s.office.store.record? run.id = some run) :
    ((runs.filter (·.status = .cancelled)).map Run.id).Perm
      (s.tasks.filterMap fun t => t.cancelled?.filter fun id => runs.any (·.id = id)) := by
  have hiff : ∀ run ∈ runs, (run.status = .cancelled ↔ ∃ i, s.CancelReturned i run.id true) :=
    fun run hrun => (agreed h.orderly h.told run.id).cancelled_iff run
      (by rw [h.orderly.office.store.getRun_eq, hrec run hrun])
  -- A run is cancelled once, so no id is listed for two calls.
  have honce : (s.tasks.filterMap fun t => t.cancelled?.filter fun id => runs.any (·.id = id)).Nodup := by
    refine nodup_filterMap fun i j t t' id hi hj hc hc' => ?_
    have hi := (cancelled?_eq_some_iff hi).mp (Option.filter_eq_some_iff.mp hc).1
    have hj := (cancelled?_eq_some_iff hj).mp (Option.filter_eq_some_iff.mp hc').1
    exact (agreed h.orderly h.told id).one_cancel i j hi hj
  refine (List.perm_ext_iff_of_nodup (hids.sublist (List.filter_sublist.map Run.id)) honce).mpr fun id => ?_
  simp only [List.mem_map, List.mem_filter, decide_eq_true_eq, List.mem_filterMap,
    Option.filter_eq_some_iff, List.any_eq_true]
  constructor
  · rintro ⟨run, ⟨hrun, hs⟩, rfl⟩
    obtain ⟨i, log, ht⟩ := (hiff run hrun).mp hs
    exact ⟨_, List.mem_of_getElem? ht, (cancelled?_eq_some_iff ht).mpr ⟨log, ht⟩, run, hrun, rfl⟩
  · rintro ⟨t, ht, hc, run, hrun, rfl⟩
    obtain ⟨i, hi⟩ := List.mem_iff_getElem?.mp ht
    exact ⟨run, ⟨hrun, (hiff run hrun).mpr ⟨i, (cancelled?_eq_some_iff hi).mp hc⟩⟩, rfl⟩

theorem countP_cancelled (h : s.Reckoned) {runs : List Run}
    (hruns : runs.Perm (s.office.store.records.filter (·.workflowId = workflowId))) :
    runs.countP (·.status = .cancelled) =
      s.tasks.countP fun t => t.cancelled?.any fun id => runs.any (·.id = id) := by
  have hsound := h.orderly.office.store
  have hids : (runs.map Run.id).Nodup := by
    rw [(hruns.map Run.id).nodup_iff]
    exact (hsound.ids_records ▸ h.kept.nodup).sublist (List.filter_sublist.map Run.id)
  have hrec : ∀ run ∈ runs, s.office.store.record? run.id = some run := fun run hrun =>
    hsound.mem_records.mp (List.mem_filter.mp (hruns.mem_iff.mp hrun)).1
  calc
    runs.countP (·.status = .cancelled) = ((runs.filter (·.status = .cancelled)).map Run.id).length := by
      rw [List.length_map, List.countP_eq_length_filter]
    _ = _ := (h.cancelled_perm hids hrec).length_eq
    _ = _ := by
      rw [List.length_filterMap_eq_countP]
      exact List.countP_congr fun t _ => by rw [Option.isSome_filter]

theorem plain_of_perm (h : s.Reckoned) {runs : List Run}
    (hruns : runs.Perm (s.office.store.records.filter (·.workflowId = workflowId))) :
    ∀ run ∈ runs, run.Plain := by
  intro run hrun
  have hrec := h.orderly.office.store.mem_records.mp (List.mem_filter.mp (hruns.mem_iff.mp hrun)).1
  exact (h.orderly.office.store.record?_plain hrec).1

theorem balanced (h : s.Reckoned) {runs : List Run}
    (hruns : runs.Perm (s.office.store.records.filter (·.workflowId = workflowId))) :
    s.Balanced workflowId runs (Stats.tally runs) := by
  have hperm := hruns.trans (h.records_perm workflowId)
  refine ⟨rfl, ?_, Stats.total_tally (h.plain_of_perm hruns), h.countP_cancelled hruns, ?_, ?_, ?_⟩
  · rw [← h.calls_hasFound, ← List.length_filterMap_eq_countP, ← hperm.length_eq]
    rfl
  · exact (hperm.countP_eq _).trans (h.countP_status workflowId .completed)
  · exact (hperm.countP_eq _).trans (h.countP_status workflowId .failed)
  · rw [← h.calls_unfinished, ← hperm.countP_eq]
    rfl

/-- A call that carries out a workflow and has made no run has asked nothing that changes the store. -/
theorem reads_of_runId?_eq_none (h : s.Reckoned) (ht : t ∈ s.tasks) (hop : t.operation.Drives)
    (hnone : t.log.runId? = none) {c : StoreCall} {a : c.Answer} (hm : ⟨.store c, a⟩ ∈ t.log)
    (o : Office) : (o.answer c).2 = o := by
  obtain ⟨before, ⟨more, hlog⟩, hasked⟩ := (h.orderly.tasks t ht).log.exists_before hm
  have hdrives : Engine.drives before (.store c) := by
    cases hkind : t.operation with
    | execute e id context => rwa [hkind] at hasked
    | trigger e id context kind triggeredBy => rwa [hkind] at hasked
    | _ =>
      rw [hkind] at hop
      exact hop.elim
  cases c with
  | createRun workflowId context => cases (List.findSome?_eq_none_iff.mp hnone) _ hm
  | updateRun id change expected =>
    rw [← hlog, Log.runId?_append hdrives.2.1] at hnone
    cases hnone
  | saveWorkflow w => exact hdrives.elim
  | _ => rfl

/-- A call that has failed has asked nothing that changes the store. -/
theorem reads_of_fails (h : s.Reckoned) (ht : t ∈ s.tasks) {r : Reply} (hr : t.rest = .done r)
    (hf : r.Fails) {c : StoreCall} {a : c.Answer} (hm : ⟨.store c, a⟩ ∈ t.log) (o : Office) :
    (o.answer c).2 = o := by
  obtain ⟨i, hi⟩ := at_of_mem ht
  have hends := (h.orderly.tasks t ht).rest
  rw [hr] at hends
  obtain ⟨before, _, hasked⟩ := (h.orderly.tasks t ht).log.exists_before hm
  have hdriver : t.operation.Drives → (o.answer c).2 = o := by
    intro hdrives
    obtain ⟨result, rfl, hret⟩ := Operation.Ends.returned hends hdrives
    have hret := hret (h.told.answered hi) fun runId hm => h.told.missed ⟨t.log, hi, hm⟩ hdrives
    cases result with
    | ok run => exact hf.elim
    | error f => exact h.reads_of_runId?_eq_none ht hdrives hret hm o
  cases hop : t.operation with
  | execute e id context => exact hdriver (by rw [hop]; trivial)
  | trigger e id context kind triggeredBy => exact hdriver (by rw [hop]; trivial)
  | save w =>
    rw [((h.aimed t ht).attains r hr).2 w hop] at hf
    exact hf.elim
  | cancel id =>
    -- A cancellation fails where it does not find the run.
    rw [hop] at hends
    match r with
    | .cancelled (.error f) =>
      rcases hends with hends | hends
      · rw [hends] at hm
        cases List.mem_singleton.mp hm
        rfl
      · exact absurd (h.told.answered hi) hends
  | _ =>
    rw [hop] at hasked
    cases c with
    | getRun id => rfl
    | listRuns workflowId => rfl
    | _ => exact hasked.elim

end Reckoned

/-- Where no call is between two places the counts agree with one another as they stand. -/
theorem Balanced.of_settled {workflowId : String} {runs : List Run} {stats : Stats}
    (h : s.Balanced workflowId runs stats) (hr : s.Reckoned) (hs : s.Settled workflowId) :
    stats.total = s.calls workflowId Task.hasFound ∧
      stats.completed = s.calls workflowId (fun t => t.returned?.any (·.status = .completed)) ∧
        stats.failed = s.calls workflowId (fun t => t.returned?.any (·.status = .failed)) ∧
          stats.running = s.calls workflowId fun t => t.hasFound && !t.isDone := by
  have hstarting : s.starting workflowId = 0 := by
    refine List.countP_eq_zero.mpr fun t ht hall => ?_
    simp only [Bool.and_eq_true, Bool.not_eq_true', decide_eq_true_eq] at hall
    obtain ⟨hid, hf, hm⟩ := hall
    rcases hs t ht hid hf with hd | hrunning
    · cases hm.symm.trans (hr.hasMade_of_isDone ht hf hd)
    · obtain ⟨run, hrun, _⟩ := (Option.any_eq_true _ _).mp hrunning
      cases hm.symm.trans ((hr.hasMade_iff ht).mpr (Option.isSome_of_eq_some hrun)).2
  have hclosing : ∀ st ≠ Status.running, s.closing workflowId st = 0 := by
    intro st hne
    refine List.countP_eq_zero.mpr fun t ht hall => ?_
    simp only [Bool.and_eq_true, Bool.not_eq_true', Option.any_eq_true, decide_eq_true_eq] at hall
    obtain ⟨hd, run, hrun, rfl⟩ := hall
    have hid := ((hr.hasMade_iff ht).mpr (Option.isSome_of_eq_some hrun)).1
    have hf := (hr.stored ht ((hr.runOf?_eq_some ht).mp hrun).1).2
    rcases hs t ht hid hf with hd' | hrunning
    · cases hd.symm.trans hd'
    · rw [hrun, Option.any_some, decide_eq_true_eq] at hrunning
      exact hne hrunning
  have hcompleted := hclosing .completed (by decide)
  have hfailed := hclosing .failed (by decide)
  have hcancelled := hclosing .cancelled (by decide)
  have hbalance := h.running
  refine ⟨?_, ?_, ?_, ?_⟩
  · simpa [hstarting] using h.found
  · simpa [hcompleted] using h.completed
  · simpa [hfailed] using h.failed
  · rw [← hbalance]
    omega

/-- However the calls take turns, what is listed and counted of a workflow agrees at every moment with the
calls on it, and where none of them is between two places the counts agree as they stand. A call that has
failed has changed nothing. -/
theorem balanced_run {o : Office} (hi : o.store.ids = []) (hf : o.store.Filed) (events : List Event)
    (hc : ∀ ev ∈ events, ev.Calm) (workflowId : String) :
    let s := (start o).run events
    (∃ runs stats,
      Work.within .lone (listRuns workflowId) s.office = .done (.ok runs, s.office) ∧
      Work.within .lone (runStats workflowId) s.office = .done (.ok stats, s.office) ∧
      s.Balanced workflowId runs stats ∧
      (s.Settled workflowId →
        stats.total = s.calls workflowId Task.hasFound ∧
        stats.completed = s.calls workflowId (fun t => t.returned?.any (·.status = .completed)) ∧
        stats.failed = s.calls workflowId (fun t => t.returned?.any (·.status = .failed)) ∧
        stats.running = s.calls workflowId fun t => t.hasFound && !t.isDone)) ∧
    ∀ t ∈ s.tasks, ∀ r, t.rest = .done r → r.Fails →
      ∀ (c : StoreCall) (a : c.Answer), ⟨.store c, a⟩ ∈ t.log → ∀ o : Office, (o.answer c).2 = o := by
  intro s
  have h : s.Reckoned := reckoned_run hi hf events hc
  obtain ⟨runs, hlist, hperm, _⟩ := h.orderly.office.store.listRuns h.kept.nodup workflowId
  have hbalanced := h.balanced hperm
  have hanswer : (Surroundings.lone.office s.office).answer (.listRuns workflowId) =
      (.ok runs, s.office) := Prod.ext hlist rfl
  refine ⟨⟨runs, Stats.tally runs, Work.within_store hanswer, ?_, hbalanced,
    hbalanced.of_settled h⟩, fun t ht r hr hfails c a hm o => h.reads_of_fails ht hr hfails hm o⟩
  rw [runStats, listRuns, Program.map, Program.bind_ask, Work.within_store hanswer]
  exact congrArg (fun r => Program.done (r, s.office)) (Stats.ofRuns_eq_tally (h.plain_of_perm hperm))

/-- One run completes, one is cancelled and one has begun; a call for another workflow fails. -/
def medley : List Event :=
  opening ++ turns 1 6 ++ .call (.execute .sample "w" []) :: turns 2 2 ++
    .call (.cancel "run-2") :: turns 3 3 ++ turns 2 6 ++ .call (.execute .sample "w" []) :: turns 4 2 ++
      .call (.trigger .sample "v" [] "manual" none) :: turns 5 1

theorem balanced_run_medley :
    let s := (start .vacant).run medley
    (s.Settled "w" ∧ ∃ runs,
      Work.within .lone (listRuns "w") s.office = .done (.ok runs, s.office) ∧
      Work.within .lone (runStats "w") s.office = .done (.ok ⟨3, 1, 1, 0, 1⟩, s.office) ∧
      s.Balanced "w" runs ⟨3, 1, 1, 0, 1⟩ ∧ s.calls "w" Task.hasFound = 3) ∧
    ∃ t ∈ s.tasks, ∃ r, t.rest = .done r ∧ r.Fails ∧
      ∀ (c : StoreCall) (a : c.Answer), ⟨.store c, a⟩ ∈ t.log → ∀ o : Office, (o.answer c).2 = o := by
  intro s
  have hc : ∀ ev ∈ medley, Event.Calm ev := by
    simp [medley, opening, turns, List.replicate, Event.Calm]
  obtain ⟨⟨runs, stats, hlist, hstats, hbalanced, hsettled⟩, hfails⟩ :=
    balanced_run (o := .vacant) rfl Store.filed_empty.1 medley hc "w"
  have hs : ((start .vacant).run medley).Settled "w" := by decide +kernel
  have hcounts : ((start .vacant).run medley).calls "w" Task.hasFound = 3 ∧
      ((start .vacant).run medley).calls "w" (fun t => t.returned?.any (·.status = .completed)) = 1 ∧
      ((start .vacant).run medley).calls "w" (fun t => t.returned?.any (·.status = .failed)) = 0 ∧
      ((start .vacant).run medley).calls "w" (fun t => t.hasFound && !t.isDone) = 1 := by decide +kernel
  obtain ⟨hfound, hcompleted, hfailed, hrunning⟩ := hsettled hs
  obtain rfl : stats = ⟨3, 1, 1, 0, 1⟩ := by
    have hsum := hbalanced.sum
    obtain ⟨total, running, completed, failed, cancelled⟩ := stats
    simp only [hcounts, Stats.mk.injEq] at hfound hcompleted hfailed hrunning hsum ⊢
    omega
  refine ⟨⟨hs, runs, hlist, hstats, hbalanced, hfound.symm⟩, ?_⟩
  have hfailure : s.tasks[5]?.map Task.rest = some (.done (.run (.error (.workflowNotFound "v")))) := rfl
  obtain ⟨t, ht, hrest⟩ := Option.map_eq_some_iff.mp hfailure
  have hmem := List.mem_of_getElem? ht
  exact ⟨t, hmem, _, hrest, trivial, hfails t hmem _ hrest trivial⟩

/-- The counts of runs and of calls are not the same at all times. A call that has found its definition makes
its run a moment later, a call goes on after its run was cancelled, and a run whose end cannot be written down
is running for good, while its call comes back with the run as it should be. -/
theorem runStats_unbalanced :
    (let s := (start .vacant).run opening.dropLast
     Work.within .lone (runStats "w") s.office = .done (.ok ⟨0, 0, 0, 0, 0⟩, s.office) ∧
     s.calls "w" Task.hasFound = 1) ∧
    (let s := (start .vacant).run (opening ++ .call (.cancel "run-1") :: turns 2 3)
     Work.within .lone (runStats "w") s.office = .done (.ok ⟨1, 0, 0, 0, 1⟩, s.office) ∧
     s.CancelReturned 2 "run-1" true ∧ s.calls "w" (fun t => t.hasFound && !t.isDone) = 1) ∧
    (let s := (start .vacant).run (opening ++ turns 1 2 ++ [.trouble 1 (.trouble .runtime "")])
     Work.within .lone (runStats "w") s.office = .done (.ok ⟨1, 1, 0, 0, 0⟩, s.office) ∧
     s.calls "w" (fun t => t.returned?.any (·.status = .completed)) = 1 ∧
     s.calls "w" (fun t => t.hasFound && !t.isDone) = 0) := by
  refine ⟨⟨?_, by decide +kernel⟩, ⟨?_, ⟨_, rfl⟩, by decide +kernel⟩, ?_, by decide +kernel,
    by decide +kernel⟩
  -- The counts are those of a sorted list, and sorting is not unfolded by itself.
  all_goals with_unfolding_all rfl

end System

end Conductor
