import Conductor.Proofs.Store.Listing

/-! One table of runs behind both stores. Whatever is asked of them about runs, what they answer is what the
table holds; rows only drop the offsets of times. -/

namespace Conductor

/-- What is asked of a store about runs. Whoever makes a run brings its id and the time. -/
inductive RunCall where
  | create (id workflowId : String) (context : Table Json) (now : Time)
  | update (id : String) (c : Change) (expected : Option String)
  | get (id : String)
  | list (workflowId : String)

inductive RunAnswer where
  | made (run : Run)
  | updated (made : Except Fault Bool)
  | found (run : Except Fault (Option Run))
  | listed (runs : Except Fault (List Run))

/-- Runs in the order in which they were made. -/
abbrev Ledger := List Run

namespace RunCall

/-- The id of the run that is made. -/
def newId? : RunCall → Option String
  | .create id _ _ _ => some id
  | _ => none

/-- Updates write fields of their own kinds. -/
def Plain : RunCall → Prop
  | .update _ c _ => c.Plain
  | _ => True

end RunCall

namespace Ledger

/-- A run is the one that an update is meant for, and has the status that is expected, if one is. -/
def meets (id : String) (expected : Option String) (run : Run) : Bool :=
  run.id = id && expected.all (· = run.status.name)

/-- The table after a call. -/
def after (t : Ledger) : RunCall → Ledger
  | .create id workflowId context now => t ++ [.start id workflowId context now]
  | .update id c expected => t.map fun run => if meets id expected run then run.apply c else run
  | .get _ | .list _ => t

theorem ids_after (t : Ledger) (call : RunCall) :
    (t.after call).map Run.id = t.map Run.id ++ call.newId?.toList := by
  cases call with
  | create id workflowId context now => exact List.map_append
  | update id c expected =>
    rw [after, List.map_map]
    refine (List.map_congr_left fun run _ => ?_).trans (List.append_nil _).symm
    by_cases hm : meets id expected run <;> simp [hm, Run.apply]
  | get id => exact (List.append_nil _).symm
  | list workflowId => exact (List.append_nil _).symm

/-- What is answered from the table, where runs are shown by `view`. The order of a list among runs that
began at the same time is left open. -/
inductive Answers (t : Ledger) (view : Run → Run) : RunCall → RunAnswer → Prop
  | create {id workflowId : String} {context : Table Json} {now : Time} :
    Answers t view (.create id workflowId context now) (.made (view (.start id workflowId context now)))
  | update {id : String} {c : Change} {expected : Option String} :
    Answers t view (.update id c expected) (.updated (.ok (t.any (meets id expected))))
  | get {id : String} : Answers t view (.get id) (.found (.ok ((t.find? (·.id = id)).map view)))
  | list {workflowId : String} {runs : List Run}
    (h : runs.Perm ((t.filter (·.workflowId = workflowId)).map view))
    (hn : (runs.map Run.id).Nodup) (ho : Run.NewestFirst runs) :
    Answers t view (.list workflowId) (.listed (.ok runs))

/-- Calls are answered one after the other, each from the table as the ones before it left it. -/
inductive Explains (view : Run → Run) : Ledger → List RunCall → List RunAnswer → Prop
  | nil {t : Ledger} : Explains view t [] []
  | cons {t : Ledger} {call : RunCall} {a : RunAnswer} {calls : List RunCall} {as : List RunAnswer}
    (h : t.Answers view call a) (hrest : Explains view (t.after call) calls as) :
    Explains view t (call :: calls) (a :: as)

end Ledger

/-- The same answer, where one side has lost the offsets of times and may list runs that began at the same
time in another order. -/
inductive RunAnswer.Alike : RunAnswer → RunAnswer → Prop
  | made (run : Run) : Alike (.made run) (.made run.unzoned)
  | updated (made : Bool) : Alike (.updated (.ok made)) (.updated (.ok made))
  | found (run : Option Run) : Alike (.found (.ok run)) (.found (.ok (run.map Run.unzoned)))
  | listed {runs others : List Run} (h : others.Perm (runs.map Run.unzoned))
    (ho : Run.NewestFirst runs) (ho' : Run.NewestFirst others) :
    Alike (.listed (.ok runs)) (.listed (.ok others))

/-- The fields that a change gives are new, and all others are as before. -/
structure Run.Becomes (old : Run) (c : Change) (keep : Time → Time) (new : Run) : Prop where
  id : new.id = old.id
  workflowId : new.workflowId = old.workflowId
  startedAt : new.startedAt = old.startedAt
  status : new.status = c.status.getD old.status
  currentStep : new.currentStep = c.currentStep.getD old.currentStep
  context : new.context = c.context.getD old.context
  error : new.error = c.error.getD old.error
  completedAt : new.completedAt = (c.completedAt.map (·.map keep)).getD old.completedAt
  written : new.written = old.written

namespace Store

/-- How a store keeps times. -/
def keep : Store → Time → Time
  | .memory _, t => t
  | .rows _, t => t.unzoned

/-- An update is refused, for a run that is not there or has another status than was expected, and changes
nothing; or else it changes the given fields of the one run. -/
def UpdatesOne (s : Store) (id : String) (c : Change) (expected : Option String) : Prop :=
  let r := s.updateRun id c expected
  (r.1 = .ok false ∧ r.2 = s ∧ (s.getRun id = .ok none ∨
    ∃ run, s.getRun id = .ok (some run) ∧ ∃ name, expected = some name ∧ name ≠ run.status.name)) ∨
  (r.1 = .ok true ∧ r.2.ids = s.ids ∧ (∀ other ≠ id, r.2.getRun other = s.getRun other) ∧
    ∃ old new, s.getRun id = .ok (some old) ∧ (∀ name, expected = some name → name = old.status.name) ∧
      r.2.getRun id = .ok (some new) ∧ old.Becomes c s.keep new)

def perform (s : Store) : RunCall → RunAnswer × Store
  | .create id workflowId context now =>
    let r := s.createRun (.start id workflowId context now)
    (.made r.1, r.2)
  | .update id c expected =>
    let r := s.updateRun id c expected
    (.updated r.1, r.2)
  | .get id => (.found (s.getRun id), s)
  | .list workflowId => (.listed (s.listRuns workflowId), s)

/-- Calls one after the other, with their answers. -/
def performAll (s : Store) : List RunCall → List RunAnswer × Store
  | [] => ([], s)
  | call :: calls =>
    let r := s.perform call
    let rest := r.2.performAll calls
    (r.1 :: rest.1, rest.2)

/-- The store holds the runs of a table. -/
structure Holds (s : Store) (t : Ledger) : Prop where
  sound : s.Sound
  nodup : (t.map Run.id).Nodup
  ids : s.ids = t.map Run.id
  record : ∀ run ∈ t, s.record? run.id = some (s.settle run)

variable {s : Store} {t : Ledger} {run : Run} {c : Change} {call : RunCall}

/-! ### A store keeps to its kind -/

theorem settle_perform (s : Store) (call : RunCall) : (s.perform call).2.settle = s.settle := by
  cases call with
  | create id workflowId context now => exact settle_createRun s _
  | update id c expected => exact settle_updateRun s id c expected
  | get id => rfl
  | list workflowId => rfl

theorem settle_apply_settle (s : Store) (run : Run) (c : Change) :
    s.settle ((s.settle run).apply c) = s.settle (run.apply c) := by
  cases s with
  | memory m => rfl
  | rows s => exact Run.unzoned_apply_unzoned run c

theorem becomes_settle (hp : (s.settle run).Plain) (hc : c.Plain) :
    (s.settle run).Becomes c s.keep (s.settle (run.apply c)) := by
  have hrun : run.written = [] := by cases s <;> exact hp.written
  have hw : (run.apply c).written = run.written := by
    simp [Run.apply, hrun, hc.written, Table.putAll]
  cases s with
  | memory m =>
    refine ⟨rfl, rfl, rfl, rfl, rfl, rfl, rfl, ?_, hw⟩
    cases hat : c.completedAt with
    | none => simp [settle, Run.apply, hat]
    | some ended => cases ended <;> simp [settle, keep, Run.apply, hat]
  | rows s =>
    refine ⟨rfl, rfl, rfl, rfl, rfl, rfl, rfl, ?_, hw⟩
    cases hat : c.completedAt with
    | none => simp [settle, Run.unzoned, Run.apply, hat]
    | some ended =>
      simp only [settle, Run.unzoned, Run.apply, hat]
      rfl

namespace Holds

theorem mem_of_find? {id : String} (h : t.find? (·.id = id) = some run) : run ∈ t ∧ run.id = id :=
  ⟨List.mem_of_find?_eq_some h, by simpa using List.find?_some h⟩

theorem record?_eq (h : s.Holds t) (id : String) :
    s.record? id = (t.find? (·.id = id)).map s.settle := by
  cases hf : t.find? (·.id = id) with
  | none =>
    rw [Option.map_none, h.sound.record?_eq_none_iff, h.ids]
    intro hm
    obtain ⟨run, hrun, hid⟩ := List.mem_map.mp hm
    simpa [hid] using List.find?_eq_none.mp hf run hrun
  | some run =>
    obtain ⟨hm, rfl⟩ := mem_of_find? hf
    exact h.record run hm

theorem records_eq (h : s.Holds t) : s.records = t.map s.settle := by
  rw [records, h.ids, List.filterMap_map, ← List.filterMap_eq_map]
  exact List.filterMap_congr h.record

/-- A status that is expected is that of the run in the table. -/
theorem meets_eq (h : s.Holds t) (hm : run ∈ t) (expected : Option String) :
    expected.all (s.settle run).hasStatus = Ledger.meets run.id expected run := by
  have hp := (h.sound.record?_plain (h.record run hm)).1
  have hname : (s.settle run).hasStatus = fun name => decide (name = run.status.name) := by
    funext name
    rw [hp.hasStatus_eq, settle_status]
    exact decide_eq_decide.mpr eq_comm
  rw [hname, Ledger.meets, decide_eq_true rfl, Bool.true_and]

theorem any_meets (h : s.Holds t) (id : String) (expected : Option String) :
    ((s.record? id).any fun run => expected.all run.hasStatus) = t.any (Ledger.meets id expected) := by
  rw [h.record?_eq]
  cases hf : t.find? (·.id = id) with
  | none =>
    refine (List.any_eq_false.mpr fun run hm hmeets => ?_).symm
    have hid : run.id = id := of_decide_eq_true (Bool.and_eq_true_iff.mp hmeets).1
    simpa [hid] using List.find?_eq_none.mp hf run hm
  | some run =>
    obtain ⟨hm, rfl⟩ := mem_of_find? hf
    rw [Option.map_some, Option.any_some, h.meets_eq hm, Bool.eq_iff_iff, List.any_eq_true]
    refine ⟨fun hmeets => ⟨run, hm, hmeets⟩, ?_⟩
    rintro ⟨other, ho, hmeets⟩
    -- The table has one run with this id.
    have hid : other.id = run.id := of_decide_eq_true (Bool.and_eq_true_iff.mp hmeets).1
    exact List.inj_on_of_nodup_map h.nodup ho hm hid ▸ hmeets

theorem createRun (h : s.Holds t) (hp : run.Plain) (hn : run.id ∉ t.map Run.id) :
    (s.createRun run).2.Holds (t ++ [run]) := by
  have hnew : run.id ∉ s.ids := h.ids ▸ hn
  refine ⟨h.sound.createRun hp hnew, ?_, ?_, fun other hm => ?_⟩
  · rw [List.map_append]
    exact List.nodup_append_comm.mp (List.nodup_cons.mpr ⟨hn, h.nodup⟩)
  · rw [ids_createRun hnew, h.ids, List.map_append]
    rfl
  · rw [h.sound.record?_createRun hp hnew, settle_createRun]
    rcases List.mem_append.mp hm with hm | hm
    · have hne : run.id ≠ other.id := fun he => hn (he ▸ List.mem_map_of_mem hm)
      rw [if_neg hne, h.record other hm]
    · obtain rfl := List.mem_singleton.mp hm
      rw [if_pos rfl]

theorem updateRun (h : s.Holds t) (hc : c.Plain) (id : String) (expected : Option String) :
    (s.updateRun id c expected).2.Holds (t.after (.update id c expected)) := by
  have hids : (t.after (.update id c expected)).map Run.id = t.map Run.id :=
    (t.ids_after _).trans (List.append_nil _)
  refine ⟨h.sound.updateRun hc id expected, hids ▸ h.nodup, ?_, fun new hnew => ?_⟩
  · rw [h.sound.ids_updateRun hc, h.ids, hids]
  obtain ⟨run, hm, rfl⟩ := List.mem_map.mp hnew
  -- A change leaves the id, under which the run is looked up again.
  have hid : (if Ledger.meets id expected run then run.apply c else run).id = run.id := by
    split <;> rfl
  rw [hid, h.sound.record?_updateRun hc, settle_updateRun]
  by_cases he : id = run.id
  · subst he
    rw [if_pos rfl, h.record run hm, Option.map_some, h.meets_eq hm]
    by_cases hmeets : Ledger.meets run.id expected run
    · rw [if_pos hmeets, if_pos hmeets, settle_apply_settle]
    · rw [if_neg hmeets, if_neg hmeets]
  · have hmeets : Ledger.meets id expected run = false := by
      simp [Ledger.meets, Ne.symm he]
    rw [if_neg he, h.record run hm, hmeets, if_neg Bool.false_ne_true]

/-- A call is answered from the table, and leaves the store with the table after it. -/
theorem perform (h : s.Holds t) (hc : call.Plain)
    (hid : ∀ id, call.newId? = some id → id ∉ t.map Run.id) :
    t.Answers s.settle call (s.perform call).1 ∧ (s.perform call).2.Holds (t.after call) := by
  cases call with
  | create id workflowId context now =>
    have hp := Run.plain_start id workflowId context now
    refine ⟨?_, h.createRun hp (hid id rfl)⟩
    have hfst : (s.createRun (.start id workflowId context now)).1 = s.settle _ := fst_createRun rfl
    simpa only [Store.perform, hfst] using Ledger.Answers.create
  | update id c expected =>
    refine ⟨?_, h.updateRun hc id expected⟩
    have hfst := h.sound.fst_updateRun hc id expected
    rw [h.any_meets] at hfst
    simpa only [Store.perform, hfst] using Ledger.Answers.update
  | get id =>
    refine ⟨?_, h⟩
    have hget := h.sound.getRun_eq id
    rw [h.record?_eq] at hget
    simpa only [Store.perform, hget] using Ledger.Answers.get
  | list workflowId =>
    refine ⟨?_, h⟩
    obtain ⟨runs, hlist, hperm, hnewest⟩ := h.sound.listRuns (h.ids ▸ h.nodup) workflowId
    have hfilter : s.records.filter (·.workflowId = workflowId) =
        (t.filter (·.workflowId = workflowId)).map s.settle := by
      rw [h.records_eq, List.filter_map]
      refine congrArg (List.map s.settle) (List.filter_congr fun run _ => ?_)
      rw [Function.comp_apply, settle_workflowId]
    have hn : (runs.map Run.id).Nodup := by
      have hall : (s.records.map Run.id).Nodup := by
        rw [h.sound.ids_records, h.ids]
        exact h.nodup
      rw [(hperm.map Run.id).nodup_iff]
      exact hall.sublist (List.filter_sublist.map Run.id)
    simpa only [Store.perform, hlist] using Ledger.Answers.list (hfilter ▸ hperm) hn hnewest

theorem performAll (h : s.Holds t) {calls : List RunCall} (hc : ∀ call ∈ calls, call.Plain)
    (hn : (t.map Run.id ++ calls.filterMap RunCall.newId?).Nodup) :
    Ledger.Explains s.settle t calls (s.performAll calls).1 ∧
      ∃ t', (s.performAll calls).2.Holds t' ∧ (s.performAll calls).2.settle = s.settle := by
  induction calls generalizing s t with
  | nil => exact ⟨.nil, t, h, rfl⟩
  | cons call calls ih =>
    have hids : (t.after call).map Run.id ++ calls.filterMap RunCall.newId? =
        t.map Run.id ++ (call :: calls).filterMap RunCall.newId? := by
      rw [Ledger.ids_after, List.append_assoc, List.filterMap_cons]
      cases call.newId? <;> rfl
    -- Ids are new in the whole sequence, so the next one is new to the table.
    have hid : ∀ id, call.newId? = some id → id ∉ t.map Run.id := by
      intro id hnew hm
      rw [List.filterMap_cons, hnew] at hn
      exact (List.nodup_append.mp hn).2.2 id hm id List.mem_cons_self rfl
    obtain ⟨hanswer, hafter⟩ := h.perform (hc call List.mem_cons_self) hid
    have hrest := ih hafter (fun x hx => hc x (List.mem_cons_of_mem _ hx)) (hids ▸ hn)
    rw [settle_perform] at hrest
    obtain ⟨hexplains, t', hholds, hsettle⟩ := hrest
    exact ⟨.cons hanswer hexplains, t', hholds, hsettle⟩

theorem updatesOne (h : s.Holds t) (hc : c.Plain) (id : String) (expected : Option String) :
    s.UpdatesOne id c expected := by
  have hfst := h.sound.fst_updateRun hc id expected
  have hread : ∀ other, (s.updateRun id c expected).2.getRun other =
      .ok ((s.updateRun id c expected).2.record? other) := (h.sound.updateRun hc id expected).getRun_eq
  have hrec := h.sound.record?_updateRun hc id
  cases hold : s.record? id with
  | none =>
    rw [hold, Option.any_none] at hfst
    refine Or.inl ⟨hfst, snd_updateRun_of_refused hc hfst, Or.inl ?_⟩
    rw [h.sound.getRun_eq, hold]
  | some old =>
    obtain ⟨hp, rfl, _⟩ := h.sound.record?_plain hold
    rw [hold, Option.any_some] at hfst
    have hname : ∀ name, old.hasStatus name = true ↔ name = old.status.name := by
      intro name
      rw [hp.hasStatus_eq, decide_eq_true_iff, eq_comm]
    cases hall : expected.all old.hasStatus with
    | false =>
      rw [hall] at hfst
      obtain ⟨name, rfl⟩ : ∃ name, expected = some name :=
        Option.ne_none_iff_exists'.mp (by rintro rfl; cases hall)
      refine Or.inl ⟨hfst, snd_updateRun_of_refused hc hfst, Or.inr ⟨old, ?_, name, rfl, fun he => ?_⟩⟩
      · rw [h.sound.getRun_eq, hold]
      · rw [Option.all_some, (hname name).mpr he] at hall
        cases hall
    | true =>
      rw [hall] at hfst
      refine Or.inr ⟨hfst, h.sound.ids_updateRun hc _ _, fun other hne => ?_, old,
        s.settle (old.apply c), ?_, ?_, ?_, ?_⟩
      · rw [hread, hrec, if_neg (Ne.symm hne), h.sound.getRun_eq]
      · rw [h.sound.getRun_eq, hold]
      · rintro name rfl
        exact (hname name).mp hall
      · rw [hread, hrec, if_pos rfl, hold, Option.map_some, if_pos hall]
      · -- What is stored is the run of the table as the store keeps it.
        obtain ⟨run, _, rfl⟩ := Option.map_eq_some_iff.mp (h.record?_eq old.id ▸ hold)
        rw [settle_apply_settle]
        exact becomes_settle hp hc

end Holds

theorem holds_nil (h : s.ids = []) (hs : s.Sound) : s.Holds [] :=
  ⟨hs, List.nodup_nil, h, fun _ hm => nomatch hm⟩

end Store

/-- Answers from one table are alike. -/
theorem Ledger.Answers.alike {t : Ledger} {call : RunCall} {a b : RunAnswer}
    (ha : t.Answers id call a) (hb : t.Answers Run.unzoned call b) : a.Alike b := by
  cases ha with
  | create =>
    cases hb with
    | create => exact .made _
  | update =>
    cases hb with
    | update => exact .updated _
  | get =>
    cases hb with
    | get => simpa using RunAnswer.Alike.found (t.find? _)
  | list h hn ho =>
    cases hb with
    | list h' hn' ho' =>
      rw [List.map_id] at h
      exact .listed (h'.trans (h.map _).symm) ho ho'

theorem Ledger.Explains.alike {t : Ledger} {calls : List RunCall} {as bs : List RunAnswer}
    (ha : Explains id t calls as) (hb : Explains Run.unzoned t calls bs) :
    List.Forall₂ RunAnswer.Alike as bs := by
  induction ha generalizing bs with
  | nil =>
    cases hb
    exact .nil
  | cons h _ ih =>
    cases hb with
    | cons h' hrest => exact .cons (h.alike h') (ih hrest)

namespace Store

/-- Both stores are one table. Whatever they are asked about runs, they answer alike and as the table says,
and each update afterwards is refused and changes nothing, or changes what it gives of the one run. -/
theorem performAll_one_table (workflows : Table Workflow) (definitions : Table Json)
    {calls : List RunCall} (hc : ∀ call ∈ calls, call.Plain)
    (hn : (calls.filterMap RunCall.newId?).Nodup) :
    let memory := (Store.memory ⟨workflows, []⟩).performAll calls
    let rows := (Store.rows ⟨definitions, []⟩).performAll calls
    List.Forall₂ RunAnswer.Alike memory.1 rows.1 ∧
      Ledger.Explains id [] calls memory.1 ∧ Ledger.Explains Run.unzoned [] calls rows.1 ∧
        ∀ s ∈ [memory.2, rows.2], ∀ id c expected, c.Plain → s.UpdatesOne id c expected := by
  intro memory rows
  have hmemory : (Store.memory ⟨workflows, []⟩).Holds [] := holds_nil rfl fun _ he => nomatch he
  have hrows : (Store.rows ⟨definitions, []⟩).Holds [] :=
    holds_nil rfl ⟨List.nodup_nil, fun _ hr => nomatch hr⟩
  obtain ⟨hm, t, hholds, _⟩ := hmemory.performAll hc hn
  obtain ⟨hr, t', hholds', _⟩ := hrows.performAll hc hn
  refine ⟨hm.alike hr, hm, hr, fun s hs id c expected hplain => ?_⟩
  rcases List.mem_pair.mp hs with rfl | rfl
  · exact hholds.updatesOne hplain id expected
  · exact hholds'.updatesOne hplain id expected

/-- Two runs of one workflow, of which one is cancelled and then refuses another change. -/
theorem performAll_one_table_cancelled :
    let calls : List RunCall := [
      .create "a" "w" [] .start, .create "b" "w" [] (Time.start.after 5),
      .update "a" (.cancel .start) (some "running"), .update "a" (.checkpoint 1 []) (some "running"),
      .update "c" (.checkpoint 1 []) none, .get "a", .list "w"]
    let memory := (Store.memory .empty).performAll calls
    let rows := (Store.rows .empty).performAll calls
    let b : Run := .start "b" "w" [] (Time.start.after 5)
    let a : Run := { Run.start "a" "w" [] .start with status := .cancelled, completedAt := some .start }
    ((∀ call ∈ calls, call.Plain) ∧ (calls.filterMap RunCall.newId?).Nodup) ∧
      List.Forall₂ RunAnswer.Alike memory.1 rows.1 ∧
        memory.1.drop 2 = [.updated (.ok true), .updated (.ok false), .updated (.ok false),
          .found (.ok (some a)), .listed (.ok [b, a])] ∧
          ∀ s ∈ [memory.2, rows.2], s.UpdatesOne "b" (.cancel .start) (some "running") := by
  intro calls memory rows b a
  have hc : ∀ call ∈ calls, call.Plain := by
    simp only [calls, List.forall_mem_cons]
    exact ⟨trivial, trivial, Change.plain_cancel _, Change.plain_checkpoint _ _,
      Change.plain_checkpoint _ _, trivial, trivial, fun _ h => nomatch h⟩
  have hn : (calls.filterMap RunCall.newId?).Nodup := by decide
  obtain ⟨halike, _, _, hone⟩ := performAll_one_table [] [] hc hn
  have hlisted : newestFirst [a, b] = [b, a] := by
    have hlater : ¬ b.startedAt.micros ≤ a.startedAt.micros := by decide
    rw [newestFirst, List.mergeSort]
    simp [hlater]
  have hanswers : memory.1.drop 2 = [.updated (.ok true), .updated (.ok false), .updated (.ok false),
      .found (.ok (some a)), .listed (.ok (newestFirst [a, b]))] := rfl
  rw [hlisted] at hanswers
  exact ⟨⟨hc, hn⟩, halike, hanswers, fun s hs => hone s hs "b" _ _ (Change.plain_cancel _)⟩

end Store

end Conductor
