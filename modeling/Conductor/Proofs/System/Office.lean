import Conductor.Proofs.Store.Record
import Conductor.Proofs.System.Basic
import Std.Data.String.ToNat

/-! What an office does to the runs that are stored when it answers a question: it makes a new run, or it
changes one that is running, or it leaves all of them alone. -/

namespace Conductor

/-- Updates are plain, and on the condition that the run is running. -/
def Call.Proper : Call → Prop
  | .store (.updateRun _ c expected) => expected = Engine.runningName ∧ c.Plain
  | _ => True

namespace Store

theorem all_runningName {run : Run} (hp : run.Plain) :
    Engine.runningName.all run.hasStatus = true ↔ run.status = .running :=
  hp.hasStatus_running

end Store

namespace Office

/-- The store is sound, and the ids of its runs have been given out. -/
structure Sound (o : Office) : Prop where
  store : o.store.Sound
  numbered : ∀ id ∈ o.store.ids, ∃ k, k ≤ o.created ∧ id = runId k

theorem runId_injective {m n : Nat} (h : runId m = runId n) : m = n := by
  have hs : "run-" ++ Nat.repr m = "run-" ++ Nat.repr n := h
  exact Nat.repr_injective ((String.append_right_inj _).mp hs)

variable {o o' : Office} {calm : Prop}

theorem Sound.fresh (ho : o.Sound) : runId (o.created + 1) ∉ o.store.ids := by
  -- All ids that are stored have smaller numbers.
  intro hm
  obtain ⟨k, hk, hid⟩ := ho.numbered _ hm
  have he := runId_injective hid
  omega

theorem sound_of_ids_nil (h : o.store.ids = []) : o.Sound := by
  refine ⟨?_, by simp [h]⟩
  cases hs : o.store with
  | memory m =>
    have hk : Table.keys m.runs = [] := by rwa [hs] at h
    have hm : m.runs = [] := List.map_eq_nil_iff.mp hk
    intro e he
    simp [hm] at he
  | rows s =>
    have hk : s.runs.map RunRow.id = [] := by rwa [hs] at h
    have hr : s.runs = [] := List.map_eq_nil_iff.mp hk
    exact ⟨by simp [hr], by simp [hr]⟩

/-- What an exchange does to the runs that are stored. -/
inductive Served (o : Office) (x : (q : Call) × q.Answer) (o' : Office) : Prop
  /-- A run begins, under an id that is new. -/
  | made (workflowId : String) (context : Table Json) (run : Run)
    (hx : x = ⟨.store (.createRun workflowId context), run⟩)
    (hn : run.id ∉ o.store.ids) (hi : o'.store.ids = o.store.ids ++ [run.id])
    (hrun : run = o.store.settle (.start run.id workflowId context o.clock))
    (hr : ∀ id, o'.store.record? id = if run.id = id then some run else o.store.record? id)
  /-- A run that was running is changed. -/
  | changed (runId : String) (c : Change) (run : Run)
    (hx : x = ⟨.store (.updateRun runId c Engine.runningName), .ok true⟩)
    (hi : o'.store.ids = o.store.ids)
    (hold : o.store.record? runId = some run) (hs : run.status = .running)
    (hr : ∀ id, o'.store.record? id =
      if runId = id then some (o.store.settle (run.apply c)) else o.store.record? id)
  | kept (hx : ∀ workflowId context run, x ≠ ⟨.store (.createRun workflowId context), run⟩)
    (hu : ∀ runId c expected, x ≠ ⟨.store (.updateRun runId c expected), .ok true⟩)
    (hi : o'.store.ids = o.store.ids) (hr : ∀ id, o'.store.record? id = o.store.record? id)

/-- A run that was made is new, and it is running. -/
theorem Served.createRun {workflowId : String} {context : Table Json} {run : Run}
    (h : o.Served ⟨.store (.createRun workflowId context), run⟩ o') :
    run.id ∉ o.store.ids ∧ o'.store.ids = o.store.ids ++ [run.id] ∧
      o'.store.record? run.id = some run ∧ run.status = .running := by
  cases h with
  | made _ _ run hx hn hi hrun hr =>
    cases hx
    refine ⟨hn, hi, (hr _).trans (if_pos rfl), ?_⟩
    rw [hrun, Store.settle_status]
    rfl
  | changed runId c old hx hi hold hs hr => cases hx
  | kept hx hu hi hr => exact absurd rfl (hx workflowId context run)

/-- An update is made of a run that is running. -/
theorem Served.updateRun {id : String} {c : Change} {expected : Option String}
    (h : o.Served ⟨.store (.updateRun id c expected), .ok true⟩ o') :
    ∃ run, o.store.record? id = some run ∧ run.status = .running ∧
      o'.store.record? id = some (o.store.settle (run.apply c)) := by
  cases h with
  | made workflowId context run hx hn hi hrun hr => cases hx
  | changed runId c run hx hi hold hs hr =>
    cases hx
    exact ⟨run, hold, hs, (hr id).trans (if_pos rfl)⟩
  | kept hx hu hi hr => exact absurd rfl (hu id c expected)

/-- What an answer tells of the runs that are stored. Where the store is calm it is no failure. -/
def Tells (o : Office) (calm : Prop) : (q : Call) × q.Answer → Prop
  | ⟨.store (.getRun id), .ok found⟩ => o.store.record? id = found
  | ⟨.store (.updateRun id _ _), .ok false⟩ =>
    ∀ run, o.store.record? id = some run → run.status ≠ .running
  | ⟨.store (.getRun _), .error _⟩ => ¬ calm
  | ⟨.store (.updateRun _ _ _), .error _⟩ => ¬ calm
  | _ => True

theorem fst_createRun (o : Office) (workflowId : String) (context : Table Json) :
    (o.answer (.createRun workflowId context)).1 =
      o.store.settle (.start (runId (o.created + 1)) workflowId context o.clock) :=
  Store.fst_createRun rfl

theorem id_createRun (o : Office) (workflowId : String) (context : Table Json) :
    (o.answer (.createRun workflowId context)).1.id = runId (o.created + 1) := by
  rw [fst_createRun, Store.settle_id]
  rfl

theorem Sound.createRun (ho : o.Sound) (workflowId : String) (context : Table Json) :
    let r := o.answer (.createRun workflowId context)
    r.2.Sound ∧ o.Served ⟨.store (.createRun workflowId context), r.1⟩ r.2 := by
  have hp := Run.plain_start (runId (o.created + 1)) workflowId context o.clock
  have hn : (Run.start (runId (o.created + 1)) workflowId context o.clock).id ∉ o.store.ids := ho.fresh
  have hi := Store.ids_createRun hn
  have hfst := o.fst_createRun workflowId context
  have hid := o.id_createRun workflowId context
  refine ⟨⟨ho.store.createRun hp hn, fun id hm => ?_⟩, ?_⟩
  · rcases List.mem_append.mp (hi ▸ hm) with hm | hm
    · obtain ⟨k, hk, he⟩ := ho.numbered id hm
      exact ⟨k, Nat.le_succ_of_le hk, he⟩
    · exact ⟨o.created + 1, Nat.le_refl _, List.mem_singleton.mp hm⟩
  · refine .made workflowId context _ rfl (hid ▸ hn) (hid ▸ hi) (hid ▸ hfst) fun id => ?_
    rw [hid, hfst]
    exact ho.store.record?_createRun hp hn id

theorem Sound.updateRun (ho : o.Sound) (id : String) {c : Change} (hc : c.Plain) :
    let r := o.answer (.updateRun id c Engine.runningName)
    r.2.Sound ∧ o.Served ⟨.store (.updateRun id c Engine.runningName), r.1⟩ r.2 := by
  have hi := ho.store.ids_updateRun hc id Engine.runningName
  have hfst : (o.answer (.updateRun id c Engine.runningName)).1 = _ :=
    ho.store.fst_updateRun hc id Engine.runningName
  have hrec := ho.store.record?_updateRun hc id
  refine ⟨⟨ho.store.updateRun hc id _, fun id hm => ho.numbered id (hi ▸ hm)⟩, ?_⟩
  -- The update is made exactly if there is a run that is running.
  by_cases h : ∃ run, o.store.record? id = some run ∧ run.status = .running
  · obtain ⟨run, hold, hs⟩ := h
    have hall := (Store.all_runningName (ho.store.record?_plain hold).1).mpr hs
    refine .changed id c run ?_ hi hold hs fun other => ?_
    · rw [hfst, hold, Option.any_some, hall]
    · have hn := hrec other Engine.runningName
      rwa [hold, Option.map_some, if_pos hall] at hn
  · have hall : ∀ run, o.store.record? id = some run →
        ¬ Engine.runningName.all run.hasStatus = true := by
      intro run hold ha
      exact h ⟨run, hold, (Store.all_runningName (ho.store.record?_plain hold).1).mp ha⟩
    have hfalse : (o.answer (.updateRun id c Engine.runningName)).1 = .ok false := by
      rw [hfst]
      cases hold : o.store.record? id with
      | none => rfl
      | some run => rw [Option.any_some, Bool.eq_false_iff.mpr (hall run hold)]
    refine .kept (fun _ _ _ hx => by cases hx) (fun _ _ _ hx => ?_) hi fun other => ?_
    · rw [hfalse] at hx
      cases hx
    · refine (hrec other Engine.runningName).trans ?_
      split
      · next he =>
        subst he
        cases hold : o.store.record? id with
        | none => rfl
        | some run => rw [Option.map_some, if_neg (hall run hold)]
      · rfl

/-- An answer keeps an office sound, and does to the runs what it says. -/
theorem Gives.served {q : Call} {r : q.Answer} (hg : o.Gives calm q r o') (ho : o.Sound)
    (hq : q.Proper) : o'.Sound ∧ o.Served ⟨q, r⟩ o' := by
  cases hg with
  | outside q r =>
    exact ⟨ho, .kept (fun _ _ _ hx => by cases hx) (fun _ _ _ hx => by cases hx) rfl fun _ => rfl⟩
  | @trouble _ c f r hr =>
    -- A failed call makes no run and no update.
    refine ⟨ho, .kept (fun _ _ _ hx => ?_) (fun _ _ _ hx => ?_) rfl fun _ => rfl⟩
    · cases hx
      cases hr
    · cases hx
      cases hr
  | store c =>
    cases c with
    | createRun workflowId context => exact ho.createRun workflowId context
    | updateRun id c expected =>
      obtain ⟨rfl, hc⟩ := hq
      exact ho.updateRun id hc
    | saveWorkflow w =>
      have hi := Store.ids_saveWorkflow o.store w
      refine ⟨⟨ho.store.saveWorkflow w, fun id hm => ho.numbered id (hi ▸ hm)⟩, ?_⟩
      exact .kept (fun _ _ _ hx => by cases hx) (fun _ _ _ hx => by cases hx) hi
        fun id => Store.record?_saveWorkflow o.store w id
    | _ =>
      exact ⟨ho, .kept (fun _ _ _ hx => by cases hx) (fun _ _ _ hx => by cases hx) rfl fun _ => rfl⟩

theorem Gives.tells {q : Call} {r : q.Answer} (hg : o.Gives calm q r o') (ho : o.Sound)
    (hq : q.Proper) : o.Tells calm ⟨q, r⟩ := by
  cases hg with
  | outside q r => trivial
  | @trouble hc c f r hr =>
    cases c with
    | getRun id =>
      obtain rfl := Option.some.inj hr
      exact hc
    | updateRun id change expected =>
      obtain rfl := Option.some.inj hr
      exact hc
    | _ => trivial
  | store c =>
    cases c with
    | getRun id =>
      have hget : (o.answer (.getRun id)).1 = .ok (o.store.record? id) := ho.store.getRun_eq id
      rw [hget]
      rfl
    | updateRun id change expected =>
      obtain ⟨rfl, hc⟩ := hq
      have hfst : (o.answer (.updateRun id change Engine.runningName)).1 = _ :=
        ho.store.fst_updateRun hc id Engine.runningName
      rw [hfst]
      cases hany : (o.store.record? id).any fun run => Engine.runningName.all run.hasStatus with
      | true => trivial
      | false =>
        intro run hrun hs
        rw [hrun, Option.any_some] at hany
        rw [(Store.all_runningName (ho.store.record?_plain hrun).1).mpr hs] at hany
        cases hany
    | _ => trivial

end Office

end Conductor
