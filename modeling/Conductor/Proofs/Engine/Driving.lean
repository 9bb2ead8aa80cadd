import Conductor.Proofs.Engine.Log
import Conductor.Proofs.Engine.Position
import Conductor.Proofs.Store.Plain

/-! What the engine asks of the store on its way through a workflow. It makes one run, and every update that
it asks for is one of this run, on the condition that it is still running, and fits the workflow. -/

namespace Conductor

/-- What carrying out a workflow of `n` steps may write. -/
inductive Change.Driven (n : Nat) : Change → Prop
  | checkpoint {index : Nat} {context : Table Json} (h : index < n) :
    Driven n (.checkpoint index context)
  | completed {context : Table Json} {now : Time} : Driven n (.final n context Option.none now)
  | failed {index : Nat} {context : Table Json} {error : String} {now : Time} (h : index < n)
      (he : error ≠ "") : Driven n (.final index context (some error) now)

theorem Change.Driven.plain {n : Nat} {c : Change} (h : c.Driven n) : c.Plain := by
  cases h with
  | checkpoint _ => exact plain_checkpoint _ _
  | completed => exact plain_final _ _ _ _
  | failed _ _ => exact plain_final _ _ _ _

namespace Engine

/-- What may be asked on the way through a workflow. -/
def drives (log : Log Call.Answer) : Call → Prop
  | .store (.updateRun id c expected) =>
    expected = runningName ∧ Log.runId? log = some id ∧
      ∃ w, Log.definition? log = some w ∧ c.Driven w.steps.length
  | .store (.createRun _ _) => Log.runId? log = none ∧ ∃ w, Log.definition? log = some w
  | .store (.getRun id) => Log.runId? log = some id
  | .store (.saveWorkflow _) => False
  | _ => True

/-- The way through the steps of a workflow for one run is under way. -/
structure Underway (w : Workflow) (runId : String) (log : Log Call.Answer) : Prop where
  definition : Log.definition? log = some w
  run : Log.runId? log = some runId

/-- What the end of the way is: the run was overtaken and read again, or the end can be written. -/
def Ended (w : Workflow) (runId : String) (log : Log Call.Answer) : Ending → Prop
  | .overtaken run => ∃ before, log = before ++ [⟨.store (.getRun runId), .ok (some run)⟩] ∧
      Log.runId? before = some runId ∧ Log.Closed before runId
  | .reached index context error => Underway w runId log ∧
      ∀ now, (Change.final index context error now).Driven w.steps.length

/-- What a call to carry out a workflow comes back with: the run as it is stored after its end, and no
fault once a run was made. This is so where the store does not fail and finds what it is asked for. -/
def Returned (log : Log Call.Answer) (r : Except Fault Run) : Prop :=
  Log.Trusted log → (∀ id, ⟨.store (.getRun id), .ok none⟩ ∉ log) →
    match r with
    | .ok run => ∃ before id, log = before ++ [⟨.store (.getRun id), .ok (some run)⟩] ∧
        Log.runId? before = some id ∧ Log.Closed before id
    | .error _ => Log.runId? log = none

variable {w : Workflow} {runId : String} {log more : Log Call.Answer}

theorem Underway.append (h : Underway w runId log) : Underway w runId (log ++ more) :=
  ⟨Log.definition?_append h.definition, Log.runId?_append h.run⟩

theorem Underway.drives_updateRun (h : Underway w runId log) {c : Change}
    (hc : c.Driven w.steps.length) :
    drives log (.store (.updateRun runId c runningName)) :=
  ⟨rfl, h.run, w, h.definition, hc⟩

theorem textOr_ne_empty {default : String} (h : default ≠ "") (text : String) :
    textOr default text ≠ "" := by
  unfold textOr
  split
  · exact h
  · assumption

theorem guardMessage_ne_empty (e : Engine) : e.guardMessage ≠ "" := by
  intro h
  obtain ⟨hl, _⟩ := String.append_eq_empty_iff.mp h
  exact absurd (String.append_eq_empty_iff.mp hl).1 (by decide)

theorem runNotFound_ne_empty (id : String) : (Fault.runNotFound id).message ≠ "" := by
  change toString "Run not found: " ++ toString id ≠ ""
  intro h
  exact absurd (String.append_eq_empty_iff.mp h).1 (by decide)

theorem Underway.ended_failed (h : Underway w runId log) {index : Nat} (hi : index < w.steps.length)
    {error : String} (he : error ≠ "") (context : Table Json) :
    Ended w runId log (.reached index context (some error)) :=
  ⟨h, fun _ => .failed hi he⟩

theorem Underway.ended_completed (h : Underway w runId log) {index : Nat} (hi : index ≤ w.steps.length)
    (hs : w.steps[index]? = none) (context : Table Json) :
    Ended w runId log (.reached index context none) := by
  have hn : index = w.steps.length := Nat.le_antisymm hi (List.getElem?_eq_none_iff.mp hs)
  exact ⟨h, fun _ => hn ▸ .completed⟩

theorem Underway.keepsTo_step (h : Underway w runId log) (e : Engine) (step : Step)
    (context : Table Json) :
    (Work.ofOutside (e.registry.execute step context)).KeepsTo drives
      (fun log _ => Underway w runId log) log :=
  Program.keepsTo_embed (fun _ _ _ => trivial) (fun _ _ _ h => h.append) h _

theorem drive_keepsTo (e : Engine) (left : Nat) {index : Nat} (hi : index ≤ w.steps.length)
    (context : Table Json) (h : Underway w runId log) :
    (e.drive w runId left index context).KeepsTo drives (Ended w runId) log := by
  -- The only end without an error is that of the workflow; all others are reached within it.
  induction left generalizing index context log with
  | zero =>
    unfold drive
    split
    · next hs => exact h.ended_completed hi hs context
    · next step hs =>
      exact h.ended_failed (List.getElem?_eq_some_iff.mp hs).1 (guardMessage_ne_empty e) context
  | succ left ih =>
    unfold drive
    split
    · next hs => exact h.ended_completed hi hs context
    · next step hs =>
      have hlt : index < w.steps.length := (List.getElem?_eq_some_iff.mp hs).1
      have hexec : "Execution error" ≠ "" := by decide
      refine ⟨h.drives_updateRun (.checkpoint hlt), fun r => ?_⟩
      match r with
      | .error f => exact h.append.ended_failed hlt (textOr_ne_empty hexec _) context
      | .ok false =>
        -- The run was overtaken, and what is stored of it is read.
        refine ⟨h.append.run, fun r => ?_⟩
        match r with
        | .error f => exact h.append.append.ended_failed hlt (textOr_ne_empty hexec _) context
        | .ok none => exact h.append.append.ended_failed hlt (runNotFound_ne_empty runId) context
        | .ok (some run) =>
          exact ⟨_, rfl, h.append.run, Log.closed_snoc fun hf => nomatch hf⟩
      | .ok true =>
        refine (h.append.keepsTo_step e step context).bind fun log r h => ?_
        by_cases hr : r.success
        · rw [if_pos hr]
          exact ih (nextIndex_le w hlt r.next) _ h
        · rw [if_neg hr]
          exact h.ended_failed hlt (textOr_ne_empty (by decide) _) context

theorem conclude_keepsTo {run : Run} {ending : Ending} (h : Ended w run.id log ending) :
    (conclude run ending).KeepsTo drives Returned log := by
  cases ending with
  | overtaken stored =>
    obtain ⟨before, hb, hr, hc⟩ := h
    exact fun _ _ => ⟨before, run.id, hb, hr, hc⟩
  | reached index context error =>
    obtain ⟨h, hd⟩ := h
    refine ⟨trivial, fun now => ⟨h.append.drives_updateRun (hd now), fun r => ?_⟩⟩
    match r with
    | .error f =>
      intro ht _
      exact absurd List.mem_concat_self (ht.updates _ _ _ f)
    | .ok made =>
      refine ⟨h.append.append.run, fun r => ?_⟩
      match r with
      | .error f =>
        intro ht _
        exact absurd List.mem_concat_self (ht.reads _ f)
      | .ok none =>
        intro _ hfound
        exact absurd List.mem_concat_self (hfound run.id)
      | .ok (some stored) =>
        exact fun _ _ => ⟨_, run.id, rfl, h.append.append.run, Log.closed_snoc fun _ => rfl⟩

theorem run_keepsTo (e : Engine) (context : Table Json) (hd : Log.definition? log = some w)
    (hr : Log.runId? log = none) : (e.run w context).KeepsTo drives Returned log := by
  -- The run is made once, and its id is known from then on.
  refine ⟨⟨hr, w, hd⟩, fun run => ?_⟩
  have hid : Log.runId? (log ++ [⟨.store (.createRun w.id context), run⟩]) = some run.id :=
    Log.runId?_snoc_of_eq_none hr
  refine (drive_keepsTo e _ (Nat.zero_le _) context ⟨Log.definition?_append hd, hid⟩).bind ?_
  exact fun _ _ h => conclude_keepsTo h

theorem withWorkflow_keepsTo {f : Workflow → Work (Except Fault Run)} (id : String)
    (hf : ∀ w log, Log.definition? log = some w → Log.runId? log = none →
      (f w).KeepsTo drives Returned log) :
    (withWorkflow id f).KeepsTo drives Returned [] := by
  -- Without a definition nothing is made.
  refine ⟨trivial, fun r => ?_⟩
  match r with
  | .error f => exact fun _ _ => rfl
  | .ok none => exact fun _ _ => rfl
  | .ok (some w) => exact hf w _ rfl rfl

theorem execute_keepsTo (e : Engine) (id : String) (context : Table Json) :
    (e.execute id context).KeepsTo drives Returned [] :=
  withWorkflow_keepsTo id fun _ _ hd hr => run_keepsTo e context hd hr

theorem trigger_keepsTo (e : Engine) (id : String) (context : Table Json) (kind : String)
    (triggeredBy : Option String) :
    (e.trigger id context kind triggeredBy).KeepsTo drives Returned [] := by
  refine withWorkflow_keepsTo id fun w log hd hr => ?_
  by_cases he : w.enabled
  · rw [if_pos he]
    refine ⟨trivial, fun now => run_keepsTo e _ (Log.definition?_append hd) ?_⟩
    unfold Log.runId? at *
    rw [List.findSome?_append, hr]
    rfl
  · rw [if_neg he]
    exact fun _ _ => hr

end Engine

end Conductor
