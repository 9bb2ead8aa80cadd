import Conductor.Proofs.Engine.Driving
import Conductor.Proofs.System.Office

/-! The rule of each call: what it may ask of the store, and what it may come back with. -/

namespace Conductor

/-- What is asked to cancel a run, one question after the other: the run is looked up, and it is marked if
it was found. -/
inductive cancels (runId : String) : Log Call.Answer → Call → Prop
  | look : cancels runId [] (.store (.getRun runId))
  | clock (run : Run) : cancels runId [⟨.store (.getRun runId), .ok (some run)⟩] (.store .now)
  | mark (run : Run) (now : Time) :
    cancels runId [⟨.store (.getRun runId), .ok (some run)⟩, ⟨.store .now, now⟩]
      (.store (.updateRun runId (.cancel now) Engine.runningName))

/-- What a cancellation comes back with: what its one update was answered, or else a fault, for a run that
was not found or from a store that failed. -/
def Cancelled (runId : String) (log : Log Call.Answer) : Except Fault Bool → Prop
  | .ok made => ∃ run now, log = [⟨.store (.getRun runId), .ok (some run)⟩, ⟨.store .now, now⟩,
      ⟨.store (.updateRun runId (.cancel now) Engine.runningName), .ok made⟩]
  | .error _ => log = [⟨.store (.getRun runId), .ok none⟩] ∨ ¬ log.Trusted

namespace Operation

/-- The calls that carry out a workflow. -/
def Drives : Operation → Prop
  | .execute _ _ _ | .trigger _ _ _ _ _ => True
  | _ => False

/-- What a call may ask. Only the calls that carry out a workflow or cancel a run update runs. -/
def Allows : Operation → Log Call.Answer → Call → Prop
  | .execute _ _ _ | .trigger _ _ _ _ _ => Engine.drives
  | .cancel id => cancels id
  | .get _ | .list _ | .stats _ => fun _ q =>
    match q with
    | .store (.getRun _) | .store (.listRuns _) => True
    | _ => False
  | .save w => fun _ q => q = .store (.saveWorkflow w)

/-- What a call may come back with. -/
def Ends : Operation → Log Call.Answer → Reply → Prop
  | .execute _ _ _, log, .run r | .trigger _ _ _ _ _, log, .run r => Engine.Returned log r
  | .cancel id, log, .cancelled r => Cancelled id log r
  | .execute _ _ _, _, _ | .trigger _ _ _ _ _, _, _ | .cancel _, _, _ => False
  | _, _, _ => True

theorem cancelRun_keepsTo (id : String) :
    (cancelRun id).KeepsTo (cancels id) (Cancelled id) [] := by
  refine ⟨.look, fun r => ?_⟩
  match r with
  | .error f => exact Or.inr fun ht => ht.reads id f List.mem_concat_self
  | .ok none => exact Or.inl rfl
  | .ok (some run) =>
    refine ⟨.clock run, fun now => ⟨.mark run now, fun r => ?_⟩⟩
    -- After the update nothing more is asked.
    match r with
    | .ok made => exact ⟨run, now, rfl⟩
    | .error f => exact Or.inr fun ht => ht.updates _ _ _ f List.mem_concat_self

theorem work_keepsTo (op : Operation) : op.work.KeepsTo op.Allows op.Ends [] := by
  cases op with
  | execute e id context =>
    apply Program.KeepsTo.map
    exact Engine.execute_keepsTo e id context
  | trigger e id context kind triggeredBy =>
    apply Program.KeepsTo.map
    exact Engine.trigger_keepsTo e id context kind triggeredBy
  | cancel id =>
    apply Program.KeepsTo.map
    exact cancelRun_keepsTo id
  | get id =>
    refine ⟨trivial, fun r => ?_⟩
    match r with
    | .error _ | .ok none | .ok (some _) => trivial
  | list id => exact ⟨trivial, fun _ => trivial⟩
  | stats id => exact ⟨trivial, fun _ => trivial⟩
  | save w => exact ⟨rfl, fun _ => trivial⟩

variable {op : Operation} {log : Log Call.Answer}

/-- Only the engine makes runs, each call at most one, on the definition that it found. -/
theorem Allows.createRun {workflowId : String} {context : Table Json}
    (h : op.Allows log (.store (.createRun workflowId context))) :
    log.runId? = none ∧ ∃ w, log.definition? = some w := by
  cases op with
  | execute e id context => exact h
  | trigger e id context kind triggeredBy => exact h
  | cancel id => cases h
  | save w => cases h
  | _ => exact False.elim h

/-- Runs are updated by the call that made them, and by cancellations. -/
theorem Allows.updateRun {runId : String} {c : Change} {expected : Option String}
    (h : op.Allows log (.store (.updateRun runId c expected))) :
    expected = Engine.runningName ∧
      ((log.runId? = some runId ∧ ∃ w, log.definition? = some w ∧ c.Driven w.steps.length) ∨
        (op = .cancel runId ∧ (∃ now, c = .cancel now) ∧
          ∃ run, ⟨.store (.getRun runId), .ok (some run)⟩ ∈ log)) := by
  cases op with
  | execute e id context => exact ⟨h.1, Or.inl h.2⟩
  | trigger e id context kind triggeredBy => exact ⟨h.1, Or.inl h.2⟩
  | cancel id =>
    cases h with
    | mark run now => exact ⟨rfl, Or.inr ⟨rfl, ⟨now, rfl⟩, run, List.mem_cons_self⟩⟩
  | save w => cases h
  | _ => exact False.elim h

theorem Ends.returned {r : Reply} (h : op.Ends log r) (hd : op.Drives) :
    ∃ result, r = .run result ∧ Engine.Returned log result := by
  cases op with
  | execute e id context =>
    cases r with
    | run result => exact ⟨result, rfl, h⟩
    | _ => exact h.elim
  | trigger e id context kind triggeredBy =>
    cases r with
    | run result => exact ⟨result, rfl, h⟩
    | _ => exact h.elim
  | _ => exact hd.elim

theorem Allows.proper {q : Call} (h : op.Allows log q) : q.Proper := by
  match q with
  | .store (.updateRun id c expected) =>
    obtain ⟨he, ⟨_, _, _, hc⟩ | ⟨_, ⟨now, rfl⟩, _⟩⟩ := h.updateRun
    · exact ⟨he, hc.plain⟩
    · exact ⟨he, Change.plain_cancel now⟩
  | .store (.getWorkflow _) | .store (.createRun _ _) | .store (.getRun _) | .store (.listRuns _)
  | .store (.saveWorkflow _) | .store .now | .outside _ => trivial

end Operation

end Conductor
