import Conductor.Proofs.Rule
import Conductor.Run.Engine

/-! What a log of work on runs tells: the definition that was found, the run that was made, and whether a
run is known to have ended. What it tells once it tells for good. Beside it stands what is asked to conclude
a run. -/

namespace Conductor.Log

variable {log more : Log Call.Answer} {id : String} {w : Workflow}

/-- The definition that was found. -/
def definition? (log : Log Call.Answer) : Option Workflow := log.findSome? fun
  | ⟨.store (.getWorkflow _), .ok (some w)⟩ => some w
  | _ => none

/-- The id of the run that was made. -/
def runId? (log : Log Call.Answer) : Option String := log.findSome? fun
  | ⟨.store (.createRun _ _), run⟩ => some run.id
  | _ => none

/-- An update of a run that leaves it ended: one that was refused, as the run was no longer running, or
one that was made and set its status. -/
def Closed (log : Log Call.Answer) (id : String) : Prop :=
  ∃ c made, ⟨.store (.updateRun id c Engine.runningName), .ok made⟩ ∈ log ∧
    (made = true → c.status.isSome)

/-- The store answered what it was asked of runs. -/
structure Trusted (log : Log Call.Answer) : Prop where
  updates : ∀ id c expected f, ⟨.store (.updateRun id c expected), .error f⟩ ∉ log
  reads : ∀ id f, ⟨.store (.getRun id), .error f⟩ ∉ log

theorem definition?_append (h : definition? log = some w) : definition? (log ++ more) = some w := by
  unfold definition? at *
  rw [List.findSome?_append, h]
  rfl

theorem runId?_append (h : runId? log = some id) : runId? (log ++ more) = some id := by
  unfold runId? at *
  rw [List.findSome?_append, h]
  rfl

/-- The id of a run is new to a log when the last answer is this run, and only then. -/
theorem runId?_snoc {x : (q : Call) × q.Answer} (h : runId? (log ++ [x]) = some id) :
    runId? log = some id ∨
      ∃ workflowId context run, x = ⟨.store (.createRun workflowId context), run⟩ ∧ run.id = id := by
  unfold runId? at *
  rw [List.findSome?_append, Option.or_eq_some_iff] at h
  rcases h with h | ⟨_, h⟩
  · exact Or.inl h
  · rw [List.findSome?_singleton] at h
    split at h
    · next workflowId context run => exact Or.inr ⟨workflowId, context, run, rfl, Option.some.inj h⟩
    · cases h

theorem runId?_snoc_of_eq_none {workflowId : String} {context : Table Json} {run : Run}
    (h : runId? log = none) :
    runId? (log ++ [⟨.store (.createRun workflowId context), run⟩]) = some run.id := by
  unfold runId? at *
  rw [List.findSome?_append, h]
  rfl

theorem closed_snoc {c : Change} {made : Bool} (h : made = true → c.status.isSome) :
    Closed (log ++ [⟨.store (.updateRun id c Engine.runningName), .ok made⟩]) id :=
  ⟨c, made, List.mem_concat_self, h⟩

theorem Trusted.of_append (h : Trusted (log ++ more)) : Trusted log where
  updates id c expected f hm := h.updates id c expected f (List.mem_append_left _ hm)
  reads id f hm := h.reads id f (List.mem_append_left _ hm)

theorem Closed.append (h : Closed log id) : Closed (log ++ more) id := by
  obtain ⟨c, made, hm, hs⟩ := h
  exact ⟨c, made, List.mem_append_left _ hm, hs⟩

end Conductor.Log

namespace Conductor.Engine

/-- The questions that conclude a run: for the time, to write the end of the run down if it is still running,
and for the run as it is stored. -/
def Concluding (run : Run) : Call → Prop
  | .store .now => True
  | .store (.updateRun id c expected) => id = run.id ∧ expected = runningName ∧
      ∃ index context error now, c = .final index context error now
  | .store (.getRun id) => id = run.id
  | _ => False

theorem keepsTo_conclude (run : Run) (ending : Ending) (log : Log Call.Answer) :
    (conclude run ending).KeepsTo (fun _ q => Concluding run q) (fun _ _ => True) log := by
  cases ending with
  | overtaken stored => trivial
  | reached index context error =>
    refine ⟨trivial, fun now => ⟨⟨rfl, rfl, index, context, error, now, rfl⟩, fun r => ?_⟩⟩
    match r with
    | .error f => trivial
    | .ok made =>
      refine ⟨rfl, fun r => ?_⟩
      match r with
      | .error f | .ok none | .ok (some stored) => trivial

end Conductor.Engine
