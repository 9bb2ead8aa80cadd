import Conductor.Proofs.Engine.Interpreter

/-! The way of a run through a workflow: the steps that were carried out, and the context that they leave
behind. A context only grows, under the ids of steps that succeed. -/

namespace Conductor

/-- A step that was carried out, with the context that it was handed and with what came out of it. -/
structure Visit where
  step : Step
  context : Table Json
  outcome : Outcome

/-- The step succeeded with an output that is not null. -/
def Visit.Yields (v : Visit) : Prop := v.outcome.success = true ∧ v.outcome.output.isNull = false

/-- The context after a visit. -/
def Visit.leave (v : Visit) (context : Table Json) : Table Json :=
  if v.outcome.success then Workflow.bound context v.step v.outcome.output else context

/-- What a context holds after some visits of a run that began with `initial`. -/
structure Grown (initial : Table Json) (visits : List Visit) (context : Table Json) : Prop where
  kept : ∀ key, Table.has initial key → Table.has context key
  untouched : ∀ key, key ≠ "_last_output" → (∀ v ∈ visits, v.outcome.success = true → v.step.id ≠ key) →
    Table.get? context key = Table.get? initial key
  /-- Under the id of a step is its latest output. -/
  latest : ∀ before v after, visits = before ++ v :: after → v.Yields → v.step.id ≠ "_last_output" →
    (∀ u ∈ after, u.Yields → u.step.id ≠ v.step.id) → Table.get? context v.step.id = some v.outcome.output
  last : ∀ before v after, visits = before ++ v :: after → v.Yields → (∀ u ∈ after, ¬ u.Yields) →
    Table.get? context "_last_output" = some v.outcome.output
  unset : (∀ v ∈ visits, ¬ v.Yields) →
    Table.get? context "_last_output" = Table.get? initial "_last_output"

section Grown

variable {initial context : Table Json} {visits : List Visit} {v : Visit}

theorem Visit.leave_of_not_yields (h : ¬ v.Yields) (context : Table Json) : v.leave context = context := by
  unfold leave Workflow.bound
  split
  · next hs =>
    rw [if_pos]
    cases hn : v.outcome.output.isNull with
    | true => rfl
    | false => exact absurd ⟨hs, hn⟩ h
  · rfl

theorem Visit.get?_leave (h : v.Yields) (context : Table Json) (key : String) :
    Table.get? (v.leave context) key =
      if "_last_output" = key ∨ v.step.id = key then some v.outcome.output else Table.get? context key := by
  unfold leave Workflow.bound
  rw [if_pos h.1, if_neg (by rw [h.2]; exact Bool.false_ne_true), Table.get?_put, Table.get?_put]
  by_cases hlast : "_last_output" = key
  · simp [hlast]
  · simp [hlast]

/-- Nothing but the id of the step and the key of the latest output changes. -/
theorem Visit.get?_leave_of_ne {key : String} (hlast : key ≠ "_last_output")
    (hid : v.outcome.success = true → v.step.id ≠ key) (context : Table Json) :
    Table.get? (v.leave context) key = Table.get? context key := by
  by_cases h : v.Yields
  · rw [v.get?_leave h, if_neg]
    rintro (he | he)
    · exact hlast he.symm
    · exact hid h.1 he
  · rw [v.leave_of_not_yields h]

theorem Visit.has_leave {key : String} (v : Visit) (h : Table.has context key) :
    Table.has (v.leave context) key := by
  by_cases hy : v.Yields
  · unfold Table.has
    rw [v.get?_leave hy]
    split
    · rfl
    · exact h
  · rwa [v.leave_of_not_yields hy]

theorem grown_nil (initial : Table Json) : Grown initial [] initial where
  kept _ h := h
  untouched _ _ _ := rfl
  latest before v after he := by cases before <;> cases he
  last before v after he := by cases before <;> cases he
  unset _ := rfl

/-- What one more visit does to the context. -/
theorem Grown.snoc (h : Grown initial visits context) (v : Visit) :
    Grown initial (visits ++ [v]) (v.leave context) where
  kept key hk := v.has_leave (h.kept key hk)
  untouched key hlast hid := by
    rw [v.get?_leave_of_ne hlast (hid v List.mem_concat_self)]
    exact h.untouched key hlast fun u hu => hid u (List.mem_append_left _ hu)
  latest before u after he hu hlast hlater := by
    rcases snoc_eq_append_cons he with ⟨_, _, rfl⟩ | ⟨more, rfl, hvisits⟩
    · rw [v.get?_leave hu, if_pos (Or.inr rfl)]
    · -- The last visit yields nothing under the id of this one.
      have hnot : v.Yields → v.step.id ≠ u.step.id := hlater v List.mem_concat_self
      have hsame : Table.get? (v.leave context) u.step.id = Table.get? context u.step.id := by
        by_cases hv : v.Yields
        · rw [v.get?_leave hv, if_neg]
          rintro (he | he)
          · exact hlast he.symm
          · exact hnot hv he
        · rw [v.leave_of_not_yields hv]
      rw [hsame]
      exact h.latest before u more hvisits hu hlast fun x hx => hlater x (List.mem_append_left _ hx)
  last before u after he hu hlater := by
    rcases snoc_eq_append_cons he with ⟨_, _, rfl⟩ | ⟨more, rfl, hvisits⟩
    · rw [v.get?_leave hu, if_pos (Or.inl rfl)]
    · rw [v.leave_of_not_yields (hlater v List.mem_concat_self)]
      exact h.last before u more hvisits hu fun x hx => hlater x (List.mem_append_left _ hx)
  unset hnone := by
    rw [v.leave_of_not_yields (hnone v List.mem_concat_self)]
    exact h.unset fun u hu => hnone u (List.mem_append_left _ hu)

end Grown

namespace Workflow

/-- The way of a run that has come to `index` with `context`: each step on it succeeded and led on. -/
inductive Way (w : Workflow) (initial : Table Json) : List Visit → Nat → Table Json → Prop
  | start : Way w initial [] 0 initial
  | step {visits : List Visit} {index : Nat} {context : Table Json} {step : Step} {outcome : Outcome}
      (h : Way w initial visits index context) (hs : w.steps[index]? = some step)
      (hr : outcome.success = true) :
      Way w initial (visits ++ [⟨step, context, outcome⟩]) (w.place index outcome.next)
        (bound context step outcome.output)

variable {w : Workflow} {initial context : Table Json} {visits : List Visit} {index : Nat}

theorem Way.grown (h : w.Way initial visits index context) : Grown initial visits context := by
  induction h with
  | start => exact grown_nil initial
  | @step visits index context step outcome h hs hr ih =>
    have hleave := ih.snoc ⟨step, context, outcome⟩
    rwa [Visit.leave, if_pos hr] at hleave

/-- The last step has left its output behind. -/
theorem Way.eq_bound (h : w.Way initial visits index context) {v : Visit} (hv : visits.getLast? = some v) :
    v.outcome.success = true ∧ context = bound v.context v.step v.outcome.output := by
  cases h with
  | start => cases hv
  | step h hs hr =>
    rw [List.getLast?_concat] at hv
    obtain rfl := Option.some.inj hv
    exact ⟨hr, rfl⟩

theorem Way.eq_initial (h : w.Way initial visits index context) (hv : visits = []) : context = initial := by
  cases h with
  | start => rfl
  | step h hs hr => exact absurd hv (List.append_ne_nil_of_right_ne_nil _ (List.cons_ne_nil _ _))

theorem Way.success (h : w.Way initial visits index context) : ∀ v ∈ visits, v.outcome.success = true := by
  induction h with
  | start => exact fun _ hv => nomatch hv
  | step h hs hr ih =>
    intro v hv
    rcases List.mem_append.mp hv with hv | hv
    · exact ih v hv
    · obtain rfl := List.mem_singleton.mp hv
      exact hr

end Workflow

end Conductor
