import Conductor.Proofs.Engine.Announced
import Conductor.Proofs.Engine.Log
import Mathlib.Data.List.Forall2
import Mathlib.Data.List.Induction

/-! What a log of acts tells: the checkpoints that were made of a run and the steps that began for it, and
what the last question to the store leaves to be done. -/

namespace Conductor

/-- The place and the context that a change writes down while it leaves the status alone. -/
def Change.place? (c : Change) : Option (Int × Table Json) :=
  match c.status, c.currentStep, c.context with
  | .none, some index, some context => some (index, context)
  | _, _, _ => .none

theorem Change.context_of_place? {c : Change} {p : Int × Table Json} (h : c.place? = some p) :
    c.context = some p.2 := by
  unfold place? at h
  split at h
  · next _ _ hcontext =>
    obtain rfl := Option.some.inj h
    exact hcontext
  · cases h

/-- A step is handed a context at the place, and with the context, of a checkpoint. -/
def Workflow.Hands (w : Workflow) (p : Int × Table Json) (handed : Step × Table Json) : Prop :=
  ∃ index : Nat, p = (↑index, handed.2) ∧ w.steps[index]? = some handed.1

namespace Log

/-- The run that an act changes, and how. -/
def change? : (a : Act) × a.Answer → Option (String × Change)
  | ⟨.call (.store (.updateRun id c _)), .ok true⟩ => some (id, c)
  | _ => none

/-- The run that an act makes, and the context that the run begins with. -/
def created? : (a : Act) × a.Answer → Option (String × Table Json)
  | ⟨.call (.store (.createRun _ context)), run⟩ => some (run.id, context)
  | _ => none

/-- The run for which a step begins, with the step and its context. -/
def invoked? : (a : Act) × a.Answer → Option (String × Step × Table Json)
  | ⟨.invoke id step context, _⟩ => some (id, step, context)
  | _ => none

/-- The run for which an act is a checkpoint, with the place and the context written. -/
def checkpoint? (x : (a : Act) × a.Answer) : Option (String × Int × Table Json) :=
  (change? x).bind fun u => u.2.place?.map fun p => (u.1, p)

/-- The act by which a run is cancelled. -/
abbrev cancellation (id : String) (now : Time) : (a : Act) × a.Answer :=
  ⟨.call (.store (.updateRun id (.cancel now) Engine.runningName)), .ok true⟩

/-- What those acts of a log hold that are about one run. -/
def about {α : Type} (f : (a : Act) × a.Answer → Option (String × α)) (id : String)
    (log : Log Act.Answer) : List α :=
  log.filterMap fun x => (f x).bind fun u => if u.1 = id then some u.2 else none

/-- The checkpoints made of a run. -/
def checkpoints : String → Log Act.Answer → List (Int × Table Json) := about checkpoint?

/-- The steps begun for a run, each with the context handed to it. -/
def invocations : String → Log Act.Answer → List (Step × Table Json) := about invoked?

/-- The questions and answers among the acts. -/
def calls (log : Log Act.Answer) : Log Call.Answer := log.filterMap fun
  | ⟨.call q, r⟩ => some ⟨q, r⟩
  | ⟨.invoke _ _ _, _⟩ => none

/-- The checkpoint made last thing. -/
def due? (log : Log Act.Answer) : Option (String × Int × Table Json) := log.getLast?.bind checkpoint?

/-- The checkpoint made with the last question to the store. -/
def open? (log : Log Act.Answer) : Option (String × Int × Table Json) :=
  log.foldl (fun p x =>
    match x.1 with
    | .call (.store _) => checkpoint? x
    | _ => p) none

/-- The step that has begun, while nothing but the world was asked since. -/
def engaged? (log : Log Act.Answer) : Option (String × Step × Table Json) :=
  log.foldl (fun step x =>
    match x.1 with
    | .call (.outside _) => step
    | _ => invoked? x) none

/-- A step of the definition that was found is handed what a checkpoint holds. -/
def Hands (log : Log Act.Answer) (p : Int × Table Json) (handed : Step × Table Json) : Prop :=
  ∃ w, definition? log.calls = some w ∧ w.Hands p handed

/-- The last question to the store made a checkpoint for this step of the run. -/
def Faces (log : Log Act.Answer) (id : String) (step : Step) (context : Table Json) : Prop :=
  runId? log.calls = some id ∧ ∃ p, open? log = some (id, p) ∧ log.Hands p (step, context)

variable {α : Type} {f : (a : Act) × a.Answer → Option (String × α)} {id : String}
variable {log more : Log Act.Answer} {x : (a : Act) × a.Answer}

theorem about_append (f : (a : Act) × a.Answer → Option (String × α)) (id : String)
    (log more : Log Act.Answer) : about f id (log ++ more) = about f id log ++ about f id more :=
  List.filterMap_append

theorem checkpoints_append (id : String) (log more : Log Act.Answer) :
    checkpoints id (log ++ more) = checkpoints id log ++ checkpoints id more :=
  about_append _ _ _ _

theorem invocations_append (id : String) (log more : Log Act.Answer) :
    invocations id (log ++ more) = invocations id log ++ invocations id more :=
  about_append _ _ _ _

theorem about_eq_nil (h : ∀ x ∈ log, ∀ u, f x = some u → u.1 ≠ id) : about f id log = [] := by
  refine List.filterMap_eq_nil_iff.mpr fun x hx => ?_
  cases hu : f x with
  | none => rfl
  | some u => rw [Option.bind_some, if_neg (h x hx u hu)]

theorem about_singleton_eq_nil (h : ∀ a, f x ≠ some (id, a)) : about f id [x] = [] := by
  refine about_eq_nil fun y hy u hu he => ?_
  obtain rfl := List.mem_singleton.mp hy
  exact h u.2 (he ▸ hu)

theorem about_singleton {a : α} (h : f x = some (id, a)) : about f id [x] = [a] := by
  simp [about, h]

theorem about_eq_nil_of_subset (hs : log ⊆ more) (h : about f id more = []) : about f id log = [] := by
  refine about_eq_nil fun x hx u hu hid => ?_
  have hnone := List.filterMap_eq_nil_iff.mp h x (hs hx)
  rw [hu, Option.bind_some, if_pos hid] at hnone
  cases hnone

theorem calls_append (log more : Log Act.Answer) : calls (log ++ more) = calls log ++ calls more :=
  List.filterMap_append

theorem mem_calls_concat {q : Call} {r : q.Answer} : ⟨q, r⟩ ∈ calls (log ++ [⟨.call q, r⟩]) := by
  rw [calls_append]
  exact List.mem_concat_self

theorem runId?_calls_append (h : runId? log.calls = some id) (more : Log Act.Answer) :
    runId? (log ++ more).calls = some id := by
  rw [calls_append]
  exact runId?_append h

theorem definition?_calls_append {w : Workflow} (h : definition? log.calls = some w)
    (more : Log Act.Answer) : definition? (log ++ more).calls = some w := by
  rw [calls_append]
  exact definition?_append h

theorem Hands.append {p : Int × Table Json} {handed : Step × Table Json} (h : log.Hands p handed)
    (more : Log Act.Answer) : (log ++ more).Hands p handed := by
  obtain ⟨w, hw, hp⟩ := h
  exact ⟨w, definition?_calls_append hw more, hp⟩

/-- The id of a run is new to a log when the last act made this run, and only then. -/
theorem runId?_calls_snoc (h : runId? (log ++ [x]).calls = some id) :
    runId? log.calls = some id ∨ ∃ context, created? x = some (id, context) := by
  obtain ⟨a, r⟩ := x
  cases a with
  | invoke id' step context =>
    rw [calls_append] at h
    exact Or.inl ((congrArg runId? (List.append_nil _)).symm.trans h)
  | call q =>
    rw [calls_append] at h
    rcases runId?_snoc h with h | ⟨workflowId, context, run, hx, rfl⟩
    · exact Or.inl h
    · cases hx
      exact Or.inr ⟨context, rfl⟩

theorem mem_of_mem_calls {q : Call} {r : q.Answer} (h : ⟨q, r⟩ ∈ calls log) : ⟨.call q, r⟩ ∈ log := by
  obtain ⟨⟨a, s⟩, hx, h⟩ := List.mem_filterMap.mp h
  cases a with
  | call q' =>
    cases Option.some.inj h
    exact hx
  | invoke id step context => cases h

@[simp] theorem due?_snoc (log : Log Act.Answer) (x : (a : Act) × a.Answer) :
    due? (log ++ [x]) = checkpoint? x := by
  simp [due?]

@[simp] theorem open?_snoc_store (log : Log Act.Answer) (c : StoreCall) (r : c.Answer) :
    open? (log ++ [⟨.call (.store c), r⟩]) = checkpoint? ⟨.call (.store c), r⟩ := by
  simp [open?]

@[simp] theorem open?_snoc_outside (log : Log Act.Answer) (o : Outside) (r : o.Answer) :
    open? (log ++ [⟨.call (.outside o), r⟩]) = open? log := by
  simp [open?]

@[simp] theorem open?_snoc_invoke (log : Log Act.Answer) (id : String) (step : Step)
    (context : Table Json) : open? (log ++ [⟨.invoke id step context, ()⟩]) = open? log := by
  simp [open?]

@[simp] theorem engaged?_snoc_outside (log : Log Act.Answer) (o : Outside) (r : o.Answer) :
    engaged? (log ++ [⟨.call (.outside o), r⟩]) = engaged? log := by
  simp [engaged?]

@[simp] theorem engaged?_snoc_invoke (log : Log Act.Answer) (id : String) (step : Step)
    (context : Table Json) :
    engaged? (log ++ [⟨.invoke id step context, ()⟩]) = some (id, step, context) := by
  simp [engaged?, invoked?]

theorem change?_eq_some {c : Change} (h : change? x = some (id, c)) :
    ∃ expected, x = ⟨.call (.store (.updateRun id c expected)), .ok true⟩ := by
  unfold change? at h
  split at h
  · cases h
    exact ⟨_, rfl⟩
  · cases h

theorem created?_eq_some {context : Table Json} (h : created? x = some (id, context)) :
    ∃ workflowId run, x = ⟨.call (.store (.createRun workflowId context)), run⟩ ∧ run.id = id := by
  unfold created? at h
  split at h
  · cases h
    exact ⟨_, _, rfl, rfl⟩
  · cases h

theorem invoked?_eq_some {p : Step × Table Json} (h : invoked? x = some (id, p)) :
    x = ⟨.invoke id p.1 p.2, ()⟩ := by
  unfold invoked? at h
  split at h
  · cases h
    rfl
  · cases h

theorem checkpoint?_eq_some {p : Int × Table Json} (h : checkpoint? x = some (id, p)) :
    ∃ c, change? x = some (id, c) ∧ c.place? = some p := by
  obtain ⟨u, hu, h⟩ := Option.bind_eq_some_iff.mp h
  obtain ⟨q, hq, h⟩ := Option.map_eq_some_iff.mp h
  cases h
  exact ⟨u.2, hu, hq⟩

theorem checkpoint?_of_change? {c : Change} (h : change? x = some (id, c)) :
    checkpoint? x = c.place?.map fun p => (id, p) := by
  rw [checkpoint?, h, Option.bind_some]

theorem open?_of_due? {u : String × Int × Table Json} (h : due? log = some u) : open? log = some u := by
  rcases List.eq_nil_or_concat log with rfl | ⟨before, x, rfl⟩
  · cases h
  · rw [List.concat_eq_append, due?_snoc] at h
    obtain ⟨c, hc, _⟩ := checkpoint?_eq_some (p := u.2) h
    obtain ⟨expected, rfl⟩ := change?_eq_some hc
    rw [List.concat_eq_append, open?_snoc_store, h]

/-- Since the last question to the store no other checkpoint was made. -/
theorem getLast?_checkpoints {p : Int × Table Json} (h : open? log = some (id, p)) :
    (checkpoints id log).getLast? = some p := by
  induction log using List.reverseRecOn with
  | nil => cases h
  | append_singleton log x ih =>
    obtain ⟨a, r⟩ := x
    match a with
    | .call (.store q) =>
      rw [open?_snoc_store] at h
      have hlast : checkpoints id [⟨.call (.store q), r⟩] = [p] := about_singleton h
      rw [checkpoints_append, hlast, List.getLast?_concat]
    | .call (.outside o) =>
      have hnone : checkpoints id [⟨.call (.outside o), r⟩] = [] := rfl
      rw [open?_snoc_outside] at h
      rw [checkpoints_append, hnone, List.append_nil, ih h]
    | .invoke id' step context =>
      have hnone : checkpoints id [⟨.invoke id' step context, r⟩] = [] := rfl
      rw [open?_snoc_invoke] at h
      rw [checkpoints_append, hnone, List.append_nil, ih h]

theorem checkpoints_getLast? (id : String) (log : Log Act.Answer) :
    checkpoints id log.getLast?.toList =
      ((due? log).bind fun u => if u.1 = id then some u.2 else none).toList := by
  unfold due?
  cases log.getLast? with
  | none => rfl
  | some x =>
    rw [Option.bind_some]
    cases h : (checkpoint? x).bind fun u => if u.1 = id then some u.2 else none with
    | none => simp [checkpoints, about, h]
    | some p => simp [checkpoints, about, h]

end Log

end Conductor
