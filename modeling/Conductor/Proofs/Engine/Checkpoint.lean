import Conductor.Proofs.Engine.Acts

/-! Checkpoints and the steps they are made for. The engine carries out a step right after the checkpoint
with its place and its context was made, and it asks the world nothing but on behalf of such a step. -/

namespace Conductor

namespace Engine

/-- What may be done after a log. A step begins right after its own checkpoint, and after a checkpoint
nothing else may be done. The world is asked only by a step that has begun. -/
def announces (log : Log Act.Answer) : Act → Prop
  | .invoke id step context => (Log.due? log).isSome ∧ log.Faces id step context
  | .call (.outside _) => Log.due? log = none ∧ ∃ id step context,
      Log.engaged? log = some (id, step, context) ∧ log.Faces id step context
  | .call (.store (.updateRun id c _)) =>
      Log.due? log = none ∧ (c.place?.isSome → Log.runId? log.calls = some id)
  | .call (.store _) => Log.due? log = none

theorem due?_of_announces {log : Log Act.Answer} {q : Call} (h : announces log (.call q)) :
    Log.due? log = none := by
  match q with
  | .store (.updateRun _ _ _) => exact h.1
  | .store (.getWorkflow _) | .store (.saveWorkflow _) | .store (.createRun _ _)
  | .store (.getRun _) | .store (.listRuns _) | .store .now => exact h
  | .outside _ => exact h.1

/-- Nothing is left to be done for a checkpoint. -/
def Clear {α : Type} (log : Log Act.Answer) (_ : α) : Prop := Log.due? log = none

variable {w : Workflow} {id : String} {log : Log Act.Answer}

/-- The way through the steps of a workflow for one run goes on with a checkpoint. -/
structure Going (w : Workflow) (id : String) (log : Log Act.Answer) : Prop where
  clear : Log.due? log = none
  run : Log.runId? log.calls = some id
  definition : Log.definition? log.calls = some w

theorem Going.snoc (h : Going w id log) {x : (a : Act) × a.Answer} (hx : Log.checkpoint? x = none) :
    Going w id (log ++ [x]) :=
  ⟨(Log.due?_snoc log x).trans hx, Log.runId?_calls_append h.run _,
    Log.definition?_calls_append h.definition _⟩

/-- A step that has begun asks the world for itself. -/
theorem Going.keepsTo_step {α : Type} {step : Step} {context : Table Json} (h : Going w id log)
    (he : Log.engaged? log = some (id, step, context)) (hf : log.Faces id step context)
    (errand : Program Outside.Answer α) :
    (Announced.ofOutside errand).KeepsTo announces (fun log _ => Going w id log) log := by
  let begun (log : Log Act.Answer) : Prop :=
    Going w id log ∧ Log.engaged? log = some (id, step, context) ∧ log.Faces id step context
  have hkeep : (Announced.ofOutside errand).KeepsTo announces (fun log _ => begun log) log := by
    refine Program.keepsTo_embed (fun log o h => ?_) (fun log o r h => ?_) ⟨h, he, hf⟩ errand
    · exact ⟨h.1.clear, id, step, context, h.2⟩
    · obtain ⟨hg, he, hr, p, ho, hp⟩ := h
      refine ⟨hg.snoc rfl, ?_, Log.runId?_calls_append hr _, p, ?_, hp.append _⟩
      · rw [Log.engaged?_snoc_outside, he]
      · rw [Log.open?_snoc_outside, ho]
  exact hkeep.mono fun _ _ h => h.1

/-- A question of work that carries out no step: about what is stored, and no checkpoint. -/
def Incidental : Call → Prop
  | .store (.updateRun _ c _) => c.place? = none
  | .store _ => True
  | .outside _ => False

theorem Incidental.checkpoint?_eq_none {q : Call} (h : Incidental q) (r : q.Answer) :
    Log.checkpoint? ⟨.call q, r⟩ = none := by
  cases hc : Log.change? ⟨.call q, r⟩ with
  | none => rw [Log.checkpoint?, hc, Option.bind_none]
  | some u =>
    obtain ⟨id, c⟩ := u
    obtain ⟨expected, hx⟩ := Log.change?_eq_some hc
    cases hx
    have hp : c.place? = none := h
    rw [Log.checkpoint?_of_change? hc, hp, Option.map_none]

theorem Incidental.announces {q : Call} (h : Incidental q) (hd : Log.due? log = none) :
    Engine.announces log (.call q) := by
  match q with
  | .store (.updateRun id c expected) =>
    refine ⟨hd, fun hp => ?_⟩
    have hn : c.place? = none := h
    rw [hn] at hp
    cases hp
  | .store (.getWorkflow _) | .store (.saveWorkflow _) | .store (.createRun _ _)
  | .store (.getRun _) | .store (.listRuns _) | .store .now => exact hd
  | .outside o => exact h.elim

theorem keepsTo_ofWork {α : Type} {p : Work α} (before : Log Call.Answer)
    (hp : p.KeepsTo (fun _ q => Incidental q) (fun _ _ => True) before) (hd : Log.due? log = none) :
    (Announced.ofWork p).KeepsTo announces Clear log := by
  induction p generalizing before log with
  | done a => exact hd
  | ask q next ih =>
    obtain ⟨hq, hnext⟩ := hp
    refine ⟨hq.announces hd, fun r => ih r _ (hnext r) ?_⟩
    rw [Log.due?_snoc]
    exact hq.checkpoint?_eq_none r

/-- The end of a run is no checkpoint. -/
theorem Concluding.incidental {run : Run} {q : Call} (h : Concluding run q) : Incidental q := by
  match q with
  | .store (.updateRun id c expected) =>
    obtain ⟨-, -, index, context, error, now, rfl⟩ := h
    rfl
  | .store (.getRun _) | .store .now => trivial

/-- Each step begins for its own checkpoint, and after each checkpoint its step begins. -/
theorem announce_keepsTo (e : Engine) (left index : Nat) (context : Table Json) (h : Going w id log) :
    (e.announce w id left index context).KeepsTo announces Clear log := by
  induction left generalizing index context log with
  | zero =>
    unfold announce
    split
    · exact h.clear
    · exact h.clear
  | succ left ih =>
    unfold announce
    split
    · exact h.clear
    next step hs =>
    refine ⟨⟨h.clear, fun _ => h.run⟩, fun r => ?_⟩
    match r with
    | .error f => exact Log.due?_snoc _ _
    | .ok false =>
      refine ⟨Log.due?_snoc _ _, fun r => ?_⟩
      match r with
      | .error _ | .ok none | .ok (some _) => exact Log.due?_snoc _ _
    | .ok true =>
      -- Now the checkpoint is due, and it is this step that begins.
      let made : (a : Act) × a.Answer :=
        ⟨.call (.store (.updateRun id (.checkpoint index context) runningName)), .ok true⟩
      have hdue : Log.due? (log ++ [made]) = some (id, (index : Int), context) := Log.due?_snoc _ _
      have hfaces : (log ++ [made]).Faces id step context :=
        ⟨Log.runId?_calls_append h.run _, _, Log.open?_snoc_store _ _ _, w,
          Log.definition?_calls_append h.definition _, index, rfl, hs⟩
      refine ⟨⟨by rw [hdue]; rfl, hfaces⟩, fun _ => ?_⟩
      have hgoing : Going w id (log ++ [made] ++ [⟨.invoke id step context, ()⟩]) :=
        ⟨Log.due?_snoc _ _, Log.runId?_calls_append hfaces.1 _,
          Log.definition?_calls_append (Log.definition?_calls_append h.definition _) _⟩
      refine (hgoing.keepsTo_step (Log.engaged?_snoc_invoke _ _ _ _) ?_ _).bind fun log r h => ?_
      · have hopen := (Log.open?_snoc_invoke (log ++ [made]) id step context).trans
          (Log.open?_snoc_store _ _ _)
        exact ⟨hgoing.run, _, hopen, w, hgoing.definition, index, rfl, hs⟩
      · by_cases hsuccess : r.success
        · rw [if_pos hsuccess]
          exact ih _ _ h
        · rw [if_neg hsuccess]
          exact h.clear

theorem runAnnounced_keepsTo (e : Engine) (context : Table Json) (hd : Log.due? log = none)
    (hr : Log.runId? log.calls = none) (hw : Log.definition? log.calls = some w) :
    (e.runAnnounced w context).KeepsTo announces Clear log := by
  refine ⟨hd, fun run => ?_⟩
  let made : (a : Act) × a.Answer := ⟨.call (.store (.createRun w.id context)), run⟩
  have hmade : Log.runId? (log ++ [made]).calls = some run.id := by
    rw [Log.calls_append]
    exact Log.runId?_snoc_of_eq_none hr
  have hgoing : Going w run.id (log ++ [made]) :=
    ⟨Log.due?_snoc _ _, hmade, Log.definition?_calls_append hw _⟩
  refine (announce_keepsTo e _ _ context hgoing).bind fun log ending hd => ?_
  have hconclude := (keepsTo_conclude run ending []).mono_allows fun _ _ h => h.incidental
  exact keepsTo_ofWork [] hconclude hd

theorem withAnnounced_keepsTo {α : Type} {f : Workflow → Announced (Except Fault α)} (id : String)
    (hf : ∀ w log, Log.due? log = none → Log.runId? log.calls = none →
      Log.definition? log.calls = some w → (f w).KeepsTo announces Clear log) :
    (withAnnounced id f).KeepsTo announces Clear [] := by
  refine ⟨rfl, fun r => ?_⟩
  match r with
  | .error _ | .ok none => exact rfl
  | .ok (some w) => exact hf w _ rfl rfl rfl

/-- The steps that have begun for a run are those of its checkpoints, one after the other, but for a
checkpoint made last thing. -/
theorem hands_of_allowed (h : log.Allowed announces) (id : String) :
    ∃ done, Log.checkpoints id log = done ++ Log.checkpoints id log.getLast?.toList ∧
      List.Forall₂ log.Hands done (Log.invocations id log) := by
  induction h with
  | nil => exact ⟨[], rfl, .nil⟩
  | @snoc log a r _ ha ih =>
    obtain ⟨done, hdone, hhands⟩ := ih
    have hmore := hhands.imp fun _ _ hp => hp.append [⟨a, r⟩]
    rw [List.getLast?_concat, Option.toList_some, Log.checkpoints_append, Log.invocations_append]
    rw [Log.checkpoints_getLast?] at hdone
    cases a with
    | call q =>
      -- No checkpoint was left over, and no step begins.
      have hd := due?_of_announces ha
      have hnone : Log.invocations id [⟨.call q, r⟩] = [] := rfl
      rw [hd, Option.bind_none, Option.toList_none, List.append_nil] at hdone
      rw [hnone, List.append_nil, hdone]
      exact ⟨done, rfl, hmore⟩
    | invoke id' step context =>
      obtain ⟨hdue, _, p, hopen, hp⟩ := ha
      obtain ⟨u, hu⟩ := Option.isSome_iff_exists.mp hdue
      obtain rfl : u = (id', p) := Option.some.inj ((Log.open?_of_due? hu).symm.trans hopen)
      have hnone : Log.checkpoints id [⟨.invoke id' step context, r⟩] = [] := rfl
      rw [hnone]
      simp only [List.append_nil]
      rw [hdone, hu, Option.bind_some]
      by_cases hid : id' = id
      · -- The checkpoint that was left over is the one of the step that begins.
        have hbegun : Log.invocations id [⟨.invoke id' step context, r⟩] = [(step, context)] := by
          simp [Log.invocations, Log.about, Log.invoked?, hid]
        rw [if_pos hid, hbegun]
        exact ⟨_, rfl, List.rel_append hmore (.cons (hp.append _) .nil)⟩
      · have hother : Log.invocations id [⟨.invoke id' step context, r⟩] = [] := by
          simp [Log.invocations, Log.about, Log.invoked?, hid]
        rw [if_neg hid, hother, Option.toList_none, List.append_nil, List.append_nil]
        exact ⟨done, rfl, hmore⟩

end Engine

end Conductor
