import Conductor.Proofs.Dispatch.Retries
import Conductor.Proofs.Engine.Forward

/-! What every kind of step keeps to, whatever the world answers: which calls it makes, what its outcome
carries, and where it may lead. -/

namespace Conductor

namespace Program

variable {Q : Type} {Answer : Q → Type} {α β σ : Type}
variable {allows : Log Answer → Q → Prop} {ends : Log Answer → α → Prop}

/-- Surroundings that write down what they are asked and what they answer. -/
def recorded (answer : (q : Q) → σ → Answer q × σ) (q : Q) (s : σ × Log Answer) :
    Answer q × σ × Log Answer :=
  let r := answer q s.1
  (r.1, r.2, s.2 ++ [⟨q, r.1⟩])

/-- Writing down changes nothing, and what is written down is a log that the rule of the program admits. -/
theorem KeepsTo.run_recorded {log : Log Answer} {p : Program Answer α} (h : p.KeepsTo allows ends log)
    (answer : (q : Q) → σ → Answer q × σ) (s : σ) :
    ∃ log', p.run (recorded answer) (s, log) = ((p.run answer s).1, (p.run answer s).2, log') ∧
      ends log' (p.run answer s).1 := by
  induction p generalizing log s with
  | done a => exact ⟨log, rfl, h⟩
  | ask q next ih => exact ih (answer q s).1 (h.2 _) (answer q s).2

end Program

namespace Dispatcher

variable {α β : Type}

/-- Work whose messages are carried out by a dispatcher, where it would hand them to the world. -/
def carry (d : Dispatcher) : Program Outside.Answer α → Program Outside.Answer α
  | .done a => .done a
  | .ask (.send m) next => (d m).bind fun r => d.carry (next r)
  | .ask (.request r) next => .ask (.request r) fun answer => d.carry (next answer)
  | .ask (.sleep seconds) next => .ask (.sleep seconds) fun answer => d.carry (next answer)

theorem carry_map (d : Dispatcher) (p : Program Outside.Answer α) (f : α → β) :
    d.carry (p.map f) = (d.carry p).map f := by
  induction p with
  | done a => rfl
  | ask o next ih =>
    cases o with
    | send m =>
      change (d m).bind (fun r => d.carry ((next r).map f)) = ((d m).bind _).bind _
      rw [Program.bind_assoc]
      exact congrArg _ (funext ih)
    | request r => exact congrArg (Program.ask (Outside.request r)) (funext ih)
    | sleep seconds => exact congrArg (Program.ask (Outside.sleep seconds)) (funext ih)

end Dispatcher

/-- A body that is nested too deeply to be read. -/
def Response.Nested (r : Response) : Prop := ∃ failure, Json.parseBody? r.text.toList = .error failure

theorem Response.not_nested_of_ok {r : Response} {v : Option Json}
    (h : Json.parseBody? r.text.toList = .ok v) : ¬ r.Nested := by
  rintro ⟨failure, hfailure⟩
  cases h.symm.trans hfailure

namespace Action

/-- The one kind of call that a step may make. -/
def Calls : Action → Outside → Prop
  | .agentCall _, .send _ => True
  | .webhook _, .request _ => True
  | .delay _, .sleep _ => True
  | _, _ => False

/-- The setting without which a step cannot be carried out, for the kinds that have one. -/
def required? : Action → Option (Option String)
  | .agentCall c => some c.message
  | .condition c => some c.expression
  | .webhook c => some c.url
  | _ => none

/-- The required setting is missing or empty. -/
def Incomplete (a : Action) : Prop := a.required? = some none ∨ a.required? = some (some "")

/-- What holds of the calls of a step, with their answers, and of its outcome. -/
structure Meets (a : Action) (log : Log Outside.Answer) (r : Outcome) : Prop where
  calls : log = [] ∨ ∃ x, log = [x] ∧ a.Calls x.1
  incomplete : a.Incomplete → log = [] ∧ r.success = false
  succeeds : r.success = true → ∃ fields, r.output = .obj fields
  fails : r.success = false → r.next = none ∧ ∃ text, r.error = some text
  leads : ∀ target, r.next = some target → ∃ c, a = .condition c ∧ target ∈ a.targets
  answered : ∀ c, a = .webhook c → (r.success = true ↔ ∃ q answer, log = [⟨.request q, .ok answer⟩] ∧
    200 ≤ answer.status ∧ answer.status ≤ 299 ∧ ¬ answer.Nested)
  decoded : ∀ c, a = .webhook c → ∀ q answer v, log = [⟨.request q, .ok answer⟩] →
    Json.parseBody? answer.text.toList = .ok v →
      r.output = .obj [("status", .int answer.status), ("data", v.getD .null)]

end Action

/-- The outcome of a step from what its performer comes to: a fault is a failure that tells its text. -/
def Outcome.settle : Except Fault Outcome → Outcome
  | .ok r => r
  | .error f => .fail f.describe

namespace Action

variable {a : Action} {log : Log Outside.Answer} {text : String} {fields : Table Json} {next : Option String}

theorem meets_fail (hlog : log = [] ∨ ∃ x, log = [x] ∧ a.Calls x.1) (hi : a.Incomplete → log = [])
    (hw : ∀ q answer, log ≠ [⟨.request q, .ok answer⟩]) : a.Meets log (.fail text) where
  calls := hlog
  incomplete h := ⟨hi h, rfl⟩
  succeeds h := nomatch h
  fails _ := ⟨rfl, text, rfl⟩
  leads _ h := nomatch h
  answered _ _ := iff_of_false Bool.false_ne_true fun ⟨q, answer, h, _⟩ => hw q answer h
  decoded _ _ q answer _ h := absurd h (hw q answer)

theorem meets_silent_fail : a.Meets [] (.fail text) :=
  meets_fail (.inl rfl) (fun _ => rfl) fun _ _ => (List.cons_ne_nil _ _).symm

theorem meets_ok (hlog : log = [] ∨ ∃ x, log = [x] ∧ a.Calls x.1) (hi : ¬ a.Incomplete)
    (hn : ∀ target, next = some target → ∃ c, a = .condition c ∧ target ∈ a.targets)
    (hw : ∀ c, a ≠ .webhook c) : a.Meets log (.ok (.obj fields) next) where
  calls := hlog
  incomplete h := absurd h hi
  succeeds _ := ⟨fields, rfl⟩
  fails h := nomatch h
  leads := hn
  answered c h := absurd h (hw c)
  decoded c h := absurd h (hw c)

theorem not_incomplete_of_none (h : a.required? = none) : ¬ a.Incomplete := by
  rintro (hn | hn)
  · exact nomatch h.symm.trans hn
  · exact nomatch h.symm.trans hn

theorem not_incomplete_of_given {setting : Option String} (h : a.required? = some setting)
    (hs : given? setting = some text) : ¬ a.Incomplete := by
  rintro (hn | hn)
  · obtain rfl := Option.some.inj (h.symm.trans hn)
    exact nomatch hs
  · obtain rfl := Option.some.inj (h.symm.trans hn)
    exact nomatch hs

/-- A performer calls at most once, and comes to what its kind of step may come to. -/
def Keeps (a : Action) (p : Errand Outcome) : Prop :=
  p.KeepsTo (fun log o => log = [] ∧ a.Calls o) (fun log r => a.Meets log (Outcome.settle r)) []

theorem keeps_error (f : Fault) : a.Keeps (.done (.error f)) := meets_silent_fail

theorem keeps_fail (text : String) : a.Keeps (.done (.ok (.fail text))) := meets_silent_fail

/-- A step that only computes its output. -/
theorem keeps_map (hi : a.required? = none) (hw : ∀ c, a ≠ .webhook c) (output : Except Fault (Table Json)) :
    a.Keeps (.done (output.map fun fields => .ok (.obj fields) none)) := by
  cases output with
  | error f => exact keeps_error f
  | ok fields => exact meets_ok (.inl rfl) (not_incomplete_of_none hi) (fun _ h => nomatch h) hw

theorem keeps_agentCall (c : AgentCall) (context : Table Json) :
    (agentCall c).Keeps (c.perform .direct context) := by
  unfold AgentCall.perform
  split
  · exact keeps_fail _
  · next template ht =>
    have hi : ¬ (agentCall c).Incomplete := not_incomplete_of_given rfl ht
    split
    · exact keeps_error _
    · next text _ =>
      refine ⟨⟨rfl, trivial⟩, fun reply => ?_⟩
      have hlog : ([⟨_, reply⟩] : Log Outside.Answer) = [] ∨
          ∃ x, ([⟨_, reply⟩] : Log Outside.Answer) = [x] ∧ (agentCall c).Calls x.1 := .inr ⟨_, rfl, trivial⟩
      -- Every fault of the dispatcher is a failure, if with different texts.
      have hfail (text : String) : (agentCall c).Meets [⟨_, reply⟩] (.fail text) :=
        meets_fail hlog (fun h => absurd h hi) fun _ _ h => nomatch h
      match reply with
      | .ok reply => exact meets_ok hlog hi (fun _ h => nomatch h) fun _ h => nomatch h
      | .error f => cases f <;> exact hfail _

theorem keeps_condition (c : Branch) (context : Table Json) :
    (condition c).Keeps (c.perform context) := by
  unfold Branch.perform
  split
  · exact keeps_fail _
  · next expression he =>
    cases evaluate (.obj context) expression with
    | error f => exact keeps_error f
    | ok holds =>
      refine meets_ok (.inl rfl) (not_incomplete_of_given rfl he) (fun target ht => ⟨c, rfl, ?_⟩)
        fun _ h => nomatch h
      cases holds with
      | true => exact List.mem_append_left _ (Option.mem_toList.mpr ht)
      | false => exact List.mem_append_right _ (Option.mem_toList.mpr ht)

theorem keeps_delay (c : Delay) : (delay c).Keeps c.perform := by
  unfold Delay.perform
  split
  · exact keeps_error _
  · have hi : ¬ (delay c).Incomplete := not_incomplete_of_none rfl
    refine ⟨⟨rfl, trivial⟩, fun r => ?_⟩
    match r with
    | .ok () => exact meets_ok (.inr ⟨_, rfl, trivial⟩) hi (fun _ h => nomatch h) fun _ h => nomatch h
    | .error f => exact meets_fail (.inr ⟨_, rfl, trivial⟩) (fun h => absurd h hi) fun _ _ h => nomatch h

theorem isSuccess_iff (r : Response) : r.isSuccess = true ↔ 200 ≤ r.status ∧ r.status ≤ 299 := by
  unfold Response.isSuccess
  rw [Bool.and_eq_true, decide_eq_true_iff, decide_eq_true_iff]
  omega

/-- For a webhook that was answered, what its outcome has to do with the answer. -/
theorem meets_answered {c : Webhook} (hi : ¬ (webhook c).Incomplete) (q : Request) {answer : Response}
    {r : Outcome} (hs : r.success = true → ∃ fields, r.output = .obj fields)
    (hf : r.success = false → ∃ text, r.error = some text) (hn : r.next = none)
    (ha : r.success = true ↔ 200 ≤ answer.status ∧ answer.status ≤ 299 ∧ ¬ answer.Nested)
    (hd : ∀ v, Json.parseBody? answer.text.toList = .ok v →
      r.output = .obj [("status", .int answer.status), ("data", v.getD .null)]) :
    (webhook c).Meets [⟨.request q, .ok answer⟩] r where
  calls := .inr ⟨_, rfl, trivial⟩
  incomplete h := absurd h hi
  succeeds := hs
  fails h := ⟨hn, hf h⟩
  leads _ h := nomatch hn.symm.trans h
  answered _ _ := by
    rw [ha]
    constructor
    · exact fun h => ⟨q, answer, rfl, h⟩
    · rintro ⟨_, _, hlog, h⟩
      cases hlog
      exact h
  decoded _ _ _ _ v hlog hv := by
    cases hlog
    exact hd v hv

theorem meets_unanswered {c : Webhook} (hi : ¬ (webhook c).Incomplete) (q : Request) (f : Fault)
    (text : String) : (webhook c).Meets [⟨.request q, .error f⟩] (.fail text) :=
  meets_fail (.inr ⟨_, rfl, trivial⟩) (fun h => absurd h hi) fun _ _ h => nomatch h

/-- A body that cannot be read is a fault, whatever the status is. -/
theorem settle_judge_of_nested {answer : Response} {failure : Json.Failure}
    (h : Json.parseBody? answer.text.toList = .error failure) :
    Outcome.settle (Webhook.judge answer) = .fail (Fault.unreadable answer.text.toList failure).describe := by
  simp only [Webhook.judge, Response.json?, h, Except.map, Outcome.settle]

/-- What a webhook makes of the answer to its request. -/
theorem meets_judge {c : Webhook} (hi : ¬ (webhook c).Incomplete) (q : Request) (answer : Response) :
    (webhook c).Meets [⟨.request q, .ok answer⟩] (Outcome.settle (Webhook.judge answer)) := by
  cases hbody : Json.parseBody? answer.text.toList with
  | error failure =>
    rw [settle_judge_of_nested hbody]
    refine meets_answered hi q (fun h => absurd h Bool.false_ne_true) (fun _ => ⟨_, rfl⟩) rfl
      (iff_of_false Bool.false_ne_true fun h => h.2.2 ⟨failure, hbody⟩) fun v hv => ?_
    cases hbody.symm.trans hv
  | ok v =>
    have hread : ¬ answer.Nested := Response.not_nested_of_ok hbody
    have hjudge : Outcome.settle (Webhook.judge answer) =
        if answer.isSuccess then
          .ok (.obj [("status", .int answer.status), ("data", v.getD .null)]) none
        else .failWith s!"HTTP {answer.status}"
          (.obj [("status", .int answer.status), ("data", v.getD .null)]) := by
      simp only [Webhook.judge, Response.json?, hbody, Except.map]
      split <;> rfl
    have hdecoded : ∀ v', Json.parseBody? answer.text.toList = .ok v' →
        (.obj [("status", .int answer.status), ("data", v.getD .null)] : Json) =
          .obj [("status", .int answer.status), ("data", v'.getD .null)] := by
      intro _ hv
      cases hbody.symm.trans hv
      rfl
    rw [hjudge]
    split
    · next hs =>
      obtain ⟨hlow, hhigh⟩ := (isSuccess_iff answer).mp hs
      exact meets_answered hi q (fun _ => ⟨_, rfl⟩) (fun h => absurd h.symm Bool.false_ne_true) rfl
        (iff_of_true rfl ⟨hlow, hhigh, hread⟩) hdecoded
    · next hs =>
      exact meets_answered hi q (fun h => absurd h Bool.false_ne_true) (fun _ => ⟨_, rfl⟩) rfl
        (iff_of_false Bool.false_ne_true fun h => hs ((isSuccess_iff answer).mpr ⟨h.1, h.2.1⟩)) hdecoded

theorem keeps_webhook (timeout : Float) (c : Webhook) (context : Table Json) :
    (webhook c).Keeps (c.perform timeout context) := by
  unfold Webhook.perform
  split
  · exact keeps_fail _
  · next template hu =>
    have hi : ¬ (webhook c).Incomplete := not_incomplete_of_given rfl hu
    split
    · exact keeps_error _
    · exact keeps_error _
    · refine ⟨⟨rfl, trivial⟩, fun answer => ?_⟩
      cases answer with
      | ok r => exact meets_judge hi _ r
      | error f =>
        cases f with
        | trouble kind message =>
          change (webhook c).Meets _ (Outcome.settle (if kind.isHttp then _ else _))
          split <;> exact meets_unanswered hi _ _ _
        | _ => exact meets_unanswered hi _ _ _

/-- By the kinds of steps. -/
theorem keeps_perform (timeout : Float) (a : Action) (context : Table Json) :
    a.Keeps (a.perform .direct timeout context) := by
  cases a with
  | agentCall c => exact keeps_agentCall c context
  | condition c => exact keeps_condition c context
  | transform c => exact keeps_map (a := transform c) rfl (fun _ h => nomatch h) _
  | delay c => exact keeps_delay c
  | webhook c => exact keeps_webhook timeout c context
  | setContext c => exact keeps_map (a := setContext c) rfl (fun _ h => nomatch h) _

/-- Which dispatcher is at hand shows in the messages of agent calls only. -/
theorem perform_carry (d : Dispatcher) (timeout : Float) (a : Action) (context : Table Json) :
    a.perform d timeout context = d.carry (a.perform .direct timeout context) := by
  cases a with
  | agentCall c =>
    change c.perform d context = d.carry (c.perform .direct context)
    unfold AgentCall.perform
    split
    · rfl
    · split <;> rfl
  | webhook c =>
    change c.perform timeout context = d.carry (c.perform timeout context)
    unfold Webhook.perform
    split
    · rfl
    · split
      · rfl
      · rfl
      · refine congrArg (Program.ask (Outside.request _)) (funext fun answer => ?_)
        cases answer with
        | ok _ => rfl
        | error f => cases f <;> rfl
  | delay c =>
    change c.perform = d.carry c.perform
    unfold Delay.perform
    split
    · rfl
    · refine congrArg (Program.ask (Outside.sleep _)) (funext fun answer => ?_)
      cases answer <;> rfl
  | condition c =>
    change c.perform context = d.carry (c.perform context)
    unfold Branch.perform
    split <;> rfl
  | transform c => rfl
  | setContext c => rfl

end Action

namespace Registry

theorem execute_eq (d : Dispatcher) (timeout : Float) (step : Step) (context : Table Json) :
    (standard d timeout).execute step context =
      (step.action.perform d timeout context).map Outcome.settle := by
  unfold execute
  rw [find?_standard]
  refine congrArg (Program.bind _) (funext fun r => ?_)
  cases r <;> rfl

/-- A step makes at most one call, of its own kind and none where a required setting is missing or empty, and
it comes to an outcome, whatever the world answers: a success with a mapping as its output or a failure that
leads nowhere. A webhook is a success exactly if it is answered with a status from 200 to 299 and a body that
is not nested too deeply to be read. -/
theorem execute_meets (d : Dispatcher) (timeout : Float) (step : Step) (context : Table Json) :
    (standard d timeout).execute step context =
        d.carry ((standard .direct timeout).execute step context) ∧
      ∀ {σ : Type} (world : (o : Outside) → σ → o.Answer × σ) (s : σ), ∃ outcome s' log,
        ((standard .direct timeout).execute step context).run world s = (outcome, s') ∧
        ((standard .direct timeout).execute step context).run (Program.recorded world) (s, []) =
          (outcome, s', log) ∧
        step.action.Meets log outcome := by
  constructor
  · rw [execute_eq, execute_eq, Action.perform_carry, Dispatcher.carry_map]
  · intro σ world s
    have hkeeps : ((standard .direct timeout).execute step context).KeepsTo
        (fun log o => log = [] ∧ step.action.Calls o) (fun log r => step.action.Meets log r) [] := by
      rw [execute_eq]
      exact (Action.keeps_perform timeout step.action context).map
    obtain ⟨log, hrun, hmeets⟩ := hkeeps.run_recorded world s
    exact ⟨_, _, log, rfl, hrun, hmeets⟩

/-- A world that answers every request in one way. -/
def answering (r : Response) : (o : Outside) → Unit → o.Answer × Unit
  | .send _, s => (.ok "", s)
  | .request _, s => (.ok r, s)
  | .sleep _, s => (.ok (), s)

/-- A webhook that sends its request without a body. -/
def plainWebhook : Webhook := ⟨some "http://x", "POST", [], .null⟩

theorem run_plainWebhook (r : Response) :
    ((standard .direct 30.0).execute ⟨"h", "", .webhook plainWebhook⟩ []).run
        (Program.recorded (answering r)) ((), []) =
      (Outcome.settle (Webhook.judge r), (),
        [⟨.request ⟨"POST", "http://x", plainWebhook.sentHeaders, .text none, 30.0⟩, .ok r⟩]) := by
  have hurl : Template.fillText (.obj []) "http://x" = .ok "http://x" := by cbv
  have hgiven : given? plainWebhook.url = some "http://x" := rfl
  have hcontent : plainWebhook.content [] = .ok none := rfl
  rw [execute_eq]
  simp only [Action.perform, Webhook.perform, hgiven, hurl, hcontent]
  rfl

/-- A body of too many opening brackets makes a webhook fail that was answered with status 200. -/
theorem not_success_nested :
    ¬ ∀ (c : Webhook) (context : Table Json) (r : Response) (outcome : Outcome) (log : Log Outside.Answer),
      ((standard .direct 30.0).execute ⟨"h", "", .webhook c⟩ context).run (Program.recorded (answering r))
        ((), []) = (outcome, (), log) →
      (outcome.success = true ↔ ∃ q answer, log = [⟨.request q, .ok answer⟩] ∧
        200 ≤ answer.status ∧ answer.status ≤ 299) := by
  intro h
  obtain ⟨failure, hfailure⟩ := Json.parseBody_replicate (n := 2000) (by decide)
  -- The response stays a variable, for its text is too long to be computed with.
  obtain ⟨r, hstatus, hbody⟩ : ∃ r : Response, r.status = 200 ∧
      Json.parseBody? r.text.toList = .error failure :=
    ⟨⟨200, String.ofList (List.replicate 2000 '[')⟩, rfl, by rw [String.toList_ofList, hfailure]⟩
  have hsuccess := (h _ _ r _ _ (run_plainWebhook r)).mpr ⟨_, r, rfl, by omega, by omega⟩
  rw [Action.settle_judge_of_nested hbody] at hsuccess
  cases hsuccess

end Registry

end Conductor
