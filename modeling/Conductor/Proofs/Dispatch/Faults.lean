import Conductor.Dispatch.Gateway
import Conductor.Proofs.Dispatch.Sessions
import Conductor.Rehearsal

/-! What leaves a dispatcher. It owes its caller a reply or a fault of dispatch; here is said exactly when
it pays, for a gateway against any sequence of outcomes and for the agents of this process. -/

namespace Conductor

variable {α σ : Type}

def Fault.isDispatch : Fault → Bool
  | .dispatch _ _ => true
  | _ => false

/-- There is a reply, or else a fault of dispatch. -/
def Proper (reply : Except Fault String) : Prop := ∀ f, reply = .error f → f.isDispatch = true

section Proper

variable {f : Fault}

theorem proper_ok (text : String) : Proper (.ok text) := fun _ h => by cases h

theorem proper_error_iff : Proper (.error f) ↔ f.isDispatch = true :=
  ⟨fun h => h f rfl, fun h _ he => by cases he; exact h⟩

end Proper

/-- Nothing comes out as a fault of dispatch. -/
def Silent {β : Type} (r : Except Fault β) : Prop := ∀ f, r = .error f → f.isDispatch = false

section Silent

variable {β γ : Type}

theorem silent_ok (a : β) : Silent (.ok a) := fun _ h => by cases h

theorem silent_error {f : Fault} (h : f.isDispatch = false) : Silent (.error f : Except Fault β) :=
  fun _ he => by cases he; exact h

theorem Silent.bind {r : Except Fault β} {next : β → Except Fault γ} (h : Silent r)
    (hnext : ∀ a, Silent (next a)) : Silent (r >>= next) := by
  cases r with
  | ok a => exact hnext a
  | error f => exact silent_error (h f rfl)

theorem Silent.ite {c : Prop} [Decidable c] {r r' : Except Fault β} (h : Silent r) (h' : Silent r') :
    Silent (if c then r else r') := by
  split
  · exact h
  · exact h'

theorem Silent.map {r : Except Fault β} (h : Silent r) (f : β → γ) : Silent (r.map f) := by
  cases r with
  | ok a => exact silent_ok _
  | error f' => exact silent_error (h f' rfl)

theorem Silent.not_proper {r : Except Fault β} (h : Silent r) {f : Fault} (he : r = .error f) :
    ¬ Proper (.error f) := by
  rw [proper_error_iff, h f he]
  exact Bool.false_ne_true

end Silent

/-! ### Arithmetic -/

theorem Setting.silent_number (v : Json) : Silent (Setting.number v) := by
  cases v <;> first | exact silent_ok _ | exact silent_error rfl

theorem Setting.silent_thousandth (v : Json) : Silent (Setting.thousandth v) := by
  refine (silent_number v).bind fun n => ?_
  cases n.thousandth? with
  | some x => exact silent_ok x
  | none => exact silent_error rfl

theorem Setting.silent_countBelow (v : Json) : Silent (Setting.countBelow v) :=
  (silent_number v).map _

theorem silent_floatPower (base exponent : Float) : Silent (floatPower base exponent) := by
  unfold floatPower
  refine .ite (silent_ok _) (.ite (silent_ok _) (.ite (silent_error rfl) (.ite (silent_error rfl) ?_)))
  exact .ite (silent_error rfl) (silent_ok _)

theorem silent_intPower (base : Int) (exponent : Nat) : Silent (intPower base exponent) := by
  unfold intPower
  refine .ite (silent_error rfl) ?_
  dsimp only
  split
  · exact silent_ok _
  · exact silent_error rfl

theorem silent_power (base exponent : Number) : Silent (power base exponent) := by
  unfold power
  split
  · exact silent_intPower _ _
  · split
    · exact (silent_floatPower _ _).map _
    · exact silent_error rfl

theorem silent_backoff (base attempt : Json) : Silent (backoff base attempt) :=
  (Setting.silent_number base).bind fun b =>
    (Setting.silent_number attempt).bind fun a => silent_power b a

/-! ### A gateway -/

namespace ScriptedResponse

/-- What a request comes back with. -/
def outcome : ScriptedResponse → Except Fault Response
  | .response r => .ok r
  | .trouble kind message => .error (.trouble kind message)

/-- Outcomes that are passed on as they are: trouble that is not on the way, and a body that is nested too
deeply to be read. -/
inductive Unforeseen : ScriptedResponse → Prop
  | trouble {kind : Trouble} {message : String} (h : kind.isTransport = false) :
    Unforeseen (.trouble kind message)
  | body {r : Response} {failure : Json.Failure} (hstatus : r.status < 400)
    (h : Json.parseBody? r.text.toList = .error failure) : Unforeseen (.response r)

/-- The outcomes of requests by number. -/
def answer (outcomes : Nat → ScriptedResponse) : (q : Outside) → Nat → q.Answer × Nat
  | .send m, n => (.ok (Dispatcher.simulatedReply m), n)
  | .request _, n => ((outcomes n).outcome, n + 1)
  | .sleep _, n => (.ok (), n)

end ScriptedResponse

theorem Trouble.isTransport_of_isTimeout {kind : Trouble} (h : kind.isTimeout = true) :
    kind.isTransport = true := by
  cases kind <;> first | rfl | cases h

namespace Gateway

variable {g : Gateway} {m : Message} {outcomes : Nat → ScriptedResponse} {n : Nat}

theorem proper_replyOf_iff (r : Response) :
    Proper (replyOf r) ↔ ∀ failure, Json.parseBody? r.text.toList ≠ .error failure := by
  unfold replyOf Response.json?
  cases Json.parseBody? r.text.toList with
  | ok v => exact ⟨fun _ _ h => (by cases h), fun _ => proper_ok _⟩
  | error failure => exact ⟨fun h => absurd (h _ rfl) Bool.false_ne_true, fun h => absurd rfl (h failure)⟩

/-- An outcome is made into a reply or a fault of dispatch, unless it is unforeseen. -/
theorem proper_judge_iff (m : Message) (o : ScriptedResponse) :
    Proper (judge m o.outcome) ↔ ¬ o.Unforeseen := by
  cases o with
  | response r =>
    change Proper (if r.status ≥ 400 then _ else replyOf r) ↔ _
    by_cases hstatus : r.status ≥ 400
    · rw [if_pos hstatus]
      refine ⟨fun _ hu => ?_, fun _ => proper_error_iff.mpr rfl⟩
      cases hu with
      | body hlow _ => omega
    · rw [if_neg hstatus, proper_replyOf_iff]
      constructor
      · rintro h (_ | ⟨_, hfailure⟩)
        exact h _ hfailure
      · exact fun h failure hfailure => h (.body (by omega) hfailure)
  | trouble kind message =>
    change Proper (if kind.isTimeout then _ else if kind.isTransport then _ else _) ↔ _
    cases ht : kind.isTransport with
    | true =>
      refine ⟨fun _ hu => ?_, fun _ => ?_⟩
      · cases hu with
        | trouble h => rw [ht] at h; cases h
      · split
        · exact proper_error_iff.mpr rfl
        · exact proper_error_iff.mpr rfl
    | false =>
      have hnot : kind.isTimeout = false := by
        cases hk : kind.isTimeout with
        | false => rfl
        | true => rw [Trouble.isTransport_of_isTimeout hk] at ht; cases ht
      rw [hnot]
      exact ⟨fun h => absurd (h _ rfl) Bool.false_ne_true, fun h => absurd (.trouble ht) h⟩

theorem proper_of_isRetryable {reply : Except Fault String} (h : isRetryable reply = true) :
    Proper reply := by
  rintro f rfl
  cases f <;> first | rfl | cases h

/-- What is made of the outcome of attempt `n`, counted from zero. -/
def judged (m : Message) (outcomes : Nat → ScriptedResponse) (n : Nat) : Except Fault String :=
  judge m (outcomes n).outcome

/-- Attempt `n` is made: each one before it was worth another, and there was a time to wait. -/
def Made (g : Gateway) (m : Message) (outcomes : Nat → ScriptedResponse) (n : Nat) : Prop :=
  ∀ i < n, isRetryable (judged m outcomes i) = true ∧
    ∃ seconds, backoff g.backoffBase (.int (i + 1 : Nat)) = .ok seconds

/-- How many retries there may be; none if their number is not one. -/
def allowed (g : Gateway) : Nat := (Setting.countBelow g.maxRetries).toOption.getD 0

/-- What comes of a message whose requests meet the outcomes one after the other. -/
def reply (g : Gateway) (m : Message) (outcomes : Nat → ScriptedResponse) : Except Fault String :=
  ((g.send m).run (ScriptedResponse.answer outcomes) 0).1

/-- How attempts end: with what the last of them meets, or with no time to wait for another. -/
structure Ends (g : Gateway) (m : Message) (outcomes : Nat → ScriptedResponse) (retries last : Nat)
    (reply : Except Fault String) : Prop where
  le : last ≤ retries
  made : g.Made m outcomes last
  ends : (reply = judged m outcomes last ∧
      (last = retries ∨ isRetryable (judged m outcomes last) = false)) ∨
    (last < retries ∧ isRetryable (judged m outcomes last) = true ∧
      ∃ f, backoff g.backoffBase (.int (last + 1 : Nat)) = .error f ∧ reply = .error f)

theorem Made.succ (h : g.Made m outcomes n) (hr : isRetryable (judged m outcomes n) = true)
    {seconds : Float} (hs : backoff g.backoffBase (.int (n + 1 : Nat)) = .ok seconds) :
    g.Made m outcomes (n + 1) := by
  intro i hi
  rcases Nat.lt_or_eq_of_le (Nat.le_of_lt_succ hi) with hi | rfl
  · exact h i hi
  · exact ⟨hr, seconds, hs⟩

/-- One attempt, and those after it. -/
theorem run_attempts_succ (r : Request) (left n : Nat) :
    ((g.attempts m r (left + 1) n).run (ScriptedResponse.answer outcomes) n).1 =
      if isRetryable (judged m outcomes n) then
        match backoff g.backoffBase (.int (n + 1 : Nat)) with
        | .error f => .error f
        | .ok _ => ((g.attempts m r left (n + 1)).run (ScriptedResponse.answer outcomes) (n + 1)).1
      else judged m outcomes n := by
  rw [attempts, Program.run]
  change (Program.run _ (if isRetryable (judged m outcomes n) then _ else .done (judged m outcomes n)) _).1
    = _
  split
  · cases backoff g.backoffBase (.int (n + 1 : Nat)) with
    | error f => rfl
    | ok seconds => rfl
  · rfl

theorem ends_attempts (r : Request) (left : Nat) (h : g.Made m outcomes n) :
    ∃ last, g.Ends m outcomes (n + left) last
      ((g.attempts m r left n).run (ScriptedResponse.answer outcomes) n).1 := by
  -- On the retries that are left: either this attempt is the last, or one more has been made.
  induction left generalizing n with
  | zero => exact ⟨n, Nat.le_refl _, h, Or.inl ⟨by rw [attempts]; rfl, Or.inl rfl⟩⟩
  | succ left ih =>
    rw [run_attempts_succ]
    cases hr : isRetryable (judged m outcomes n) with
    | false => exact ⟨n, Nat.le_add_right _ _, h, Or.inl ⟨rfl, Or.inr hr⟩⟩
    | true =>
      cases hb : backoff g.backoffBase (.int (n + 1 : Nat)) with
      | error f => exact ⟨n, Nat.le_add_right _ _, h, Or.inr ⟨by omega, hr, f, hb, rfl⟩⟩
      | ok seconds =>
        obtain ⟨last, hends⟩ := ih (h.succ hr hb)
        rw [Nat.succ_add_eq_add_succ] at hends
        exact ⟨last, hends⟩

/-- No attempt is made after the last. -/
theorem Ends.le_last {retries last : Nat} {reply : Except Fault String}
    (h : g.Ends m outcomes retries last reply) (hn : n ≤ retries) (hmade : g.Made m outcomes n) :
    n ≤ last := by
  refine Nat.le_of_not_lt fun hlate => ?_
  obtain ⟨hr, _, hs⟩ := hmade last (by omega)
  rcases h.ends with ⟨_, hlast | hnot⟩ | ⟨_, _, f, hf, _⟩
  · omega
  · rw [hr] at hnot
    cases hnot
  · rw [hs] at hf
    cases hf

theorem made_zero (g : Gateway) (m : Message) (outcomes : Nat → ScriptedResponse) :
    g.Made m outcomes 0 := fun _ h => absurd h (Nat.not_lt_zero _)

theorem reply_of_timeout {f : Fault} (h : Setting.thousandth m.timeoutMs = .error f) :
    g.reply m outcomes = .error f := by
  simp only [reply, send, request, h, Except.map, Program.run]

theorem ends_reply (outcomes : Nat → ScriptedResponse) {seconds : Float} {retries : Nat}
    (ht : Setting.thousandth m.timeoutMs = .ok seconds) (hc : Setting.countBelow g.maxRetries = .ok retries) :
    ∃ last, g.Ends m outcomes retries last (g.reply m outcomes) := by
  obtain ⟨last, h⟩ := ends_attempts (m := m) ⟨"POST", g.url, g.headers, .json (payload m), seconds⟩ retries
    (g.made_zero m outcomes)
  rw [Nat.zero_add] at h
  refine ⟨last, ?_⟩
  simpa only [reply, send, request, ht, hc, Except.map] using h

theorem reply_of_countBelow {seconds : Float} {f : Fault}
    (ht : Setting.thousandth m.timeoutMs = .ok seconds)
    (hc : Setting.countBelow g.maxRetries = .error f) :
    g.reply m outcomes =
      if isRetryable (judged m outcomes 0) then .error f else judged m outcomes 0 := by
  simp only [reply, send, request, ht, hc, Except.map, Program.map, Program.run_bind]
  rw [attempts]
  rfl

theorem allowed_of_ok {retries : Nat} (h : Setting.countBelow g.maxRetries = .ok retries) :
    g.allowed = retries := by
  rw [allowed, h]
  rfl

theorem allowed_of_error {f : Fault} (h : Setting.countBelow g.maxRetries = .error f) :
    g.allowed = 0 := by
  rw [allowed, h]
  rfl

/-- What a gateway needs to come to a reply or a fault of dispatch. -/
structure Clear (g : Gateway) (m : Message) (outcomes : Nat → ScriptedResponse) : Prop where
  timeout : ∃ seconds, Setting.thousandth m.timeoutMs = .ok seconds
  /-- There is a number of retries, once one is due. -/
  counted : isRetryable (judged m outcomes 0) = true →
    ∃ retries, Setting.countBelow g.maxRetries = .ok retries
  /-- No attempt that is made meets anything unforeseen. -/
  foreseen : ∀ n ≤ g.allowed, g.Made m outcomes n → ¬ (outcomes n).Unforeseen
  /-- There is a time to wait before each retry. -/
  pauses : ∀ n < g.allowed, g.Made m outcomes n → isRetryable (judged m outcomes n) = true →
    ∃ seconds, backoff g.backoffBase (.int (n + 1 : Nat)) = .ok seconds

theorem Ends.proper_iff {retries last : Nat} {reply : Except Fault String}
    (h : g.Ends m outcomes retries last reply) :
    Proper reply ↔
      (∀ n ≤ retries, g.Made m outcomes n → ¬ (outcomes n).Unforeseen) ∧
        ∀ n < retries, g.Made m outcomes n → isRetryable (judged m outcomes n) = true →
          ∃ seconds, backoff g.backoffBase (.int (n + 1 : Nat)) = .ok seconds := by
  constructor
  · intro hp
    refine ⟨fun n hn hmade => ?_, fun n hn hmade hr => ?_⟩
    -- An attempt that is made comes before the last one, and was then worth another, or it is the last.
    · apply (proper_judge_iff m (outcomes n)).mp
      rcases Nat.lt_or_eq_of_le (h.le_last hn hmade) with hlt | rfl
      · exact proper_of_isRetryable (h.made n hlt).1
      · rcases h.ends with ⟨he, _⟩ | ⟨_, hr, _⟩
        · rwa [he] at hp
        · exact proper_of_isRetryable hr
    · rcases Nat.lt_or_eq_of_le (h.le_last (Nat.le_of_lt hn) hmade) with hlt | rfl
      · exact (h.made n hlt).2
      · rcases h.ends with ⟨_, rfl | hnot⟩ | ⟨_, _, f, hf, he⟩
        · exact absurd hn (Nat.lt_irrefl _)
        · rw [hr] at hnot
          cases hnot
        · rw [he] at hp
          exact absurd hp ((silent_backoff _ _).not_proper hf)
  · rintro ⟨hforeseen, hpauses⟩
    rcases h.ends with ⟨he, _⟩ | ⟨hlt, hr, f, hf, _⟩
    · rw [he]
      exact (proper_judge_iff m (outcomes last)).mpr (hforeseen last h.le h.made)
    · obtain ⟨_, hs⟩ := hpauses last hlt h.made hr
      rw [hf] at hs
      cases hs

/-- A gateway comes to a reply or a fault of dispatch exactly if its settings are numbers where they are
needed and nothing unforeseen is met. -/
theorem proper_reply_iff (g : Gateway) (m : Message) (outcomes : Nat → ScriptedResponse) :
    Proper (g.reply m outcomes) ↔ g.Clear m outcomes := by
  cases ht : Setting.thousandth m.timeoutMs with
  | error f =>
    rw [reply_of_timeout ht]
    refine iff_of_false ((Setting.silent_thousandth _).not_proper ht) fun h => ?_
    obtain ⟨_, hs⟩ := h.timeout
    rw [ht] at hs
    cases hs
  | ok seconds =>
    cases hc : Setting.countBelow g.maxRetries with
    | ok retries =>
      obtain ⟨last, hends⟩ := ends_reply outcomes ht hc
      rw [hends.proper_iff, ← allowed_of_ok hc]
      constructor
      · rintro ⟨hforeseen, hpauses⟩
        exact ⟨⟨seconds, ht⟩, fun _ => ⟨retries, hc⟩, hforeseen, hpauses⟩
      · exact fun h => ⟨h.foreseen, h.pauses⟩
    | error f =>
      have hnone : g.allowed = 0 := allowed_of_error hc
      rw [reply_of_countBelow ht hc]
      -- One attempt is made, and only if another is due does the missing number come out.
      split
      case isTrue hr =>
        refine iff_of_false ((Setting.silent_countBelow _).not_proper hc) fun h => ?_
        obtain ⟨_, hs⟩ := h.counted hr
        rw [hc] at hs
        cases hs
      case isFalse hr =>
        rw [judged, proper_judge_iff]
        refine ⟨fun h => ⟨⟨seconds, ht⟩, fun hr' => absurd hr' hr, fun n hn _ => ?_, fun n hn => ?_⟩,
          fun h => h.foreseen 0 (Nat.zero_le _) (g.made_zero m outcomes)⟩
        · rw [hnone, Nat.le_zero] at hn
          rwa [hn]
        · rw [hnone] at hn
          exact absurd hn (Nat.not_lt_zero n)

end Gateway

/-! ### Agents in this process -/

namespace LocalAgents

variable {d : LocalAgents α} {m : Message}

/-- What an agent needs to come to a reply or a fault of dispatch, if there is one for the message. -/
structure Clear (consult : Consultation α → σ → AgentRun × σ) (d : LocalAgents α) (m : Message) (s : σ) :
    Prop where
  timeout : d.addressee? m ≠ none → ∃ seconds, Setting.thousandth m.timeoutMs = .ok seconds
  foreseen : ∀ c f, d.begin? m = .ok c → c.expired = false → (consult c s).1 = .failed f →
    f.isDispatch = true

theorem proper_finish_iff (d : LocalAgents α) (c : Consultation α) (run : AgentRun) :
    Proper (d.finish c run).2 ↔ ∀ f, run = .failed f → f.isDispatch = true := by
  cases run with
  | output v => exact iff_of_true (proper_ok _) fun _ h => by cases h
  | timeout => exact iff_of_true (proper_error_iff.mpr rfl) fun _ h => by cases h
  | failed f =>
    refine proper_error_iff.trans ⟨fun h _ he => ?_, fun h => h f rfl⟩
    cases he
    exact h

/-- A message comes to a reply or a fault of dispatch exactly if its timeout is a number where it is
needed and its agent does not fail in any other way. -/
theorem proper_send_iff (consult : Consultation α → σ → AgentRun × σ) (d : LocalAgents α) (m : Message)
    (s : σ) : Proper (d.send consult m s).2.1 ↔ d.Clear consult m s := by
  cases hb : d.begin? m with
  | error f =>
    have hnot : ∀ c, d.begin? m ≠ .ok c := fun c hc => by rw [hb] at hc; cases hc
    simp only [send, hb]
    cases ha : d.addressee? m with
    | none =>
      rw [begin?_of_none ha] at hb
      cases hb
      exact iff_of_true (proper_error_iff.mpr rfl) ⟨fun h => absurd ha h, fun c _ hc => absurd hc (hnot c)⟩
    | some found =>
      rw [begin?_of_some ha] at hb
      cases ht : Setting.thousandth m.timeoutMs with
      | ok seconds =>
        rw [ht] at hb
        cases hb
      | error f' =>
        rw [ht] at hb
        cases hb
        refine iff_of_false ((Setting.silent_thousandth _).not_proper ht) fun h => ?_
        obtain ⟨_, hs⟩ := h.timeout (by rw [ha]; exact Option.some_ne_none found)
        rw [ht] at hs
        cases hs
  | ok c =>
    have hseconds := (begin?_eq_ok hb).1
    simp only [send, hb]
    cases he : c.expired with
    | true =>
      refine iff_of_true (proper_error_iff.mpr rfl) ⟨fun _ => hseconds, fun c' f hc hnot => ?_⟩
      rw [hb] at hc
      cases hc
      rw [he] at hnot
      cases hnot
    | false =>
      refine (proper_finish_iff d c _).trans
        ⟨fun h => ⟨fun _ => hseconds, fun c' f hc _ => ?_⟩, fun h f hf => ?_⟩
      · rw [hb] at hc
        cases hc
        exact h f
      · exact h.foreseen c f hb he hf

end LocalAgents

/-! ### Both -/

/-- What leaves a dispatcher is a reply or a fault of dispatch exactly if the settings are numbers where they
are needed and nothing is met but replies, timeouts, trouble on the way and faults of dispatch. -/
theorem proper_iff_clear :
    (∀ (g : Gateway) (m : Message) (outcomes : Nat → ScriptedResponse),
      Proper (g.reply m outcomes) ↔ g.Clear m outcomes) ∧
    ∀ (consult : Consultation α → σ → AgentRun × σ) (d : LocalAgents α) (m : Message) (s : σ),
      Proper (d.send consult m s).2.1 ↔ d.Clear consult m s :=
  ⟨Gateway.proper_reply_iff, LocalAgents.proper_send_iff⟩

/-- A gateway without retries. -/
def Gateway.sample : Gateway := ⟨"http://g", none, .int 0, .float 1.5⟩

/-- A body that cannot be decoded leaves a gateway as it is, and so does what an agent fails with. -/
theorem not_proper_decoding :
    ¬ Proper (Gateway.sample.reply (.sample "hi") fun _ => .trouble .decoding "boom") ∧
      ¬ Proper ((LocalAgents.start [("a", ())] none).send
        (fun _ s => (.failed (.trouble .runtime "boom"), s)) (.sample "hi") ()).2.1 := by
  constructor
  · rw [Gateway.proper_reply_iff]
    exact fun h => h.foreseen 0 (Nat.zero_le _) (Gateway.sample.made_zero _ _) (.trouble rfl)
  · rw [LocalAgents.proper_send_iff]
    intro h
    have hbegin : ∃ c, (LocalAgents.start [("a", ())] none).begin? (.sample "hi") = .ok c ∧
        c.expired = false := ⟨_, rfl, by decide +kernel⟩
    obtain ⟨c, hc, he⟩ := hbegin
    exact absurd (h.foreseen c _ hc he rfl) Bool.false_ne_true

end Conductor
