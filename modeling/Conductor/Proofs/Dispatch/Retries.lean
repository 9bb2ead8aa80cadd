import Conductor.Proofs.Dispatch.Faults

/-! The requests of one message to a gateway: which are made, how long is waited between them, and which of
their outcomes counts. -/

namespace Conductor

namespace ScriptedResponse

/-- Outcomes that are worth another request. -/
inductive Retryable : ScriptedResponse → Prop
  | timeout {kind : Trouble} {message : String} (h : kind.isTimeout = true) :
    Retryable (.trouble kind message)
  | transport {kind : Trouble} {message : String} (h : kind.isTransport = true) :
    Retryable (.trouble kind message)
  | status {r : Response} (h : 500 ≤ r.status) : Retryable (.response r)

/-- What a message comes to whose last request has this outcome. -/
inductive Gives (m : Message) : ScriptedResponse → Except Fault String → Prop
  /-- The field `response` of an object is the reply. -/
  | field {r : Response} {v reply : Json} (hstatus : r.status < 400)
    (hbody : Json.parseBody? r.text.toList = .ok (some v)) (hfield : v.field? "response" = some reply) :
    Gives m (.response r) (.ok reply.plain)
  /-- The text of any other body is the reply. -/
  | text {r : Response} {v : Option Json} (hstatus : r.status < 400)
    (hbody : Json.parseBody? r.text.toList = .ok v) (hfield : v.bind (·.field? "response") = none) :
    Gives m (.response r) (.ok r.text)
  /-- Only a body that is nested too deeply to be read gives none. -/
  | nested {r : Response} {failure : Json.Failure} (hstatus : r.status < 400)
    (hbody : Json.parseBody? r.text.toList = .error failure) :
    Gives m (.response r) (.error (.unreadable r.text.toList failure))
  | refused {r : Response} (hlow : 400 ≤ r.status) (hhigh : r.status < 500) :
    Gives m (.response r) (.error (.dispatch s!"Agent gateway returned HTTP {r.status}" false))
  | broken {r : Response} (h : 500 ≤ r.status) :
    Gives m (.response r) (.error (.dispatch s!"Agent gateway returned HTTP {r.status}" true))
  | timeout {kind : Trouble} {message : String} (h : kind.isTimeout = true) :
    Gives m (.trouble kind message)
      (.error (.dispatch s!"Agent call timed out after {m.timeoutMs.plain}ms" true))
  | transport {kind : Trouble} {message : String} (htime : kind.isTimeout = false)
    (h : kind.isTransport = true) :
    Gives m (.trouble kind message)
      (.error (.dispatch s!"Agent call failed: {(Fault.trouble kind message).message}" true))
  /-- Any other trouble stays as it is. -/
  | other {kind : Trouble} {message : String} (h : kind.isTransport = false) :
    Gives m (.trouble kind message) (.error (.trouble kind message))

/-- The outcomes of requests by number, with what was asked for noted down. -/
def note (outcomes : Nat → ScriptedResponse) (q : Outside) (s : Nat × List Outside) :
    q.Answer × Nat × List Outside :=
  let r := answer outcomes q s.1
  (r.1, r.2, s.2 ++ [q])

end ScriptedResponse

theorem Trouble.isTimeout_of_not_isTransport {kind : Trouble} (h : kind.isTransport = false) :
    kind.isTimeout = false := by
  cases ht : kind.isTimeout with
  | false => rfl
  | true => exact absurd (isTransport_of_isTimeout ht) (by rw [h]; exact Bool.false_ne_true)

namespace Gateway

open ScriptedResponse (Retryable Gives note)

variable {g : Gateway} {m : Message} {outcomes : Nat → ScriptedResponse} {o : ScriptedResponse}

/-! ### One outcome -/

theorem isRetryable_replyOf (r : Response) : isRetryable (replyOf r) = false := by
  unfold replyOf Response.json?
  cases Json.parseBody? r.text.toList <;> rfl

theorem judge_response_of_lt {r : Response} (h : r.status < 400) : judge m (.ok r) = replyOf r :=
  if_neg (by omega)

theorem judge_response_of_le {r : Response} (h : 400 ≤ r.status) :
    judge m (.ok r) =
      .error (.dispatch s!"Agent gateway returned HTTP {r.status}" (r.status ≥ 500)) :=
  if_pos h

theorem judge_timeout {kind : Trouble} {message : String} (h : kind.isTimeout = true) :
    judge m (.error (.trouble kind message)) =
      .error (.dispatch s!"Agent call timed out after {m.timeoutMs.plain}ms" true) :=
  if_pos h

theorem judge_transport {kind : Trouble} {message : String} (ht : kind.isTimeout = false)
    (h : kind.isTransport = true) :
    judge m (.error (.trouble kind message)) =
      .error (.dispatch s!"Agent call failed: {(Fault.trouble kind message).message}" true) := by
  simp [judge, ht, h]

theorem judge_trouble {kind : Trouble} {message : String} (ht : kind.isTimeout = false)
    (h : kind.isTransport = false) :
    judge m (.error (.trouble kind message)) = .error (.trouble kind message) := by
  simp [judge, ht, h]

theorem retryable_iff (m : Message) (o : ScriptedResponse) :
    o.Retryable ↔ isRetryable (judge m o.outcome) = true := by
  cases o with
  | response r =>
    change _ ↔ isRetryable (judge m (.ok r)) = true
    by_cases hlow : r.status < 400
    · rw [judge_response_of_lt hlow, isRetryable_replyOf]
      refine iff_of_false ?_ Bool.false_ne_true
      rintro (_ | _ | h)
      omega
    · rw [judge_response_of_le (by omega)]
      refine ⟨fun h => ?_, fun h => .status (of_decide_eq_true h)⟩
      cases h with
      | status h => exact decide_eq_true h
  | trouble kind message =>
    change _ ↔ isRetryable (judge m (.error (.trouble kind message))) = true
    cases ht : kind.isTransport with
    | true =>
      refine iff_of_true (.transport ht) ?_
      cases hk : kind.isTimeout with
      | true => rw [judge_timeout hk, isRetryable]
      | false => rw [judge_transport hk ht, isRetryable]
    | false =>
      have hk := Trouble.isTimeout_of_not_isTransport ht
      rw [judge_trouble hk ht]
      refine iff_of_false ?_ Bool.false_ne_true
      rintro (h | h | _)
      · rw [hk] at h
        cases h
      · rw [ht] at h
        cases h

theorem replyOf_of_body {r : Response} {v : Option Json} (h : Json.parseBody? r.text.toList = .ok v) :
    replyOf r = .ok (((v.bind (·.field? "response")).map Json.plain).getD r.text) := by
  simp only [replyOf, Response.json?, h, Except.map]
  cases v.bind (·.field? "response") <;> rfl

theorem replyOf_of_nested {r : Response} {failure : Json.Failure}
    (h : Json.parseBody? r.text.toList = .error failure) :
    replyOf r = .error (.unreadable r.text.toList failure) := by
  simp only [replyOf, Response.json?, h, Except.map]

theorem gives_replyOf {r : Response} (h : r.status < 400) : Gives m (.response r) (replyOf r) := by
  cases hbody : Json.parseBody? r.text.toList with
  | error failure => exact replyOf_of_nested hbody ▸ .nested h hbody
  | ok v =>
    rw [replyOf_of_body hbody]
    cases hfield : v.bind (·.field? "response") with
    | none => exact .text h hbody hfield
    | some reply =>
      obtain ⟨v, rfl, hv⟩ := Option.bind_eq_some_iff.mp hfield
      exact .field h hbody hv

/-- What is made of an outcome is what it gives. -/
theorem gives_judge (m : Message) (o : ScriptedResponse) : Gives m o (judge m o.outcome) := by
  cases o with
  | response r =>
    change Gives m _ (judge m (.ok r))
    by_cases hlow : r.status < 400
    · rw [judge_response_of_lt hlow]
      exact gives_replyOf hlow
    · rw [judge_response_of_le (by omega)]
      by_cases hhigh : r.status < 500
      · rw [decide_eq_false (by omega)]
        exact .refused (by omega) hhigh
      · rw [decide_eq_true (by omega)]
        exact .broken (by omega)
  | trouble kind message =>
    change Gives m _ (judge m (.error (.trouble kind message)))
    cases hk : kind.isTimeout with
    | true => exact judge_timeout hk ▸ .timeout hk
    | false =>
      cases ht : kind.isTransport with
      | true => exact judge_transport hk ht ▸ .transport hk ht
      | false => exact judge_trouble hk ht ▸ .other ht

/-- An outcome gives nothing else. -/
theorem eq_judge_of_gives {reply : Except Fault String} (h : Gives m o reply) : reply = judge m o.outcome := by
  cases h with
  | field hstatus hbody hfield =>
    refine Eq.trans ?_ (judge_response_of_lt hstatus).symm
    rw [replyOf_of_body hbody, Option.bind_some, hfield]
    rfl
  | text hstatus hbody hfield =>
    refine Eq.trans ?_ (judge_response_of_lt hstatus).symm
    rw [replyOf_of_body hbody, hfield]
    rfl
  | nested hstatus hbody => exact ((judge_response_of_lt hstatus).trans (replyOf_of_nested hbody)).symm
  | refused hlow hhigh =>
    refine Eq.trans ?_ (judge_response_of_le hlow).symm
    rw [decide_eq_false (by omega)]
  | broken h =>
    refine Eq.trans ?_ (judge_response_of_le (by omega)).symm
    rw [decide_eq_true h]
  | timeout h => exact (judge_timeout h).symm
  | transport htime h => exact (judge_transport htime h).symm
  | other h => exact (judge_trouble (Trouble.isTimeout_of_not_isTransport h) h).symm

/-! ### All requests -/

/-- The requests and waits before request number `n`, counted from zero. -/
def steps (r : Request) (pauses : Nat → Float) (n : Nat) : List Outside :=
  (List.range n).flatMap fun i => [.request r, .sleep (pauses i)]

theorem steps_succ (r : Request) (pauses : Nat → Float) (n : Nat) :
    steps r pauses (n + 1) = steps r pauses n ++ [.request r, .sleep (pauses n)] := by
  simp [steps, List.range_succ]

/-- The last request is the first that is not worth another one, or the one that is left no other. -/
structure Stops (outcomes : Nat → ScriptedResponse) (retries last : Nat) : Prop where
  le : last ≤ retries
  before : ∀ i < last, (outcomes i).Retryable
  ends : last = retries ∨ ¬ (outcomes last).Retryable

theorem run_attempts_last {r : Request} {left n : Nat} {log : List Outside}
    (h : left = 0 ∨ isRetryable (judged m outcomes n) = false) :
    (g.attempts m r left n).run (note outcomes) (n, log) =
      (judged m outcomes n, n + 1, log ++ [.request r]) := by
  cases left with
  | zero =>
    rw [attempts]
    rfl
  | succ left =>
    have hnot := h.resolve_left (Nat.succ_ne_zero left)
    rw [attempts, Program.run]
    change Program.run _ (if isRetryable (judged m outcomes n) then _ else .done (judged m outcomes n)) _ = _
    rw [hnot]
    rfl

/-- An outcome that is worth another request, the wait, and what comes after it. -/
theorem run_attempts_retry {r : Request} {left n : Nat} {log : List Outside} {seconds : Float}
    (h : isRetryable (judged m outcomes n) = true)
    (hb : backoff g.backoffBase (.int (n + 1 : Nat)) = .ok seconds) :
    (g.attempts m r (left + 1) n).run (note outcomes) (n, log) =
      (g.attempts m r left (n + 1)).run (note outcomes)
        (n + 1, log ++ [.request r, .sleep seconds]) := by
  rw [attempts, Program.run]
  change Program.run _ (if isRetryable (judged m outcomes n) then _ else .done (judged m outcomes n)) _ = _
  rw [if_pos h, hb]
  have happend : log ++ [.request r, .sleep seconds] = log ++ [.request r] ++ [.sleep seconds] := by simp
  rw [happend]
  rfl

/-- From request `n` on: the requests that are made, and what they come to. -/
theorem run_attempts (m : Message) (r : Request) {pauses : Nat → Float} (left : Nat) {n : Nat}
    (hpauses : ∀ i < n + left, backoff g.backoffBase (.int (i + 1 : Nat)) = .ok (pauses i))
    (hbefore : ∀ i < n, (outcomes i).Retryable) :
    ∃ last, Stops outcomes (n + left) last ∧
      (g.attempts m r left n).run (note outcomes) (n, steps r pauses n) =
        (judged m outcomes last, last + 1, steps r pauses last ++ [.request r]) := by
  -- On the retries that are left: either this request is the last, or one more outcome was worth another.
  induction left generalizing n with
  | zero => exact ⟨n, ⟨Nat.le_refl _, hbefore, Or.inl rfl⟩, run_attempts_last (Or.inl rfl)⟩
  | succ left ih =>
    cases hr : isRetryable (judged m outcomes n) with
    | false =>
      have hstop : ¬ (outcomes n).Retryable := by
        rw [retryable_iff m]
        exact fun h => absurd (hr.symm.trans h) Bool.false_ne_true
      exact ⟨n, ⟨Nat.le_add_right _ _, hbefore, Or.inr hstop⟩, run_attempts_last (Or.inr hr)⟩
    | true =>
      have hmore : ∀ i < n + 1, (outcomes i).Retryable := by
        intro i hi
        rcases Nat.lt_or_eq_of_le (Nat.le_of_lt_succ hi) with hi | rfl
        · exact hbefore i hi
        · exact (retryable_iff m _).mpr hr
      have hrest : ∀ i < n + 1 + left, backoff g.backoffBase (.int (i + 1 : Nat)) = .ok (pauses i) :=
        fun i hi => hpauses i (by omega)
      obtain ⟨last, hstops, hrun⟩ := ih hrest hmore
      refine ⟨last, Nat.succ_add_eq_add_succ n left ▸ hstops, ?_⟩
      rw [run_attempts_retry hr (hpauses n (by omega)), ← steps_succ, hrun]

/-- A message makes the same request again and again, after each one a wait, until an outcome is not worth
another or no retry is left, and comes to what the last outcome gives. A negative number of retries is
none. -/
theorem send_retries (g : Gateway) (m : Message) (outcomes : Nat → ScriptedResponse) {retries : Int}
    {seconds : Float} {pauses : Nat → Float} (hretries : g.maxRetries = .int retries)
    (htimeout : Setting.thousandth m.timeoutMs = .ok seconds)
    (hpauses : ∀ i < retries.toNat, backoff g.backoffBase (.int (i + 1 : Nat)) = .ok (pauses i)) :
    ∃ (r : Request) (last : Nat) (reply : Except Fault String), g.request m = .ok r ∧
      Stops outcomes retries.toNat last ∧ Gives m (outcomes last) reply ∧
      (g.send m).run (note outcomes) (0, []) =
        (reply, last + 1,
          ((List.range last).flatMap fun i => [.request r, .sleep (pauses i)]) ++ [.request r]) := by
  have hrequest : g.request m = .ok ⟨"POST", g.url, g.headers, .json (payload m), seconds⟩ := by
    simp only [request, htimeout, Except.map]
  have hcount : Setting.countBelow g.maxRetries = .ok retries.toNat := by
    rw [hretries]
    rfl
  have hpauses' : ∀ i < 0 + retries.toNat, backoff g.backoffBase (.int (i + 1 : Nat)) = .ok (pauses i) :=
    fun i hi => hpauses i (by omega)
  have hnone : ∀ i < 0, (outcomes i).Retryable := fun i hi => absurd hi (Nat.not_lt_zero i)
  obtain ⟨last, hstops, hrun⟩ := run_attempts m ⟨"POST", g.url, g.headers, .json (payload m), seconds⟩
    retries.toNat hpauses' hnone
  rw [Nat.zero_add] at hstops
  refine ⟨_, last, judged m outcomes last, hrequest, hstops, gives_judge m (outcomes last), ?_⟩
  simp only [send, hrequest, hcount]
  exact hrun

/-- A gateway that fails once and then replies. -/
def failsOnce (n : Nat) : ScriptedResponse := .response (if n = 0 then ⟨503, ""⟩ else ⟨200, "done"⟩)

theorem send_retries_once :
    ∃ (r : Request) (pause : Float),
      (send ⟨"http://g", none, .int 1, .int 1⟩ (.sample "hi")).run (note failsOnce) (0, []) =
        (.ok "done", 2, [.request r, .sleep pause, .request r]) := by
  obtain ⟨seconds, hseconds⟩ : ∃ seconds, Setting.thousandth (.int 1000) = .ok seconds := ⟨_, rfl⟩
  obtain ⟨pause, hpause⟩ : ∃ pause, backoff (.int 1) (.int 1) = .ok pause := ⟨_, rfl⟩
  have hpauses : ∀ i < Int.toNat 1, backoff (.int 1) (.int (i + 1 : Nat)) = .ok ((fun _ => pause) i) := by
    intro i hi
    obtain rfl : i = 0 := by omega
    exact hpause
  obtain ⟨r, last, reply, _, hstops, hgives, hrun⟩ :=
    send_retries ⟨"http://g", none, .int 1, .int 1⟩ (.sample "hi") failsOnce rfl hseconds hpauses
  have hlast : last = 1 := by
    have hle : last ≤ 1 := hstops.le
    rcases Nat.eq_zero_or_pos last with rfl | hpos
    · exact absurd (.status (by decide)) (hstops.ends.resolve_left (by decide))
    · omega
  subst hlast
  have hreply : reply = .ok "done" := (eq_judge_of_gives hgives).trans rfl
  exact ⟨r, pause, by rw [hrun, hreply]; rfl⟩

end Gateway

/-! ### Bodies that are nested too deeply -/

namespace Json

theorem skip_replicate (n : Nat) : skip (List.replicate n '[') = List.replicate n '[' := by
  cases n with
  | zero => rfl
  | succ n => rfl

/-- Brackets that open more lists than there may be around each other. -/
theorem value_replicate (k : Nat) (depth fuel n : Nat) (hdepth : maxDepth ≤ depth + k) (hn : k < n)
    (hfuel : 2 * k < fuel) :
    ∃ rest, value depth fuel (List.replicate n '[') = .error ⟨.depth true, rest⟩ := by
  induction k generalizing depth fuel n with
  | zero =>
    obtain ⟨n, rfl⟩ := Nat.exists_eq_succ_of_ne_zero (Nat.ne_of_gt hn)
    obtain ⟨fuel, rfl⟩ := Nat.exists_eq_succ_of_ne_zero (Nat.ne_of_gt hfuel)
    exact ⟨_, if_pos hdepth⟩
  | succ k ih =>
    obtain ⟨n, rfl⟩ : ∃ n', n = n' + 2 := ⟨n - 2, by omega⟩
    obtain ⟨fuel, rfl⟩ : ∃ fuel', fuel = fuel' + 2 := ⟨fuel - 2, by omega⟩
    by_cases hlast : maxDepth ≤ depth
    · exact ⟨_, if_pos hlast⟩
    · -- The list holds one bracket less, one level further down.
      obtain ⟨rest, hrest⟩ := ih (depth + 1) fuel (n + 1) (by omega) (by omega) (by omega)
      refine ⟨rest, (if_neg hlast).trans ?_⟩
      change (items (depth + 1) (fuel + 1) (List.replicate (n + 1) '[')).map _ = _
      rw [items, hrest]
      rfl

theorem bodyText_replicate (n : Nat) :
    bodyText? (List.replicate (n + 4) '[') = some (List.replicate (n + 4) '[') := by
  have hbytes : ∀ k, bytesOf (List.replicate k '[') = List.replicate k 91 := by
    intro k
    induction k with
    | zero => rfl
    | succ k ih =>
      have hchar : (String.utf8EncodeChar '[').map (·.toNat) = [91] := by decide
      simp only [List.replicate_succ, bytesOf, List.flatMap_cons, hchar] at ih ⊢
      rw [ih]
      rfl
  unfold bodyText?
  rw [hbytes]
  rfl

theorem parseBody_replicate {n : Nat} (h : maxDepth < n) :
    ∃ failure, parseBody? (List.replicate n '[') = .error failure := by
  obtain ⟨rest, hrest⟩ := value_replicate maxDepth 0 (2 * n + 2) n (by omega) h (by omega)
  obtain ⟨k, rfl⟩ : ∃ k, n = k + 4 := ⟨n - 4, by unfold maxDepth at h; omega⟩
  refine ⟨⟨.depth true, rest⟩, ?_⟩
  have hparse : parse (List.replicate (k + 4) '[') = .error ⟨.depth true, rest⟩ := by
    unfold parse
    rw [skip_replicate, List.length_replicate, hrest]
    rfl
  simp only [parseBody?, bodyText_replicate, hparse]
  rfl

end Json

/-- A body that is nested too deeply makes a gateway fail, where the text of any other body is the reply. -/
theorem Gateway.not_reply_nested :
    ¬ ∀ (m : Message) (r : Response), (∃ seconds, Setting.thousandth m.timeoutMs = .ok seconds) →
      r.status < 400 → ∃ text, sample.reply m (fun _ => .response r) = .ok text := by
  intro h
  obtain ⟨failure, hfailure⟩ := Json.parseBody_replicate (n := 2000) (by decide)
  obtain ⟨text, htext⟩ := h (.sample "hi") ⟨200, String.ofList (List.replicate 2000 '[')⟩ ⟨_, rfl⟩ (by decide)
  have hbody : Json.parseBody? (String.ofList (List.replicate 2000 '[')).toList = .error failure := by
    rw [String.toList_ofList, hfailure]
  have hunforeseen : (ScriptedResponse.response ⟨200, String.ofList (List.replicate 2000 '[')⟩).Unforeseen :=
    .body (by decide) hbody
  have hproper : Proper (sample.reply (.sample "hi") fun _ =>
      .response ⟨200, String.ofList (List.replicate 2000 '[')⟩) := by
    rw [htext]
    exact proper_ok text
  rw [proper_reply_iff] at hproper
  exact hproper.foreseen 0 (Nat.zero_le _) (sample.made_zero _ _) hunforeseen

end Conductor
