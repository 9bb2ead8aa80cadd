import Conductor.Dispatch.Local

/-! Messages to agents in this process, one after the other. What an agent is given to read is what was
said before on the session of the message, no more and no less. -/

namespace Conductor

variable {α σ : Type}

/-- Each entry of a list has a property that looks at the entries before it. -/
def EachAfter {β : Type} (P : List β → β → Prop) (xs : List β) : Prop :=
  ∀ before x after, xs = before ++ x :: after → P before x

section EachAfter

variable {β : Type} {P : List β → β → Prop} {xs : List β} {x : β}

theorem eachAfter_nil : EachAfter P [] := fun before _ _ h => by cases before <;> cases h

theorem eachAfter_snoc : EachAfter P (xs ++ [x]) ↔ EachAfter P xs ∧ P xs x := by
  constructor
  · intro h
    refine ⟨fun before y after he => h before y (after ++ [x]) ?_, h xs x [] rfl⟩
    rw [he, List.append_assoc, List.cons_append]
  · rintro ⟨h, hx⟩ before y after he
    rcases List.eq_nil_or_concat after with rfl | ⟨after, last, rfl⟩
    · obtain ⟨rfl, hy⟩ := List.append_inj' he rfl
      exact List.singleton_inj.mp hy ▸ hx
    · have hsplit : xs ++ [x] = (before ++ y :: after) ++ [last] := by simpa using he
      exact h before y after (List.append_inj' hsplit rfl).1

theorem EachAfter.take (h : EachAfter P xs) (n : Nat) : EachAfter P (xs.take n) := by
  intro before y after he
  refine h before y (after ++ xs.drop n) ?_
  rw [← List.cons_append, ← List.append_assoc, ← he, List.take_append_drop]

end EachAfter

/-- A message to agent `a` on session `s`. -/
def Message.sample (text : String) : Message := ⟨some "a", some "s", text, .int 1000⟩

/-- What became of a message: the agent that was consulted and the end of its run, if it came to that, and
the reply. -/
structure Delivery (α : Type) where
  message : Message
  consulted : Option (Consultation α × AgentRun)
  reply : Except Fault String

namespace Delivery

/-- The session that a message belongs to, if it belongs to one. -/
def session? (x : Delivery α) : Option String := given? x.message.sessionKey

/-- What a message that was replied to adds to its session: the message and the output. -/
def turn? (x : Delivery α) : Option History :=
  match x.reply, x.consulted with
  | .ok _, some (_, .output v) => some [.str x.message.text, v]
  | _, _ => none

/-- The turns of a session, the oldest first. -/
def turns (session : String) (xs : List (Delivery α)) : List History :=
  (xs.filter (·.session? = some session)).filterMap turn?

/-- What was said on a session, if anything was. -/
def said? (session : String) (xs : List (Delivery α)) : Option History :=
  match turns session xs with
  | [] => none
  | turns => some turns.flatten

/-- What became of a message after some others: its agent read what was said on the session before, and
there was a reply exactly if the run of the agent ended with an output. -/
structure Follows (before : List (Delivery α)) (x : Delivery α) : Prop where
  read : ∀ c run, x.consulted = some (c, run) →
    c.message = x.message.text ∧ c.history = x.session?.bind (said? · before)
  replied : ∀ text, x.reply = .ok text ↔ ∃ c v, x.consulted = some (c, .output v) ∧ v.plain = text

end Delivery

/-- What is done with a dispatcher. -/
inductive Dealing (α : Type) where
  | register (id : String) (agent : α)
  | send (m : Message)

def Dealing.message? : Dealing α → Option Message
  | .register _ _ => none
  | .send m => some m

/-- A dispatcher and the state of its agents, with what became of the messages so far. -/
structure Correspondence (α σ : Type) where
  dispatcher : LocalAgents α
  agents : σ
  deliveries : List (Delivery α)

namespace Correspondence

/-- Agents whose last consultation is noted down. -/
def noting (consult : Consultation α → σ → AgentRun × σ) (c : Consultation α)
    (s : σ × Option (Consultation α × AgentRun)) :
    AgentRun × σ × Option (Consultation α × AgentRun) :=
  ((consult c s.1).1, (consult c s.1).2, some (c, (consult c s.1).1))

def start (agents : Table α) (defaultId : Option String) (s : σ) : Correspondence α σ :=
  ⟨.start agents defaultId, s, []⟩

def deal (consult : Consultation α → σ → AgentRun × σ) (x : Correspondence α σ) :
    Dealing α → Correspondence α σ
  | .register id agent => { x with dispatcher := x.dispatcher.register id agent }
  | .send m =>
    let r := x.dispatcher.send (noting consult) m (x.agents, none)
    ⟨r.1, r.2.2.1, x.deliveries ++ [⟨m, r.2.2.2, r.2.1⟩]⟩

def run (consult : Consultation α → σ → AgentRun × σ) (x : Correspondence α σ)
    (dealings : List (Dealing α)) : Correspondence α σ :=
  dealings.foldl (deal consult) x

end Correspondence

/-! ### One message -/

namespace LocalAgents

variable {d : LocalAgents α} {m : Message} {c : Consultation α} {run : AgentRun}

/-- The agent that a message goes to, with its id. -/
def addressee? (d : LocalAgents α) (m : Message) : Option (String × α) :=
  (given? (d.recipient m.agentId)).bind fun id => (Table.get? d.agents id).map fun agent => (id, agent)

theorem begin?_of_none (h : d.addressee? m = none) :
    d.begin? m = .error (notFound (d.recipient m.agentId)) := by
  unfold addressee? at h
  simp only [begin?]
  cases hid : given? (d.recipient m.agentId) with
  | none => rfl
  | some id =>
    rw [hid, Option.bind_some, Option.map_eq_none_iff] at h
    simp only [h]

theorem begin?_of_some {found : String × α} (h : d.addressee? m = some found) :
    d.begin? m = (Setting.thousandth m.timeoutMs).map fun timeout =>
      ⟨found.1, found.2, given? m.sessionKey, m.text, (given? m.sessionKey).bind (Table.get? d.histories),
        m.timeoutMs, timeout⟩ := by
  obtain ⟨_, hid, hfound⟩ := Option.bind_eq_some_iff.mp h
  obtain ⟨_, hagent, he⟩ := Option.map_eq_some_iff.mp hfound
  cases he
  simp only [begin?, hid, hagent]

/-- An agent is given the message, and what the histories have of its session. The timeout of the message is
a number then. -/
theorem begin?_eq_ok (h : d.begin? m = .ok c) :
    (∃ seconds, Setting.thousandth m.timeoutMs = .ok seconds) ∧ c.message = m.text ∧
      c.sessionKey = given? m.sessionKey ∧
      c.history = (given? m.sessionKey).bind (Table.get? d.histories) := by
  cases ha : d.addressee? m with
  | none =>
    rw [begin?_of_none ha] at h
    cases h
  | some found =>
    rw [begin?_of_some ha] at h
    cases ht : Setting.thousandth m.timeoutMs with
    | error f =>
      rw [ht] at h
      cases h
    | ok timeout =>
      rw [ht] at h
      cases h
      exact ⟨⟨timeout, rfl⟩, rfl, rfl, rfl⟩

/-- Only an output is replied with, and only then something is written down. -/
theorem finish_cases (d : LocalAgents α) (c : Consultation α) (run : AgentRun) :
    (∃ f, d.finish c run = (d, .error f) ∧ ∀ v, run ≠ .output v) ∨
    (∃ v, run = .output v ∧ c.sessionKey = none ∧ d.finish c run = (d, .ok v.plain)) ∨
    ∃ v session, run = .output v ∧ c.sessionKey = some session ∧
      d.finish c run =
        ({ d with histories := Table.put d.histories session (c.extended v) }, .ok v.plain) := by
  cases run with
  | output v =>
    cases hk : c.sessionKey with
    | none => exact Or.inr (Or.inl ⟨v, rfl, rfl, by simp only [finish, hk]⟩)
    | some session => exact Or.inr (Or.inr ⟨v, session, rfl, rfl, by simp only [finish, hk]⟩)
  | timeout => exact Or.inl ⟨_, rfl, fun _ h => nomatch h⟩
  | failed f => exact Or.inl ⟨f, rfl, fun _ h => nomatch h⟩

theorem snd_finish_eq_ok (d : LocalAgents α) (c : Consultation α) (run : AgentRun) (text : String) :
    (d.finish c run).2 = .ok text ↔ ∃ v, run = .output v ∧ v.plain = text := by
  cases run with
  | output v =>
    refine ⟨fun h => ⟨v, rfl, Except.ok.inj h⟩, fun ⟨_, he, h⟩ => ?_⟩
    cases he
    exact congrArg Except.ok h
  | timeout => exact ⟨fun h => (nomatch h), fun ⟨_, he, _⟩ => (nomatch he)⟩
  | failed f => exact ⟨fun h => (nomatch h), fun ⟨_, he, _⟩ => (nomatch he)⟩

/-- A message either comes to no agent, and then to a fault, or its agent is consulted, and then what
becomes of it is up to the end of the agent's run. -/
theorem send_cases (consult : Consultation α → σ → AgentRun × σ) (d : LocalAgents α) (m : Message)
    (s : σ) :
    (∃ f, d.send consult m s = (d, .error f, s)) ∨
    ∃ c, d.begin? m = .ok c ∧
      d.send consult m s =
        ((d.finish c (consult c s).1).1, (d.finish c (consult c s).1).2, (consult c s).2) := by
  cases hb : d.begin? m with
  | error f => exact Or.inl ⟨f, by simp only [send, hb]⟩
  | ok c =>
    cases he : c.expired with
    | true => exact Or.inl ⟨_, by simp only [send, hb, he, if_true]; rfl⟩
    | false => exact Or.inr ⟨c, rfl, by simp only [send, hb, he]; rfl⟩

/-- A message that comes to a fault leaves everything as it was. -/
theorem send_of_error {consult : Consultation α → σ → AgentRun × σ} {s : σ} {f : Fault}
    (h : (d.send consult m s).2.1 = .error f) : (d.send consult m s).1 = d := by
  rcases d.send_cases consult m s with ⟨_, he⟩ | ⟨c, _, he⟩
  · rw [he]
  · rw [he] at h ⊢
    rcases d.finish_cases c (consult c s).1 with ⟨_, hf, _⟩ | ⟨_, _, _, hf⟩ | ⟨_, _, _, _, hf⟩
    · rw [hf]
    · rw [hf]
    · rw [hf] at h
      cases h

/-- An agent that is found in time is consulted, and its output is the reply. -/
theorem send_of_output {consult : Consultation α → σ → AgentRun × σ} {s : σ} (hc : d.begin? m = .ok c)
    (he : c.expired = false) {v : Json} (hv : (consult c s).1 = .output v) :
    (d.send consult m s).2 = (.ok v.plain, (consult c s).2) := by
  have hreply : (d.finish c (.output v)).2 = .ok v.plain := rfl
  rw [← hreply, ← hv]
  simp only [send, hc, he]
  rfl

/-- A message leaves every session as it was but its own. -/
theorem get?_histories_send (consult : Consultation α → σ → AgentRun × σ) (s : σ) {session : String}
    (h : given? m.sessionKey ≠ some session) :
    Table.get? (d.send consult m s).1.histories session = Table.get? d.histories session := by
  rcases d.send_cases consult m s with ⟨_, he⟩ | ⟨c, hb, he⟩
  · rw [he]
  · rw [he]
    rcases d.finish_cases c (consult c s).1 with ⟨_, hf, _⟩ | ⟨_, _, _, hf⟩ | ⟨_, own, _, hk, hf⟩
    · rw [hf]
    · rw [hf]
    · rw [hf]
      refine Table.get?_put_of_ne _ _ fun ho => h ?_
      rw [← (begin?_eq_ok hb).2.2.1, hk, ho]

end LocalAgents

/-! ### Message after message -/

namespace Delivery

variable {session : String} {xs : List (Delivery α)} {x : Delivery α}

theorem turns_snoc (session : String) (xs : List (Delivery α)) (x : Delivery α) :
    turns session (xs ++ [x]) =
      turns session xs ++ if x.session? = some session then x.turn?.toList else [] := by
  unfold turns
  rw [List.filter_append, List.filterMap_append]
  by_cases h : x.session? = some session
  · simp [h, List.filterMap_cons]
    cases x.turn? <;> rfl
  · simp [h]

theorem getD_said? (session : String) (xs : List (Delivery α)) :
    (said? session xs).getD [] = (turns session xs).flatten := by
  unfold said?
  cases turns session xs <;> rfl

theorem said?_snoc_of_turn {turn : History} (hs : x.session? = some session) (ht : x.turn? = some turn) :
    said? session (xs ++ [x]) = some ((said? session xs).getD [] ++ turn) := by
  have hturns : turns session (xs ++ [x]) = turns session xs ++ [turn] := by
    rw [turns_snoc, if_pos hs, ht, Option.toList_some]
  rw [getD_said?, said?, hturns]
  cases turns session xs with
  | nil => simp
  | cons first rest => simp

theorem said?_snoc_of_not_turn (h : x.session? = some session → x.turn? = none) :
    said? session (xs ++ [x]) = said? session xs := by
  have hturns : turns session (xs ++ [x]) = turns session xs := by
    rw [turns_snoc]
    by_cases hs : x.session? = some session
    · rw [if_pos hs, h hs, Option.toList_none, List.append_nil]
    · rw [if_neg hs, List.append_nil]
  rw [said?, hturns, said?]

end Delivery

namespace Correspondence

variable {x : Correspondence α σ} {m : Message}

/-- The histories are what was said, and each message was dealt with by what was said before it. -/
structure Exact (x : Correspondence α σ) : Prop where
  stored : ∀ session, Table.get? x.dispatcher.histories session = Delivery.said? session x.deliveries
  follows : EachAfter (fun before y => y.Follows before) x.deliveries

theorem exact_start (agents : Table α) (defaultId : Option String) (s : σ) :
    (start agents defaultId s).Exact :=
  ⟨fun _ => rfl, eachAfter_nil⟩

theorem Exact.send (h : x.Exact) (consult : Consultation α → σ → AgentRun × σ) (m : Message) :
    (x.deal consult (.send m)).Exact := by
  unfold deal
  rcases x.dispatcher.send_cases (noting consult) m (x.agents, none) with ⟨f, he⟩ | ⟨c, hb, he⟩
  · -- No agent is consulted, and nothing is said.
    simp only [he]
    refine ⟨fun session => ?_, eachAfter_snoc.mpr ⟨h.follows, fun _ _ hc => (nomatch hc), fun text => ?_⟩⟩
    · rw [Delivery.said?_snoc_of_not_turn fun _ => rfl]
      exact h.stored session
    · exact ⟨fun hr => (nomatch hr), fun ⟨_, _, hc, _⟩ => (nomatch hc)⟩
  · obtain ⟨-, hmessage, hkey, hhistory⟩ := LocalAgents.begin?_eq_ok hb
    have hread : c.history = (given? m.sessionKey).bind (Delivery.said? · x.deliveries) := by
      rw [hhistory]
      exact congrArg (Option.bind _) (funext h.stored)
    simp only [he, noting]
    generalize (consult c x.agents).1 = run
    have hfollows : Delivery.Follows x.deliveries
        ⟨m, some (c, run), (x.dispatcher.finish c run).2⟩ := by
      refine ⟨fun _ _ hc => ?_, fun text => ?_⟩
      · cases hc
        exact ⟨hmessage, hread⟩
      · rw [LocalAgents.snd_finish_eq_ok]
        exact ⟨fun ⟨v, hv, ht⟩ => ⟨c, v, by rw [hv], ht⟩,
          fun ⟨_, v, hc, ht⟩ => ⟨v, (Prod.mk.inj (Option.some.inj hc)).2, ht⟩⟩
    refine ⟨fun session => ?_, eachAfter_snoc.mpr ⟨h.follows, hfollows⟩⟩
    rcases x.dispatcher.finish_cases c run with ⟨f, hf, _⟩ | ⟨v, rfl, hk, hf⟩ | ⟨v, own, rfl, hk, hf⟩
    · rw [hf, Delivery.said?_snoc_of_not_turn fun _ => rfl]
      exact h.stored session
    · -- There is no session to write the turn down for.
      rw [hf, Delivery.said?_snoc_of_not_turn fun hs => ?_]
      · exact h.stored session
      · cases (hkey.symm.trans hk).symm.trans hs
    · -- The turn goes to the end of what was said on its session.
      have hs : Delivery.session? ⟨m, some (c, .output v), .ok v.plain⟩ = some own := hkey.symm.trans hk
      rw [hf, Table.get?_put]
      by_cases ho : own = session
      · subst ho
        have hgiven : given? m.sessionKey = some own := hs
        rw [if_pos rfl, Delivery.said?_snoc_of_turn hs rfl, Consultation.extended, hread, hgiven, hmessage]
        rfl
      · rw [if_neg ho, Delivery.said?_snoc_of_not_turn fun hs' => ?_]
        · exact h.stored session
        · exact absurd (Option.some.inj (hs.symm.trans hs')) ho

theorem Exact.run (h : x.Exact) (consult : Consultation α → σ → AgentRun × σ)
    (dealings : List (Dealing α)) : (x.run consult dealings).Exact := by
  induction dealings generalizing x with
  | nil => exact h
  | cons dealing dealings ih =>
    cases dealing with
    | register id agent => exact ih ⟨h.stored, h.follows⟩
    | send m => exact ih (h.send consult m)

theorem messages_run (x : Correspondence α σ) (consult : Consultation α → σ → AgentRun × σ)
    (dealings : List (Dealing α)) :
    (x.run consult dealings).deliveries.map Delivery.message =
      x.deliveries.map Delivery.message ++ dealings.filterMap Dealing.message? := by
  induction dealings generalizing x with
  | nil => exact (List.append_nil _).symm
  | cons dealing dealings ih =>
    refine (ih (x.deal consult dealing)).trans ?_
    cases dealing with
    | register id agent => rfl
    | send m => simp [deal, Dealing.message?]

/-- Each message is dealt with by what was said on its session before: its agent reads the turns of the
messages of the session that were replied to, all of them and in order, or nothing if there are none. The
histories are what was said, and a further message that comes to a fault leaves them all as they were, any
other one all but its own session. Its agent, if there is one and time for it, reads what was said, and what
it puts out is the reply. -/
theorem histories_run (consult : Consultation α → σ → AgentRun × σ) (agents : Table α)
    (defaultId : Option String) (s : σ) (dealings : List (Dealing α)) :
    let x := (start agents defaultId s).run consult dealings
    x.deliveries.map Delivery.message = dealings.filterMap Dealing.message? ∧
      EachAfter (fun before y => y.Follows before) x.deliveries ∧
      (∀ session, Table.get? x.dispatcher.histories session =
        Delivery.said? session x.deliveries) ∧
      ∀ m s', let r := x.dispatcher.send consult m s'
        ((∃ f, r.2.1 = .error f) → r.1 = x.dispatcher) ∧
          (∀ session, given? m.sessionKey ≠ some session →
            Table.get? r.1.histories session = Table.get? x.dispatcher.histories session) ∧
          ∀ found seconds, x.dispatcher.addressee? m = some found →
            Setting.thousandth m.timeoutMs = .ok seconds →
            let c : Consultation α := ⟨found.1, found.2, given? m.sessionKey, m.text,
              (given? m.sessionKey).bind (Delivery.said? · x.deliveries), m.timeoutMs, seconds⟩
            c.expired = false → ∀ v, (consult c s').1 = .output v →
              r.2 = (.ok v.plain, (consult c s').2) := by
  intro x
  have hexact : x.Exact := (exact_start agents defaultId s).run consult dealings
  refine ⟨messages_run _ consult dealings, hexact.follows, hexact.stored, fun m s' => ⟨?_, ?_, ?_⟩⟩
  · rintro ⟨f, hf⟩
    exact LocalAgents.send_of_error hf
  · exact fun session hs => LocalAgents.get?_histories_send consult s' hs
  · intro found seconds hfound hseconds c he v hv
    have hsaid : Table.get? x.dispatcher.histories = (Delivery.said? · x.deliveries) :=
      funext hexact.stored
    have hbegin : x.dispatcher.begin? m = .ok c := by
      rw [LocalAgents.begin?_of_some hfound, hseconds, hsaid]
      rfl
    exact LocalAgents.send_of_output hbegin he hv

end Correspondence

end Conductor
