import Conductor.Proofs.Dispatch.Sessions
import Mathlib.Data.List.Induction

/-! Messages to agents in this process that overlap. A message reads the history of its session when it is
sent and writes it when the agent has answered; in between other messages may do either. What is written
last stands, so that a history holds every turn exactly if no turn was taken down while another message of
the session was on its way. -/

namespace Conductor

variable {α σ : Type}

/-- A turn that was taken down. -/
structure Turn (α : Type) where
  /-- The number of its message. -/
  number : Nat
  consultation : Consultation α
  output : Json
  /-- How many turns had been taken down when the message was sent. -/
  known : Nat

namespace Turn

def session? (t : Turn α) : Option String := t.consultation.sessionKey

/-- The message and the output. -/
def words (t : Turn α) : History := [.str t.consultation.message, t.output]

/-- The history that the turn leaves behind. -/
def leaves (t : Turn α) : History := t.consultation.extended t.output

/-- The turns of a session, the oldest first. -/
def onSession (session : String) (ts : List (Turn α)) : List (Turn α) :=
  ts.filter (·.session? = some session)

/-- What the last turn of a session leaves behind. -/
def latest? (session : String) (ts : List (Turn α)) : Option History :=
  (onSession session ts).getLast?.map leaves

/-- All that was said on a session. -/
def allWords (session : String) (ts : List (Turn α)) : History := (onSession session ts).flatMap words

/-- The message of a turn read what the last turn of its session had left behind when it was sent. -/
def Linked (before : List (Turn α)) (t : Turn α) : Prop :=
  t.consultation.history = t.session?.bind (latest? · (before.take t.known))

/-- The turn is that of a message and a reply to it. -/
structure Answers (m : Message) (text : String) (t : Turn α) : Prop where
  session : t.session? = given? m.sessionKey
  message : t.consultation.message = m.text
  output : t.output.plain = text

/-- While the message of a turn was on its way, no turn of a session was taken down. -/
def Undisturbed (session : String) (before : List (Turn α)) (t : Turn α) : Prop :=
  t.session? = some session → onSession session (before.drop t.known) = []

/-- No turn of a session was taken down while another message of the session was on its way. -/
def Apart (session : String) (ts : List (Turn α)) : Prop := EachAfter (Undisturbed session) ts

end Turn

/-- How far a message has come. -/
inductive Stage (α : Type) where
  /-- It waits for the agent; `known` turns had been taken down when it was sent. -/
  | waiting (c : Consultation α) (known : Nat)
  | ended (reply : Except Fault String)

structure Passage (α : Type) where
  message : Message
  stage : Stage α

/-- A dispatcher with the messages that were sent, by number, and the turns that were taken down. -/
structure Switchboard (α : Type) where
  dispatcher : LocalAgents α
  passages : List (Passage α)
  turns : List (Turn α)

namespace Switchboard

inductive Event (α : Type) where
  | register (id : String) (agent : α)
  | send (m : Message)
  /-- The run of the agent that a message waits for ends. -/
  | arrive (number : Nat) (run : AgentRun)

def start (agents : Table α) (defaultId : Option String) : Switchboard α :=
  ⟨.start agents defaultId, [], []⟩

/-- The turn that the end of a run makes, if it is to be taken down. -/
def turn? (number : Nat) (c : Consultation α) (known : Nat) : AgentRun → Option (Turn α)
  | .output v => if c.sessionKey.isSome then some ⟨number, c, v, known⟩ else none
  | _ => none

def step (x : Switchboard α) : Event α → Switchboard α
  | .register id agent => { x with dispatcher := x.dispatcher.register id agent }
  | .send m =>
    match x.dispatcher.begin? m with
    | .error f => { x with passages := x.passages ++ [⟨m, .ended (.error f)⟩] }
    | .ok c => { x with passages := x.passages ++ [⟨m, .waiting c x.turns.length⟩] }
  | .arrive number run =>
    match x.passages[number]? with
    | some ⟨m, .waiting c known⟩ =>
      let run := if c.expired then .timeout else run
      ⟨(x.dispatcher.finish c run).1,
        x.passages.set number ⟨m, .ended (x.dispatcher.finish c run).2⟩,
        x.turns ++ (turn? number c known run).toList⟩
    | _ => x

def run (x : Switchboard α) (events : List (Event α)) : Switchboard α := events.foldl step x

end Switchboard

/-! ### Turns -/

namespace Turn

variable {session : String} {ts : List (Turn α)} {t : Turn α} {n : Nat}

theorem onSession_append (session : String) (ts us : List (Turn α)) :
    onSession session (ts ++ us) = onSession session ts ++ onSession session us :=
  List.filter_append ts us

theorem onSession_snoc_of_ne (h : t.session? ≠ some session) :
    onSession session (ts ++ [t]) = onSession session ts := by
  simp [onSession, h]

theorem onSession_snoc_self (h : t.session? = some session) :
    onSession session (ts ++ [t]) = onSession session ts ++ [t] := by
  simp [onSession, h]

theorem latest?_snoc_self (h : t.session? = some session) :
    latest? session (ts ++ [t]) = some t.leaves := by
  rw [latest?, onSession_snoc_self h, List.getLast?_concat, Option.map_some]

theorem latest?_snoc_of_ne (h : t.session? ≠ some session) :
    latest? session (ts ++ [t]) = latest? session ts := by
  rw [latest?, onSession_snoc_of_ne h, latest?]

/-- A turn leaves behind what its message read, and itself. -/
theorem Linked.leaves_eq (hl : Linked ts t) (h : t.session? = some session) :
    t.leaves = (latest? session (ts.take t.known)).getD [] ++ t.words := by
  have hread : t.consultation.history = latest? session (ts.take t.known) := by
    rw [hl, h, Option.bind_some]
  rw [leaves, Consultation.extended, hread, words]

theorem allWords_snoc_self (h : t.session? = some session) :
    allWords session (ts ++ [t]) = allWords session ts ++ t.words := by
  rw [allWords, onSession_snoc_self h, List.flatMap_append, List.flatMap_singleton, allWords]

theorem allWords_snoc_of_ne (h : t.session? ≠ some session) :
    allWords session (ts ++ [t]) = allWords session ts := by
  rw [allWords, onSession_snoc_of_ne h, allWords]

/-- Turns of other sessions make no difference to a session. -/
theorem latest?_take (h : onSession session (ts.drop n) = []) :
    latest? session (ts.take n) = latest? session ts := by
  have hsame : onSession session ts = onSession session (ts.take n) ++ onSession session (ts.drop n) := by
    rw [← onSession_append, List.take_append_drop]
  rw [latest?, latest?, hsame, h, List.append_nil]

theorem allWords_take_drop (session : String) (ts : List (Turn α)) (n : Nat) :
    allWords session ts = allWords session (ts.take n) ++ allWords session (ts.drop n) := by
  rw [allWords, allWords, allWords, ← List.flatMap_append, ← onSession_append, List.take_append_drop]

theorem allWords_eq_nil_iff : allWords session ts = [] ↔ onSession session ts = [] := by
  rw [allWords, List.flatMap_eq_nil_iff]
  refine ⟨fun h => List.eq_nil_iff_forall_not_mem.mpr fun t ht => ?_, fun h t ht => ?_⟩
  · exact List.cons_ne_nil _ _ (h t ht)
  · rw [h] at ht
    cases ht

/-- A history never holds more than was said. -/
theorem length_latest?_le (hl : EachAfter Linked ts) (session : String) :
    ((latest? session ts).getD []).length ≤ (allWords session ts).length := by
  -- What a message read belongs to a shorter list of turns.
  induction hn : ts.length using Nat.strongRecOn generalizing ts with
  | ind n ih =>
    rcases List.eq_nil_or_concat ts with rfl | ⟨ts, t, rfl⟩
    · exact Nat.zero_le _
    · rw [List.concat_eq_append] at hl hn ⊢
      obtain ⟨hts, ht⟩ := eachAfter_snoc.mp hl
      have hlength : ts.length < n := by
        rw [← hn, List.length_append]
        exact Nat.lt_succ_self _
      by_cases hs : t.session? = some session
      · have hshort : (ts.take t.known).length < n := by
          rw [List.length_take]
          omega
        have hread := ih _ hshort (hts.take t.known) rfl
        have hall := congrArg List.length (allWords_take_drop session ts t.known)
        rw [List.length_append] at hall
        rw [latest?_snoc_self hs, ht.leaves_eq hs, allWords_snoc_self hs, Option.getD_some,
          List.length_append, List.length_append]
        omega
      · have hrest := ih _ hlength hts rfl
        rwa [latest?_snoc_of_ne hs, allWords_snoc_of_ne hs]

/-- A history holds every turn exactly if each message of the session was sent after the turn before it had
been taken down. -/
theorem latest?_eq_allWords_iff (hl : EachAfter Linked ts) (session : String) :
    (latest? session ts).getD [] = allWords session ts ↔ Apart session ts := by
  induction ts using List.reverseRecOn with
  | nil => exact ⟨fun _ => eachAfter_nil, fun _ => rfl⟩
  | append_singleton ts t ih =>
    obtain ⟨hts, ht⟩ := eachAfter_snoc.mp hl
    rw [Apart, eachAfter_snoc, ← Apart, ← ih hts]
    by_cases hs : t.session? = some session
    · have hall := allWords_take_drop session ts t.known
      rw [latest?_snoc_self hs, ht.leaves_eq hs, allWords_snoc_self hs, Option.getD_some,
        List.append_left_inj]
      constructor
      · -- What the message read is no longer than what had been said when it was sent.
        intro he
        have hle := length_latest?_le (hts.take t.known) session
        have hdrop : allWords session (ts.drop t.known) = [] := by
          rw [he, hall, List.length_append] at hle
          exact List.eq_nil_of_length_eq_zero (by omega)
        have hnone := allWords_eq_nil_iff.mp hdrop
        refine ⟨?_, fun _ => hnone⟩
        rwa [latest?_take hnone] at he
      · rintro ⟨he, hu⟩
        rwa [latest?_take (hu hs)]
    · have hu : Undisturbed session ts t := fun h => absurd h hs
      rw [latest?_snoc_of_ne hs, allWords_snoc_of_ne hs]
      exact (and_iff_left hu).symm

end Turn

/-! ### Messages on their way -/

namespace Switchboard

variable {x : Switchboard α} {n number : Nat} {m m' : Message} {stage stage' : Stage α}

/-- Message `n` has come to a stage. -/
def At (x : Switchboard α) (n : Nat) (m : Message) (stage : Stage α) : Prop :=
  x.passages[n]? = some ⟨m, stage⟩

theorem at_snoc {d : LocalAgents α} {turns : List (Turn α)} :
    At ⟨d, x.passages ++ [⟨m', stage'⟩], turns⟩ n m stage ↔
      x.At n m stage ∨ n = x.passages.length ∧ m = m' ∧ stage = stage' := by
  unfold At
  rcases Nat.lt_trichotomy n x.passages.length with hn | rfl | hn
  · rw [List.getElem?_append_left hn]
    simp only [Nat.ne_of_lt hn, false_and, or_false]
  · rw [List.getElem?_concat_length, List.getElem?_eq_none (Nat.le_refl _)]
    simp [eq_comm]
  · have hlength : (x.passages ++ [(⟨m', stage'⟩ : Passage α)]).length ≤ n := by
      rw [List.length_append]
      exact hn
    rw [List.getElem?_eq_none hlength, List.getElem?_eq_none (Nat.le_of_lt hn)]
    simp [Nat.ne_of_gt hn]

theorem at_set {d : LocalAgents α} {turns : List (Turn α)} {old : Passage α}
    (h : x.passages[number]? = some old) :
    At ⟨d, x.passages.set number ⟨m', stage'⟩, turns⟩ n m stage ↔
      if n = number then m = m' ∧ stage = stage' else x.At n m stage := by
  have hlt : number < x.passages.length := (List.getElem?_eq_some_iff.mp h).1
  unfold At
  by_cases hn : n = number
  · subst hn
    simp [hlt, eq_comm]
  · simp [List.getElem?_set_ne (Ne.symm hn), hn]

/-- What a message that waits has read of its session, and when. -/
structure Reads (turns : List (Turn α)) (m : Message) (c : Consultation α) (known : Nat) : Prop where
  message : c.message = m.text
  session : c.sessionKey = given? m.sessionKey
  history : c.history = c.sessionKey.bind (Turn.latest? · (turns.take known))
  known : known ≤ turns.length

/-- The histories are what the latest turns left behind, and the turns are those of the messages of a
session that were replied to. -/
structure Wired (x : Switchboard α) : Prop where
  stored : ∀ session, Table.get? x.dispatcher.histories session = Turn.latest? session x.turns
  linked : EachAfter Turn.Linked x.turns
  waiting : ∀ n m c known, x.At n m (.waiting c known) → Reads x.turns m c known
  replied : ∀ n m text, x.At n m (.ended (.ok text)) → given? m.sessionKey ≠ none →
    ∃ t ∈ x.turns, t.number = n ∧ t.Answers m text
  owned : ∀ t ∈ x.turns, ∃ m text, x.At t.number m (.ended (.ok text)) ∧ t.Answers m text
  nodup : (x.turns.map Turn.number).Nodup

theorem Reads.snoc {turns : List (Turn α)} {c : Consultation α} {known : Nat} (h : Reads turns m c known)
    (t : Turn α) : Reads (turns ++ [t]) m c known := by
  refine ⟨h.message, h.session, ?_, Nat.le_trans h.known (by simp)⟩
  rw [List.take_append_of_le_length h.known]
  exact h.history

theorem wired_start (agents : Table α) (defaultId : Option String) : (start agents defaultId).Wired := by
  refine ⟨fun _ => rfl, eachAfter_nil, ?_, ?_, fun _ h => (nomatch h), List.nodup_nil⟩
  · exact fun _ _ _ _ h => (nomatch h)
  · exact fun _ _ _ h => (nomatch h)

/-- A message begins: it comes to a fault at once, or it waits with what it has read. -/
theorem Wired.begun (h : x.Wired) (hstage : ∀ text, stage' ≠ .ended (.ok text))
    (hreads : ∀ c known, stage' = .waiting c known → Reads x.turns m' c known) :
    Wired { x with passages := x.passages ++ [⟨m', stage'⟩] } := by
  refine ⟨h.stored, h.linked, fun n m c known ha => ?_, fun n m text ha hs => ?_, fun t ht => ?_, h.nodup⟩
  · rcases at_snoc.mp ha with ha | ⟨_, rfl, he⟩
    · exact h.waiting n m c known ha
    · exact hreads c known he.symm
  · rcases at_snoc.mp ha with ha | ⟨_, _, he⟩
    · exact h.replied n m text ha hs
    · exact absurd he.symm (hstage text)
  · obtain ⟨m, text, ha, hanswers⟩ := h.owned t ht
    exact ⟨m, text, at_snoc.mpr (Or.inl ha), hanswers⟩

theorem Wired.send (h : x.Wired) (m : Message) : (x.step (.send m)).Wired := by
  cases hb : x.dispatcher.begin? m with
  | error f =>
    simp only [step, hb]
    exact h.begun (fun _ he => by cases he) fun _ _ he => by cases he
  | ok c =>
    simp only [step, hb]
    refine h.begun (fun _ he => by cases he) fun c' known he => ?_
    cases he
    obtain ⟨-, hmessage, hsession, hhistory⟩ := LocalAgents.begin?_eq_ok hb
    refine ⟨hmessage, hsession, ?_, Nat.le_refl _⟩
    rw [hhistory, hsession, List.take_length]
    exact congrArg (Option.bind _) (funext h.stored)

variable {d : LocalAgents α} {c : Consultation α} {known : Nat}

/-- A message that waits has made no turn. -/
theorem Wired.number_ne (h : x.Wired) (hp : x.passages[number]? = some ⟨m, .waiting c known⟩) :
    ∀ t ∈ x.turns, t.number ≠ number := by
  intro t ht hn
  obtain ⟨_, _, ha, _⟩ := h.owned t ht
  rw [At, hn, hp] at ha
  cases ha

/-- The other messages stay where they are when one is over. -/
theorem Wired.ended (h : x.Wired) (hp : x.passages[number]? = some ⟨m, .waiting c known⟩)
    (d : LocalAgents α) (turns : List (Turn α)) (reply : Except Fault String) :
    let y : Switchboard α := ⟨d, x.passages.set number ⟨m, .ended reply⟩, turns⟩
    (∀ n m' c' known', y.At n m' (.waiting c' known') → Reads x.turns m' c' known') ∧
      (∀ n m' text, y.At n m' (.ended (.ok text)) →
        n = number ∧ m' = m ∧ reply = .ok text ∨ x.At n m' (.ended (.ok text))) ∧
      ∀ t ∈ x.turns, ∃ m' text, y.At t.number m' (.ended (.ok text)) ∧ t.Answers m' text := by
  intro y
  refine ⟨fun n m' c' known' ha => ?_, fun n m' text ha => ?_, fun t ht => ?_⟩
  · rw [at_set hp] at ha
    split at ha
    · cases ha.2
    · exact h.waiting n m' c' known' ha
  · rw [at_set hp] at ha
    split at ha
    · next hn =>
      obtain ⟨rfl, he⟩ := ha
      exact Or.inl ⟨hn, rfl, (Stage.ended.inj he).symm⟩
    · exact Or.inr ha
  · obtain ⟨m', text, ha, hanswers⟩ := h.owned t ht
    refine ⟨m', text, (at_set hp).mpr ?_, hanswers⟩
    rwa [if_neg (h.number_ne hp t ht)]

/-- A message is over without a turn: it came to a fault, or it belongs to no session. -/
theorem Wired.unspoken (h : x.Wired) (hp : x.passages[number]? = some ⟨m, .waiting c known⟩)
    {reply : Except Fault String} (hreply : ∀ text, reply = .ok text → given? m.sessionKey = none) :
    Wired { x with passages := x.passages.set number ⟨m, .ended reply⟩ } := by
  obtain ⟨hwaiting, hends, howned⟩ := h.ended hp x.dispatcher x.turns reply
  refine ⟨h.stored, h.linked, hwaiting, fun n m' text ha hs => ?_, howned, h.nodup⟩
  rcases hends n m' text ha with ⟨_, rfl, he⟩ | ha
  · exact absurd (hreply text he) hs
  · exact h.replied n m' text ha hs

/-- A message is over with a turn, which is written down after what its message had read. -/
theorem Wired.spoken (h : x.Wired) (hp : x.passages[number]? = some ⟨m, .waiting c known⟩)
    {session : String} (hk : c.sessionKey = some session) (v : Json) :
    Wired ⟨{ x.dispatcher with
        histories := Table.put x.dispatcher.histories session (c.extended v) },
      x.passages.set number ⟨m, .ended (.ok v.plain)⟩, x.turns ++ [⟨number, c, v, known⟩]⟩ := by
  have hreads : Reads x.turns m c known := h.waiting number m c known hp
  have hanswers : Turn.Answers m v.plain (⟨number, c, v, known⟩ : Turn α) :=
    ⟨hreads.session, hreads.message, rfl⟩
  have hown : Turn.session? (⟨number, c, v, known⟩ : Turn α) = some session := hk
  obtain ⟨hwaiting, hends, howned⟩ := h.ended hp
    { x.dispatcher with histories := Table.put x.dispatcher.histories session (c.extended v) }
    (x.turns ++ [⟨number, c, v, known⟩]) (.ok v.plain)
  refine ⟨fun own => ?_, eachAfter_snoc.mpr ⟨h.linked, hreads.history⟩,
    fun n m' c' known' ha => (hwaiting n m' c' known' ha).snoc _, fun n m' text ha hs => ?_,
    fun t ht => ?_, ?_⟩
  · rw [Table.get?_put]
    by_cases ho : session = own
    · subst ho
      rw [if_pos rfl, Turn.latest?_snoc_self hown]
      rfl
    · have hother : Turn.session? (⟨number, c, v, known⟩ : Turn α) ≠ some own := fun he =>
        ho (Option.some.inj (hown.symm.trans he))
      rw [if_neg ho, Turn.latest?_snoc_of_ne hother]
      exact h.stored own
  · rcases hends n m' text ha with ⟨rfl, rfl, he⟩ | ha
    · cases he
      exact ⟨_, List.mem_append_right _ (List.mem_singleton_self _), rfl, hanswers⟩
    · obtain ⟨t, ht, hfound⟩ := h.replied n m' text ha hs
      exact ⟨t, List.mem_append_left _ ht, hfound⟩
  · rcases List.mem_append.mp ht with ht | ht
    · exact howned t ht
    · cases List.mem_singleton.mp ht
      exact ⟨m, v.plain, (at_set hp).mpr (by rw [if_pos rfl]; exact ⟨rfl, rfl⟩), hanswers⟩
  · rw [List.map_append, List.map_singleton]
    refine List.nodup_append.mpr ⟨h.nodup, by simp, fun a ha b hb he => ?_⟩
    obtain ⟨t, ht, rfl⟩ := List.mem_map.mp ha
    exact h.number_ne hp t ht (he.trans (List.mem_singleton.mp hb))

theorem Wired.arrive (h : x.Wired) (number : Nat) (run : AgentRun) :
    (x.step (.arrive number run)).Wired := by
  cases hp : x.passages[number]? with
  | none => simpa only [step, hp] using h
  | some passage =>
    obtain ⟨m, stage⟩ := passage
    cases stage with
    | ended reply => simpa only [step, hp] using h
    | waiting c known =>
      have hsession : c.sessionKey = given? m.sessionKey := (h.waiting number m c known hp).session
      simp only [step, hp]
      -- Whether the run is the agent's or a timeout makes no difference from here on.
      generalize (if c.expired then AgentRun.timeout else run) = run
      rcases x.dispatcher.finish_cases c run with ⟨f, hf, hrun⟩ | ⟨v, rfl, hk, hf⟩ | ⟨v, own, rfl, hk, hf⟩
      · have hturn : turn? number c known run = none := by
          cases run with
          | output v => exact absurd rfl (hrun v)
          | timeout => rfl
          | failed f => rfl
        rw [hf, hturn, Option.toList_none, List.append_nil]
        exact h.unspoken hp fun _ he => by cases he
      · have hturn : turn? number c known (.output v) = none := by rw [turn?, hk]; rfl
        rw [hf, hturn, Option.toList_none, List.append_nil]
        exact h.unspoken hp fun _ _ => hsession.symm.trans hk
      · have hturn : turn? number c known (.output v) = some ⟨number, c, v, known⟩ := by
          rw [turn?, hk]; rfl
        rw [hf, hturn, Option.toList_some]
        exact h.spoken hp hk v

theorem Wired.run (h : x.Wired) (events : List (Event α)) : (x.run events).Wired := by
  induction events generalizing x with
  | nil => exact h
  | cons event events ih =>
    cases event with
    | register id agent =>
      exact ih ⟨h.stored, h.linked, h.waiting, h.replied, h.owned, h.nodup⟩
    | send m => exact ih (h.send m)
    | arrive number run => exact ih (h.arrive number run)

/-- A message whose agent answers before anything else happens is dealt with as one that is sent by
itself. -/
theorem step_send_arrive (x : Switchboard α) (consult : Consultation α → σ → AgentRun × σ) (m : Message)
    (s : σ) :
    ∃ run, let r := x.dispatcher.send consult m s
      let y := (x.step (.send m)).step (.arrive x.passages.length run)
      y.dispatcher = r.1 ∧ y.passages = x.passages ++ [⟨m, .ended r.2.1⟩] := by
  cases hb : x.dispatcher.begin? m with
  | error f => exact ⟨.timeout, by simp [step, hb, LocalAgents.send]⟩
  | ok c =>
    refine ⟨(consult c s).1, ?_⟩
    cases he : c.expired with
    | true => simp [step, hb, LocalAgents.send, he]
    | false => simp [step, hb, LocalAgents.send, he]

/-- However messages overlap, each that belongs to a session and was replied to makes one turn, and no
others do. A history holds all turns of its session exactly if none of them was taken down while another
message of the session was on its way. -/
theorem histories_eq_allWords_iff (agents : Table α) (defaultId : Option String)
    (events : List (Event α)) :
    let x := (start agents defaultId).run events
    (x.turns.map Turn.number).Nodup ∧
      (∀ n m text, x.At n m (.ended (.ok text)) → given? m.sessionKey ≠ none →
        ∃ t ∈ x.turns, t.number = n ∧ t.Answers m text) ∧
      (∀ t ∈ x.turns, ∃ m text, x.At t.number m (.ended (.ok text)) ∧ t.Answers m text) ∧
      ∀ session, (Table.get? x.dispatcher.histories session).getD [] = Turn.allWords session x.turns ↔
        Turn.Apart session x.turns := by
  intro x
  have hwired : x.Wired := (wired_start agents defaultId).run events
  refine ⟨hwired.nodup, hwired.replied, hwired.owned, fun session => ?_⟩
  rw [hwired.stored]
  exact Turn.latest?_eq_allWords_iff hwired.linked session

/-- Two messages on one session, the second sent before the first is answered. -/
def overlapping : Switchboard Unit :=
  (start [("a", ())] none).run [.send (.sample "first"), .send (.sample "second"),
    .arrive 0 (.output (.str "A")), .arrive 1 (.output (.str "B"))]

/-- Both messages are replied to, and the turn of the first is lost. -/
theorem histories_overlapping :
    overlapping.At 0 (.sample "first") (.ended (.ok "A")) ∧
      overlapping.At 1 (.sample "second") (.ended (.ok "B")) ∧
      ∃ history, Table.get? overlapping.dispatcher.histories "s" = some history ∧
        Json.str "first" ∉ history ∧ Json.str "A" ∉ history := by
  refine ⟨rfl, rfl, [.str "second", .str "B"], rfl, ?_, ?_⟩ <;> simp

end Switchboard

end Conductor
