import Conductor.Dispatch.Gateway
import Conductor.Proofs.Dispatch.Sessions
import Mathlib.Data.List.Induction
import Mathlib.Logic.Function.Iterate

/-! The HTTP clients of a dispatcher while messages are sent and clients closed in any order. What is done with
clients is written down in their history: which of them are open, and what may be done next, is read off it. -/

namespace Conductor

namespace Handling

variable {h : List Handling} {k l : Client}

/-- A client is open that was opened and has not been closed. -/
def IsOpen (h : List Handling) (k : Client) : Prop := .opened k ∈ h ∧ .closed k ∉ h

/-- What may be done after all that was done before: a new client is opened while no other is open, and only
an open one is used or closed. -/
def MayFollow (before : List Handling) : Handling → Prop
  | .opened k => .opened k ∉ before ∧ ∀ l, ¬ IsOpen before l
  | .used k => IsOpen before k
  | .closed k => IsOpen before k

theorem opened_of_closed (hp : EachAfter MayFollow h) (hk : .closed k ∈ h) : .opened k ∈ h := by
  obtain ⟨before, after, rfl⟩ := List.append_of_mem hk
  exact List.mem_append_left _ (hp before _ after rfl).1

theorem isOpen_snoc_opened (hp : EachAfter MayFollow h) (hl : .opened l ∉ h) :
    IsOpen (h ++ [.opened l]) k ↔ IsOpen h k ∨ k = l := by
  have hnew : .closed l ∉ h := fun hc => hl (opened_of_closed hp hc)
  constructor
  · rintro ⟨ho, hc⟩
    rcases List.mem_append.mp ho with ho | ho
    · exact .inl ⟨ho, fun hm => hc (List.mem_append_left _ hm)⟩
    · exact .inr (Handling.opened.inj (List.mem_singleton.mp ho))
  · rintro (⟨ho, hc⟩ | rfl)
    · exact ⟨List.mem_append_left _ ho, by simpa using hc⟩
    · exact ⟨List.mem_append_right _ List.mem_cons_self, by simpa using hnew⟩

theorem isOpen_snoc_used : IsOpen (h ++ [.used l]) k ↔ IsOpen h k := by
  simp [IsOpen]

theorem isOpen_snoc_closed : IsOpen (h ++ [.closed l]) k ↔ IsOpen h k ∧ k ≠ l := by
  simp [IsOpen, and_assoc]

/-- No two clients are open. -/
theorem eq_of_isOpen (hp : EachAfter MayFollow h) (hk : IsOpen h k) (hl : IsOpen h l) : k = l := by
  -- on the history from its end: no other is open when a client is opened
  induction h using List.reverseRecOn with
  | nil => cases hk.1
  | append_singleton h e ih =>
    obtain ⟨hbefore, he⟩ := eachAfter_snoc.mp hp
    cases e with
    | opened x =>
      rw [isOpen_snoc_opened hbefore he.1] at hk hl
      exact (hk.resolve_left (he.2 k)).trans (hl.resolve_left (he.2 l)).symm
    | used x => exact ih hbefore (isOpen_snoc_used.mp hk) (isOpen_snoc_used.mp hl)
    | closed x => exact ih hbefore (isOpen_snoc_closed.mp hk).1 (isOpen_snoc_closed.mp hl).1

/-- No client is opened again or closed again. -/
theorem count_le_one {e : Handling} (hp : EachAfter MayFollow h)
    (hnew : ∀ before, MayFollow before e → e ∉ before) : h.count e ≤ 1 := by
  induction h using List.reverseRecOn with
  | nil => exact Nat.zero_le 1
  | append_singleton h x ih =>
    obtain ⟨hbefore, hx⟩ := eachAfter_snoc.mp hp
    rw [List.count_append]
    by_cases he : x = e
    · -- what may be done only for the first time was not done before
      subst he
      have hold : h.count x = 0 := List.count_eq_zero.mpr (hnew h hx)
      have hself : [x].count x = 1 := List.count_singleton_self
      omega
    · have hother : [x].count e = 0 := List.count_eq_zero.mpr fun hm => he (List.mem_singleton.mp hm).symm
      have hold : h.count e ≤ 1 := ih hbefore
      omega

theorem count_opened_le_one (hp : EachAfter MayFollow h) (k : Client) : h.count (.opened k) ≤ 1 :=
  count_le_one hp fun _ hk => hk.1

theorem count_closed_le_one (hp : EachAfter MayFollow h) (k : Client) : h.count (.closed k) ≤ 1 :=
  count_le_one hp fun _ hk => hk.2

/-- The clients that were opened have the numbers below that of the next one. -/
def Numbered (h : List Handling) : Prop := ∀ k, .opened k ∈ h → ∃ n < h.countP isOpening, k = .own n

theorem Numbered.next (hn : Numbered h) : .opened (.own (h.countP isOpening)) ∉ h := by
  intro hopened
  obtain ⟨n, hlt, he⟩ := hn _ hopened
  obtain rfl := Client.own.inj he
  exact Nat.lt_irrefl _ hlt

theorem Numbered.snoc (hn : Numbered h) {e : Handling}
    (he : ∀ k, e = .opened k → k = .own (h.countP isOpening)) : Numbered (h ++ [e]) := by
  intro k hk
  rw [List.countP_append]
  rcases List.mem_append.mp hk with hk | hk
  · obtain ⟨n, hlt, hown⟩ := hn k hk
    exact ⟨n, Nat.lt_add_right _ hlt, hown⟩
  · obtain rfl := List.mem_singleton.mp hk
    exact ⟨h.countP isOpening, Nat.lt_succ_self _, he k rfl⟩

end Handling

namespace Clients

open Handling (IsOpen MayFollow)

variable {σ α : Type} {c : Clients} {k : Client} {g : Gateway} {s : σ}
variable {answer : (q : Outside) → σ → q.Answer × σ}

/-! ### One thing after the other -/

theorem take_of_some (h : c.atHand = some k) : c.take = (k, c) := by
  simp only [take, h]

theorem take_of_none (h : c.atHand = none) :
    c.take = (.own c.opened,
      ⟨some (.own c.opened), c.owned, c.history ++ [.opened (.own c.opened)]⟩) := by
  simp only [take, h]

theorem use_of_some (h : c.atHand = some k) : c.use = ⟨c.atHand, c.owned, c.history ++ [.used k]⟩ := by
  simp only [use, take_of_some h]

theorem close_of_some (h : c.atHand = some k) (ho : c.owned = true) :
    c.close = ⟨none, c.owned, c.history ++ [.closed k]⟩ := by
  simp only [close, h, ho]

theorem close_of_none (h : c.atHand = none) : c.close = c := by
  simp only [close, h]

theorem atHand_take (c : Clients) : c.take.2.atHand = some c.take.1 := by
  cases h : c.atHand with
  | none => rw [take_of_none h]
  | some k => rw [take_of_some h, h]

theorem owned_take (c : Clients) : c.take.2.owned = c.owned := by
  cases h : c.atHand with
  | none => rw [take_of_none h]
  | some k => rw [take_of_some h]

theorem iterate_use (h : c.atHand = some k) (n : Nat) :
    use^[n] c = ⟨c.atHand, c.owned, c.history ++ List.replicate n (.used k)⟩ := by
  induction n generalizing c with
  | zero => simp
  | succ n ih =>
    have hhand : c.use.atHand = some k := by rw [use_of_some h, h]
    rw [Function.iterate_succ_apply, ih hhand, use_of_some h]
    simp [List.replicate_succ]

/-! ### Messages and closings -/

/-- What is asked of a dispatcher. -/
inductive Demand where
  | send (m : Message)
  | close

/-- Sends a message and sees to its errand. -/
def deliver (c : Clients) (g : Gateway) (m : Message) :
    Program Outside.Answer (Except Fault String × Clients) :=
  (c.send g m).1.carry (c.send g m).2

/-- Meets demands one after the other. -/
def meet (g : Gateway) : Clients → List Demand → Program Outside.Answer Clients
  | c, [] => .done c
  | c, .send m :: demands => (c.deliver g m).bind fun r => meet g r.2 demands
  | c, .close :: demands => meet g c.close demands

/-- How many requests an errand makes when it is answered in this way. -/
def requests (answer : (q : Outside) → σ → q.Answer × σ) : Errand α → σ → Nat
  | .done _, _ => 0
  | .ask (.request r) next, s =>
    requests answer (next (answer (.request r) s).1) (answer (.request r) s).2 + 1
  | .ask (.send m) next, s => requests answer (next (answer (.send m) s).1) (answer (.send m) s).2
  | .ask (.sleep seconds) next, s =>
    requests answer (next (answer (.sleep seconds) s).1) (answer (.sleep seconds) s).2

/-- Clients make the requests of an errand, and change nothing about what it comes to. -/
theorem run_carry (e : Errand α) (c : Clients) (s : σ) :
    (c.carry e).run answer s =
      (((e.run answer s).1, use^[requests answer e s] c), (e.run answer s).2) := by
  -- by induction on the errand: the clients change with a request, the world with every answer
  induction e generalizing c s with
  | done reply => rfl
  | ask q next ih =>
    cases q with
    | request r => exact ih (answer (.request r) s).1 c.use (answer (.request r) s).2
    | send m => exact ih (answer (.send m) s).1 c (answer (.send m) s).2
    | sleep seconds => exact ih (answer (.sleep seconds) s).1 c (answer (.sleep seconds) s).2

/-- A message leaves the clients as they were when it was begun, but for the requests that it makes: all of
them with the client that was at hand then. -/
theorem run_deliver (answer : (q : Outside) → σ → q.Answer × σ) (c : Clients) (g : Gateway) (m : Message)
    (s : σ) :
    ∃ k, (c.send g m).1.atHand = some k ∧
      (c.deliver g m).run answer s =
        ((((g.send m).run answer s).1,
            ⟨some k, c.owned, (c.send g m).1.history ++
              List.replicate (requests answer (g.send m) s) (.used k)⟩),
          ((g.send m).run answer s).2) := by
  have hhand : c.take.2.atHand = some c.take.1 := c.atHand_take
  refine ⟨c.take.1, hhand, ?_⟩
  rw [deliver, run_carry]
  change ((_, use^[requests answer (g.send m) s] c.take.2), _) = _
  rw [iterate_use hhand, hhand, owned_take]
  rfl

/-- What clients keep when they are taken, used and closed, they keep whatever is asked of them. -/
theorem keeps_meet {P : Clients → Prop} (htake : ∀ c, P c → P c.take.2) (huse : ∀ c, P c → P c.use)
    (hclose : ∀ c, P c → P c.close) (hc : P c) (demands : List Demand) :
    P ((meet g c demands).run answer s).1 := by
  induction demands generalizing c s with
  | nil => exact hc
  | cons demand demands ih =>
    cases demand with
    | close => exact ih (hclose c hc)
    | send m =>
      -- a message takes a client, and uses it as often as it makes a request
      have hafter : P (use^[requests answer (g.send m) s] c.take.2) :=
        Function.Iterate.rec P (htake c hc) huse _
      rw [meet, Program.run_bind, deliver, run_carry]
      exact ih hafter

/-! ### Clients of its own -/

/-- A dispatcher keeps its own clients in order: the one at hand is the only one that is open. -/
structure Tidy (c : Clients) : Prop where
  owned : c.owned = true
  follows : EachAfter MayFollow c.history
  isOpen_iff : ∀ k, IsOpen c.history k ↔ c.atHand = some k
  numbered : Handling.Numbered c.history

theorem tidy_start : (start false).Tidy where
  owned := rfl
  follows := eachAfter_nil
  isOpen_iff _ := iff_of_false (fun h => List.not_mem_nil h.1) (fun h => nomatch h)
  numbered _ hk := absurd hk List.not_mem_nil

theorem Tidy.not_isOpen (h : c.Tidy) (hhand : c.atHand = none) (l : Client) : ¬ IsOpen c.history l := by
  rw [h.isOpen_iff, hhand]
  exact nofun

theorem Tidy.take (h : c.Tidy) : c.take.2.Tidy := by
  cases hhand : c.atHand with
  | some k => rwa [take_of_some hhand]
  | none =>
    have hnew : .opened (.own c.opened) ∉ c.history := h.numbered.next
    have hfollows : MayFollow c.history (.opened (.own c.opened)) := ⟨hnew, h.not_isOpen hhand⟩
    rw [take_of_none hhand]
    refine ⟨h.owned, eachAfter_snoc.mpr ⟨h.follows, hfollows⟩, ?_, ?_⟩
    · -- none was open, so the new one is the only one
      intro k
      rw [Handling.isOpen_snoc_opened h.follows hnew, or_iff_right (h.not_isOpen hhand k), Option.some_inj,
        eq_comm]
    · exact h.numbered.snoc fun _ he => (Handling.opened.inj he).symm

theorem Tidy.use (h : c.Tidy) : c.use.Tidy := by
  have htaken : c.take.2.Tidy := h.take
  have hopen : IsOpen c.take.2.history c.take.1 := (htaken.isOpen_iff _).mpr c.atHand_take
  refine ⟨htaken.owned, eachAfter_snoc.mpr ⟨htaken.follows, hopen⟩, ?_, ?_⟩
  · intro k
    exact Handling.isOpen_snoc_used.trans (htaken.isOpen_iff k)
  · exact htaken.numbered.snoc nofun

theorem Tidy.close (h : c.Tidy) : c.close.Tidy := by
  cases hhand : c.atHand with
  | none => rwa [close_of_none hhand]
  | some k =>
    have hopen : IsOpen c.history k := (h.isOpen_iff k).mpr hhand
    rw [close_of_some hhand h.owned]
    refine ⟨h.owned, eachAfter_snoc.mpr ⟨h.follows, hopen⟩, ?_, ?_⟩
    · intro l
      rw [Handling.isOpen_snoc_closed]
      -- the only one that was open is the one that is closed
      refine iff_of_false ?_ nofun
      rintro ⟨hl, hne⟩
      exact hne (Handling.eq_of_isOpen h.follows hl hopen)
    · exact h.numbered.snoc nofun

/-- After a closing nothing is at hand. -/
theorem Tidy.atHand_close (h : c.Tidy) : c.close.atHand = none := by
  cases hhand : c.atHand with
  | none => rw [close_of_none hhand, hhand]
  | some k => rw [close_of_some hhand h.owned]

theorem Tidy.close_of_forall (h : c.Tidy) (hnone : ∀ k, ¬ IsOpen c.history k) : c.close = c := by
  apply close_of_none
  rw [Option.eq_none_iff_forall_ne_some]
  intro k hk
  exact hnone k ((h.isOpen_iff k).mpr hk)

/-- A message that is sent when nothing is at hand is sent with a client that is new. -/
theorem Tidy.deliver_of_none (h : c.Tidy) (hhand : c.atHand = none) (g : Gateway) (m : Message) (s : σ) :
    ∃ k, .opened k ∉ c.history ∧
      (c.deliver g m).run answer s =
        ((((g.send m).run answer s).1,
            ⟨some k, true, c.history ++
              .opened k :: List.replicate (requests answer (g.send m) s) (.used k)⟩),
          ((g.send m).run answer s).2) := by
  have htake : (c.send g m).1 = _ := congrArg Prod.snd (take_of_none hhand)
  obtain ⟨k, hk, hrun⟩ := run_deliver answer c g m s
  rw [htake] at hk hrun
  obtain rfl := Option.some.inj hk
  refine ⟨.own c.opened, h.numbered.next, ?_⟩
  rw [hrun, h.owned, List.append_assoc]
  rfl

/-! ### A client that was given -/

/-- The client that was given is at hand for good, and is used only. -/
def Lent (c : Clients) : Prop := ∃ n, c = ⟨some .given, false, List.replicate n (.used .given)⟩

theorem lent_start : (start true).Lent := ⟨0, rfl⟩

theorem Lent.take (h : c.Lent) : c.take.2.Lent := by
  obtain ⟨n, rfl⟩ := h
  exact ⟨n, rfl⟩

theorem Lent.use (h : c.Lent) : c.use.Lent := by
  obtain ⟨n, rfl⟩ := h
  refine ⟨n + 1, ?_⟩
  rw [use_of_some rfl, List.replicate_succ']

theorem Lent.close (h : c.Lent) : c.close.Lent := by
  obtain ⟨n, rfl⟩ := h
  exact ⟨n, rfl⟩

/-- However messages and closings follow one another, and whatever comes of them: of its own clients a
dispatcher never has two open, opens none a second time, closes none a second time, and uses none but while
it is open; after a closing none is open, a closing when none is open changes nothing, and a message that is
sent after a closing comes to what it would come to anyway, all of its requests being made with a client that
was never opened before. A client that was given is used, and nothing else is done with any client. -/
theorem opened_and_closed_once (g : Gateway) (answer : (q : Outside) → σ → q.Answer × σ) (s : σ)
    (demands : List Demand) :
    (∃ c s', (meet g (start false) demands).run answer s = (c, s') ∧
      (∀ h, h <+: c.history → ∀ k l, IsOpen h k → IsOpen h l → k = l) ∧
      (∀ k, c.history.count (.opened k) ≤ 1 ∧ c.history.count (.closed k) ≤ 1) ∧
      (∀ before k after, c.history = before ++ .used k :: after → IsOpen before k) ∧
      (∀ k, ¬ IsOpen c.close.history k) ∧
      ((∀ k, ¬ IsOpen c.history k) → c.close = c) ∧
      ∀ m, ∃ k, .opened k ∉ c.close.history ∧
        (c.close.deliver g m).run answer s' =
          ((((g.send m).run answer s').1,
              ⟨some k, true, c.close.history ++
                .opened k :: List.replicate (requests answer (g.send m) s') (.used k)⟩),
            ((g.send m).run answer s').2)) ∧
    ∃ n, ((meet g (start true) demands).run answer s).1 =
      ⟨some .given, false, List.replicate n (.used .given)⟩ := by
  constructor
  · have htidy : ((meet g (start false) demands).run answer s).1.Tidy :=
      keeps_meet (fun _ h => h.take) (fun _ h => h.use) (fun _ h => h.close) tidy_start demands
    generalize hrun : (meet g (start false) demands).run answer s = r at htidy
    refine ⟨r.1, r.2, rfl, ?_, ?_, ?_, ?_, htidy.close_of_forall, ?_⟩
    · intro h hprefix k l hk hl
      have hfollows : EachAfter MayFollow h := List.prefix_iff_eq_take.mp hprefix ▸ htidy.follows.take _
      exact Handling.eq_of_isOpen hfollows hk hl
    · intro k
      exact ⟨Handling.count_opened_le_one htidy.follows k, Handling.count_closed_le_one htidy.follows k⟩
    · intro before k after he
      exact htidy.follows before _ after he
    · exact htidy.close.not_isOpen htidy.atHand_close
    · intro m
      exact htidy.close.deliver_of_none htidy.atHand_close g m r.2
  · exact keeps_meet (fun _ h => h.take) (fun _ h => h.use) (fun _ h => h.close) lent_start demands

/-- A world in which every request is answered. -/
def replying : (q : Outside) → Unit → q.Answer × Unit
  | .send _, s => (.ok "done", s)
  | .request _, s => (.ok ⟨200, "done"⟩, s)
  | .sleep _, s => (.ok (), s)

example : ((meet ⟨"http://g", none, .int 0, .int 1⟩ (start false)
    [.close, .send (.sample "hi"), .send (.sample "hi"), .close, .send (.sample "hi")]).run
      replying ()).1.history =
    [.opened (.own 0), .used (.own 0), .used (.own 0), .closed (.own 0), .opened (.own 1),
      .used (.own 1)] := by
  rfl

end Clients

end Conductor
