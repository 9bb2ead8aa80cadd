import Conductor.Program

/-! Programs that keep to a rule, where what a program may ask next, and what it may come to, depends on
what it has asked and what it was answered; and programs that agree with one another. -/

namespace Conductor

/-- Questions with their answers, the oldest first. -/
abbrev Log {Q : Type} (Answer : Q → Type) := List ((q : Q) × Answer q)

/-- An entry of a list with one more at its end is this one, or it was there before. -/
theorem snoc_eq_append_cons {α : Type} {l before after : List α} {x y : α}
    (h : l ++ [x] = before ++ y :: after) :
    (after = [] ∧ l = before ∧ x = y) ∨ ∃ more, after = more ++ [x] ∧ l = before ++ y :: more := by
  rcases List.eq_nil_or_concat after with rfl | ⟨more, z, rfl⟩
  · obtain ⟨hl, hx⟩ := List.append_inj' h rfl
    exact Or.inl ⟨rfl, hl, List.singleton_inj.mp hx⟩
  · rw [List.concat_eq_append] at h ⊢
    obtain ⟨hl, hx⟩ := List.append_inj' (h.trans (List.append_assoc before (y :: more) [z]).symm) rfl
    obtain rfl := List.singleton_inj.mp hx
    exact Or.inr ⟨more, rfl, hl⟩

namespace Program

variable {Q : Type} {Answer : Q → Type} {α β : Type}
variable {allows : Log Answer → Q → Prop} {mid : Log Answer → α → Prop} {ends : Log Answer → β → Prop}

/-- After `log` a program asks what `allows` allows, whatever it is answered, and it comes to what `ends`
admits. -/
def KeepsTo (allows : Log Answer → Q → Prop) (ends : Log Answer → α → Prop) :
    Log Answer → Program Answer α → Prop
  | log, .done a => ends log a
  | log, .ask q next => allows log q ∧ ∀ r, (next r).KeepsTo allows ends (log ++ [⟨q, r⟩])

theorem KeepsTo.bind {log : Log Answer} {p : Program Answer α} {f : α → Program Answer β}
    (hp : p.KeepsTo allows mid log)
    (hf : ∀ log a, mid log a → (f a).KeepsTo allows ends log) :
    (p.bind f).KeepsTo allows ends log := by
  -- by induction on the program: the log grows by each answer
  induction p generalizing log with
  | done a => exact hf log a hp
  | ask q next ih => exact ⟨hp.1, fun r => ih r (hp.2 r)⟩

theorem KeepsTo.map {log : Log Answer} {p : Program Answer α} {f : α → β}
    (hp : p.KeepsTo allows (fun log a => ends log (f a)) log) : (p.map f).KeepsTo allows ends log :=
  hp.bind fun _ _ h => h

theorem KeepsTo.mono {ends : Log Answer → α → Prop} {log : Log Answer} {p : Program Answer α}
    (hp : p.KeepsTo allows mid log) (h : ∀ log a, mid log a → ends log a) :
    p.KeepsTo allows ends log := by
  induction p generalizing log with
  | done a => exact h log a hp
  | ask q next ih => exact ⟨hp.1, fun r => ih r (hp.2 r)⟩

theorem KeepsTo.mono_allows {allows' : Log Answer → Q → Prop} {log : Log Answer} {p : Program Answer α}
    (hp : p.KeepsTo allows mid log) (h : ∀ log q, allows log q → allows' log q) :
    p.KeepsTo allows' mid log := by
  induction p generalizing log with
  | done a => exact hp
  | ask q next ih => exact ⟨h log q hp.1, fun r => ih r (hp.2 r)⟩

/-- Where everything is allowed, every program keeps to the rule. -/
theorem keepsTo_of_forall (ha : ∀ log q, allows log q) (he : ∀ log a, mid log a) (log : Log Answer)
    (p : Program Answer α) : p.KeepsTo allows mid log := by
  induction p generalizing log with
  | done a => exact he log a
  | ask q next ih => exact ⟨ha log q, fun r => ih r _⟩

/-- What was asked before stays at the beginning of what is asked in all. -/
theorem KeepsTo.extends {log : Log Answer} {p : Program Answer α} (hp : p.KeepsTo allows mid log) :
    p.KeepsTo allows (fun log' a => mid log' a ∧ log <+: log') log := by
  induction p generalizing log with
  | done a => exact ⟨hp, List.prefix_refl log⟩
  | ask q next ih =>
    refine ⟨hp.1, fun r => (ih r (hp.2 r)).mono fun log' a h => ⟨h.1, ?_⟩⟩
    exact (List.prefix_append log [⟨q, r⟩]).trans h.2

theorem keepsTo_embed {P : Type} {Reply : P → Type} {name : P → Q}
    {cast : (p : P) → Answer (name p) → Reply p} {inv : Log Answer → Prop}
    (ha : ∀ log p, inv log → allows log (name p))
    (hi : ∀ log p r, inv log → inv (log ++ [⟨name p, r⟩]))
    {log : Log Answer} (h : inv log) (p : Program Reply α) :
    (p.embed name cast).KeepsTo allows (fun log _ => inv log) log := by
  induction p generalizing log with
  | done a => exact h
  | ask q next ih => exact ⟨ha log q h, fun r => ih _ (hi log q r h)⟩

theorem bind_assoc {γ : Type} (p : Program Answer α) (f : α → Program Answer β)
    (g : β → Program Answer γ) : (p.bind f).bind g = p.bind fun a => (f a).bind g := by
  induction p with
  | done a => rfl
  | ask q next ih => exact congrArg (ask q) (funext ih)

/-- Two programs ask the same questions in the same order, whatever they are answered, and come to related
ends. -/
inductive Agrees (rel : α → β → Prop) : Program Answer α → Program Answer β → Prop
  | done {a : α} {b : β} (h : rel a b) : Agrees rel (.done a) (.done b)
  | ask (q : Q) {next : Answer q → Program Answer α} {next' : Answer q → Program Answer β}
    (h : ∀ r, Agrees rel (next r) (next' r)) : Agrees rel (.ask q next) (.ask q next')

theorem Agrees.bind {γ δ : Type} {rel : α → β → Prop} {rel' : γ → δ → Prop} {p : Program Answer α}
    {p' : Program Answer β} {f : α → Program Answer γ} {f' : β → Program Answer δ}
    (h : p.Agrees rel p') (hf : ∀ a b, rel a b → (f a).Agrees rel' (f' b)) :
    (p.bind f).Agrees rel' (p'.bind f') := by
  induction h with
  | done h => exact hf _ _ h
  | ask q _ ih => exact .ask q ih

/-- Programs that agree with the same one agree with each other. -/
theorem Agrees.meet {γ : Type} {rel : α → γ → Prop} {rel' : β → γ → Prop} {p : Program Answer α}
    {p' : Program Answer β} {p'' : Program Answer γ} (h : p.Agrees rel p'') (h' : p'.Agrees rel' p'') :
    p.Agrees (fun a b => ∃ c, rel a c ∧ rel' b c) p' := by
  induction h generalizing p' with
  | done h =>
    cases h' with
    | done h' => exact .done ⟨_, h, h'⟩
  | ask q _ ih =>
    cases h' with
    | ask _ h' => exact .ask q fun r => ih r (h' r)

theorem Agrees.mono {rel rel' : α → β → Prop} {p : Program Answer α} {p' : Program Answer β}
    (h : p.Agrees rel p') (hrel : ∀ a b, rel a b → rel' a b) : p.Agrees rel' p' := by
  induction h with
  | done h => exact .done (hrel _ _ h)
  | ask q _ ih => exact .ask q ih

/-- Against the same surroundings they come to related ends. -/
theorem Agrees.run {σ : Type} {rel : α → β → Prop} {p : Program Answer α} {p' : Program Answer β}
    (h : p.Agrees rel p') (answer : (q : Q) → σ → Answer q × σ) (s : σ) :
    rel (p.run answer s).1 (p'.run answer s).1 := by
  induction h generalizing s with
  | done h => exact h
  | ask q _ ih => exact ih _ _

theorem agrees_refl (p : Program Answer α) : p.Agrees (fun a b => a = b) p := by
  induction p with
  | done a => exact .done rfl
  | ask q next ih => exact .ask q ih

end Program

namespace Log

variable {Q : Type} {Answer : Q → Type} {allows : Log Answer → Q → Prop}

/-- Each question was allowed when it was asked. -/
inductive Allowed (allows : Log Answer → Q → Prop) : Log Answer → Prop
  | nil : Allowed allows []
  | snoc {log : Log Answer} {q : Q} (r : Answer q) (h : Allowed allows log) (hq : allows log q) :
    Allowed allows (log ++ [⟨q, r⟩])

/-- A question of a log was allowed after some earlier part of the log. -/
theorem Allowed.exists_before {log : Log Answer} (h : Allowed allows log) {x : (q : Q) × Answer q}
    (hx : x ∈ log) : ∃ before, before <+: log ∧ allows before x.1 := by
  induction h with
  | nil => cases hx
  | @snoc log q r _ hq ih =>
    rcases List.mem_append.mp hx with hx | hx
    · obtain ⟨before, hb, ha⟩ := ih hx
      exact ⟨before, hb.trans (List.prefix_append _ _), ha⟩
    · obtain rfl := List.mem_singleton.mp hx
      exact ⟨log, List.prefix_append _ _, hq⟩

theorem Allowed.mono {allows' : Log Answer → Q → Prop} {log : Log Answer} (h : Allowed allows log)
    (ha : ∀ log q, allows log q → allows' log q) : Allowed allows' log := by
  induction h with
  | nil => exact .nil
  | snoc r _ hq ih => exact .snoc r ih (ha _ _ hq)

/-- Where a log is split, what was asked there was allowed after what stands before it. -/
theorem Allowed.split {log before after : Log Answer} {x : (q : Q) × Answer q} (h : Allowed allows log)
    (hl : log = before ++ x :: after) : Allowed allows before ∧ allows before x.1 := by
  induction h generalizing after with
  | nil => exact absurd hl.symm (List.append_ne_nil_of_right_ne_nil _ (List.cons_ne_nil _ _))
  | @snoc log q r h hq ih =>
    rcases snoc_eq_append_cons hl with ⟨_, rfl, rfl⟩ | ⟨more, _, hlog⟩
    · exact ⟨h, hq⟩
    · exact ih hlog

end Log

end Conductor
