import Conductor.Rehearsal

/-! Work that nothing happens to but what it asks for. What it comes to, and what it leaves behind in the
store, is said for every way in which the world may answer it. -/

namespace Conductor

variable {α β : Type} {P : α → Office → Prop} {Q : β → Office → Prop} {o : Office}

namespace Work

/-- Whatever the world answers, the work comes to what `P` admits. The store answers as an office does. -/
def Leads (P : α → Office → Prop) : Work α → Office → Prop
  | .done a, o => P a o
  | .ask (.store c) next, o => Leads P (next (o.answer c).1) (o.answer c).2
  | .ask (.outside _) next, o => ∀ r, Leads P (next r) o

theorem Leads.bind {p : Work α} {f : α → Work β} (hp : p.Leads P o)
    (hf : ∀ a o, P a o → (f a).Leads Q o) : Leads Q (p.bind f) o := by
  induction p generalizing o with
  | done a => exact hf a o hp
  | ask q next ih =>
    cases q with
    | store c => exact ih _ hp
    | outside q => exact fun r => ih r (hp r)

theorem Leads.map {p : Work α} {f : α → β} (hp : p.Leads (fun a o => Q (f a) o) o) :
    Leads Q (p.map f) o :=
  hp.bind fun _ _ h => h

theorem Leads.mono {P' : α → Office → Prop} {p : Work α} (hp : p.Leads P o)
    (h : ∀ a o, P a o → P' a o) : p.Leads P' o := by
  induction p generalizing o with
  | done a => exact h a o hp
  | ask q next ih =>
    cases q with
    | store c => exact ih _ hp
    | outside q => exact fun r => ih r (hp r)

/-- An answer that is known is gone on with. -/
theorem leads_store {c : StoreCall} {next : c.Answer → Work α} {a : c.Answer} {u : Office}
    (hanswer : o.answer c = (a, u)) (h : (next a).Leads P u) :
    Leads P (.ask (.store c) next) o := by
  change Leads P (next (o.answer c).1) (o.answer c).2
  rw [hanswer]
  exact h

/-- Work that asks only the world leaves the store alone. -/
theorem leads_ofOutside (p : Program Outside.Answer α) (h : ∀ a, P a o) : Leads P (ofOutside p) o := by
  induction p with
  | done a => exact h a
  | ask q next ih => exact fun r => ih r

/-- Runs are only made, so that the numbers of runs go up. -/
theorem leads_le_created (p : Work α) (o : Office) : p.Leads (fun _ o' => o.created ≤ o'.created) o := by
  have hlead : ∀ n, n ≤ o.created → p.Leads (fun _ o' => n ≤ o'.created) o := by
    intro n hn
    induction p generalizing o with
    | done a => exact hn
    | ask q next ih =>
      cases q with
      | store c =>
        apply ih
        cases c with
        | createRun workflowId context => exact Nat.le_succ_of_le hn
        | _ => exact hn
      | outside q => exact fun r => ih r o hn
  exact hlead o.created (Nat.le_refl _)

end Work

namespace Rehearsal

/-- Nothing is laid out that would happen by itself: no mishap, and nobody who cancels runs. -/
structure Calm (s : Rehearsal) : Prop where
  mishaps : s.mishaps = []
  replies : s.replies = []
  cancelledWaits : s.cancelledWaits = []

variable {s : Rehearsal}

/-- The store answers as its office does. -/
theorem Calm.answerStore (h : s.Calm) (c : StoreCall) :
    (s.answer (.store c)).1 = (s.office.answer c).1 ∧
      (s.answer (.store c)).2.office = (s.office.answer c).2 ∧ (s.answer (.store c)).2.Calm := by
  cases c with
  | updateRun id change expected =>
    simp only [answer, Rehearsal.answerStore, update, h.mishaps, List.find?_nil]
    exact ⟨trivial, trivial, rfl, h.replies, h.cancelledWaits⟩
  | _ => exact ⟨rfl, rfl, h.mishaps, h.replies, h.cancelledWaits⟩

/-- The world answers without a change of the store. -/
theorem Calm.answerOutside (h : s.Calm) (q : Outside) :
    (s.answer (.outside q)).2.office = s.office ∧ (s.answer (.outside q)).2.Calm := by
  cases q with
  | send m =>
    simp only [answer, send, h.replies]
    exact ⟨trivial, h.mishaps, rfl, h.cancelledWaits⟩
  | request r =>
    simp only [answer, respond]
    split <;> exact ⟨rfl, h.mishaps, h.replies, h.cancelledWaits⟩
  | sleep seconds =>
    simp only [answer, sleep, h.cancelledWaits, List.contains_nil, Bool.false_eq_true, if_false]
    exact ⟨trivial, h.mishaps, h.replies, rfl⟩

/-- Work that is carried out in a calm world comes to what it leads to. -/
theorem Calm.perform (h : s.Calm) {work : Work α} (hw : work.Leads P s.office) :
    P (s.perform work).1 (s.perform work).2.office ∧ (s.perform work).2.Calm := by
  unfold Rehearsal.perform
  induction work generalizing s with
  | done a => exact ⟨hw, h⟩
  | ask q next ih =>
    cases q with
    | store c =>
      obtain ⟨hfst, hoffice, hcalm⟩ := h.answerStore c
      refine ih _ hcalm ?_
      rw [hfst, hoffice]
      exact hw
    | outside q =>
      obtain ⟨hoffice, hcalm⟩ := h.answerOutside q
      refine ih _ hcalm ?_
      rw [hoffice]
      exact hw _

end Rehearsal

end Conductor
