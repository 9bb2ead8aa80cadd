/-! Programs that ask questions of their surroundings. A program is either done or asks one question
and goes on with the answer; between two questions nothing else can happen. -/

namespace Conductor

inductive Program {Q : Type} (Answer : Q → Type) (α : Type) where
  | done (a : α)
  | ask (q : Q) (next : Answer q → Program Answer α)

namespace Program

variable {Q : Type} {Answer : Q → Type} {α β σ : Type}

/-- Runs one program and then the one that its result selects. -/
def bind : Program Answer α → (α → Program Answer β) → Program Answer β
  | .done a, f => f a
  | .ask q next, f => .ask q fun r => (next r).bind f

def map (f : α → β) (p : Program Answer α) : Program Answer β := p.bind fun a => .done (f a)

/-- Asks the questions of a narrower program under their names in a wider one. -/
def embed {P : Type} {Reply : P → Type} (name : P → Q)
    (cast : (p : P) → Answer (name p) → Reply p) : Program Reply α → Program Answer α
  | .done a => .done a
  | .ask p next => .ask (name p) fun r => (next (cast p r)).embed name cast

/-- Runs a program against surroundings that answer each question at once. -/
def run (answer : (q : Q) → σ → Answer q × σ) : Program Answer α → σ → α × σ
  | .done a, s => (a, s)
  | .ask q next, s => (next (answer q s).1).run answer (answer q s).2

@[simp] theorem bind_done (a : α) (f : α → Program Answer β) : (done a).bind f = f a := rfl

@[simp] theorem bind_ask (q : Q) (next : Answer q → Program Answer α)
    (f : α → Program Answer β) : (ask q next).bind f = ask q fun r => (next r).bind f := rfl

theorem run_bind (answer : (q : Q) → σ → Answer q × σ) (p : Program Answer α)
    (f : α → Program Answer β) (s : σ) :
    (p.bind f).run answer s = (f (p.run answer s).1).run answer (p.run answer s).2 := by
  induction p generalizing s with
  | done a => rfl
  | ask q next ih => exact ih _ _

end Program

end Conductor
