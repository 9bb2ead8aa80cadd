import Conductor.Json.Basic
import Conductor.Schema.Issue

/-! Validation results that gather every issue, not only the first. -/

namespace Conductor

inductive Checked (α : Type) where
  | ok (value : α)
  | bad (issues : List Issue)
deriving Repr

namespace Checked

variable {α β : Type}

def map (f : α → β) : Checked α → Checked β
  | .ok a => .ok (f a)
  | .bad issues => .bad issues

/-- Applies a checked function to a checked value; the issues of both are kept. -/
def both (f : Checked (α → β)) (x : Checked α) : Checked β :=
  match f, x with
  | .ok f, .ok a => .ok (f a)
  | .ok _, .bad issues => .bad issues
  | .bad issues, .ok _ => .bad issues
  | .bad issues, .bad more => .bad (issues ++ more)

instance : Functor Checked where
  map := map

instance : Pure Checked where
  pure := .ok

instance : Seq Checked where
  seq f x := both f (x ())

/-- Goes on only with a value that has no issues. -/
def andThen (x : Checked α) (f : α → Checked β) : Checked β :=
  match x with
  | .ok a => f a
  | .bad issues => .bad issues

def problem (p : Problem) : Checked α := .bad [⟨p, []⟩]

/-- Puts the place of a part in front of the issues found in the part. -/
def inside (p : Place) : Checked α → Checked α
  | .ok a => .ok a
  | .bad issues => .bad (issues.map (Issue.inside p))

def toOption : Checked α → Option α
  | .ok a => some a
  | .bad _ => none

@[simp] theorem map_ok (f : α → β) (a : α) : f <$> (Checked.ok a) = .ok (f a) := rfl

@[simp] theorem map_bad (f : α → β) (issues : List Issue) :
    f <$> (Checked.bad issues : Checked α) = .bad issues := rfl

@[simp] theorem seq_ok (f : α → β) (x : Checked α) : (Checked.ok f) <*> x = f <$> x := by
  cases x <;> rfl

@[simp] theorem seq_bad_ok (issues : List Issue) (a : α) :
    (Checked.bad issues : Checked (α → β)) <*> .ok a = .bad issues := rfl

@[simp] theorem seq_bad_bad (issues more : List Issue) :
    (Checked.bad issues : Checked (α → β)) <*> .bad more = .bad (issues ++ more) := rfl

@[simp] theorem inside_ok (p : Place) (a : α) : (Checked.ok a).inside p = .ok a := rfl

@[simp] theorem inside_bad (p : Place) (issues : List Issue) :
    (Checked.bad issues : Checked α).inside p = .bad (issues.map (Issue.inside p)) := rfl

end Checked

end Conductor
