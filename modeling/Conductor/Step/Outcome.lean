import Conductor.Json.Basic

/-! What comes out of one step. -/

namespace Conductor

structure Outcome where
  success : Bool
  /-- Null for none. -/
  output : Json
  error : Option String
  /-- The id of the step to go to, if the step chose one. -/
  next : Option String

namespace Outcome

def ok (output : Json) (next : Option String) : Outcome := ⟨true, output, none, next⟩

def fail (error : String) : Outcome := ⟨false, .null, some error, none⟩

/-- A failure that shows what there is to see. -/
def failWith (error : String) (output : Json) : Outcome := ⟨false, output, some error, none⟩

end Outcome

end Conductor
