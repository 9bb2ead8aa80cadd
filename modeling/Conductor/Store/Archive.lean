import Conductor.Store.Rows

/-! Rows as one JSON value, in which a store outlasts a program. -/

namespace Conductor

open Reader

namespace RunRow

def toJson (row : RunRow) : Json := .obj [
  ("id", .str row.id), ("workflow_id", .str row.workflowId), ("status", .str row.status),
  ("current_step", row.currentStep), ("context", row.context),
  ("error", .ofText? row.error), ("started_at", .int row.startedAt),
  ("completed_at", optionToJson .int row.completedAt)]

def ofFields (fields : Table Source) : Checked RunRow :=
  RunRow.mk <$> required fields "id" text <*> required fields "workflow_id" text <*>
    required fields "status" text <*> required fields "current_step" any <*>
    required fields "context" any <*> optionalText fields "error" <*>
    required fields "started_at" integer <*>
    optional fields "completed_at" none (nullable integer)

end RunRow

namespace Rows

def toJson (s : Rows) : Json := .obj [
  ("definitions", .obj s.definitions), ("runs", .arr (s.runs.map RunRow.toJson))]

def ofFields (fields : Table Source) : Checked Rows :=
  Rows.mk <$> required fields "definitions" (dict any) <*>
    required fields "runs" (list (model RunRow.ofFields))

def ofJson (v : Json) : Checked Rows := model ofFields (.json v)

/-- The rows that a text holds; an empty text holds none. -/
def ofText (text : List Char) : Except Fault Rows :=
  if text = [] then .ok empty
  else
    match Json.parse text with
    | .ok v => (ofJson v).orFault
    | .error f => .error (.unreadable text f)

end Rows

end Conductor
