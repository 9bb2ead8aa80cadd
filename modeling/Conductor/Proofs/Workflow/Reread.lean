import Conductor.Proofs.Workflow.Equal
import Conductor.Proofs.Workflow.Lookup

/-! Definitions that are written down and read again. All that changes is the default duration of a delay,
which is an integer before and the same double afterwards. -/

namespace Conductor

/-- The number as a double, where there is one. -/
def Number.asDouble : Number → Number
  | .int n => (Decimal.ofInt? n).elim (.int n) .double
  | .double x => .double x

def Action.reread : Action → Action
  | .delay c => .delay ⟨c.durationMs.asDouble⟩
  | a => a

def Step.reread (s : Step) : Step := { s with action := s.action.reread }

/-- What is read of a definition that was written down. -/
def Workflow.reread (w : Workflow) : Workflow :=
  { w with
    steps := w.steps.map Step.reread
    ids_nodup := by
      have h : (w.steps.map Step.reread).map Step.id = w.steps.map Step.id := by
        simp [Step.reread, Function.comp_def]
      exact h ▸ w.ids_nodup }

section Fields

variable {α : Type} {fields : Table Json} {key : String} {v : Json} {r : Reader α} {a : α}

theorem optional_of_get? {default : α} (h : Table.get? fields key = some v) (hr : r (.json v) = .ok a) :
    optional (fields.map fun e => (e.1, .json e.2)) key default r = .ok a := by
  unfold optional
  rw [Table.get?_map, h]
  exact Checked.inside_eq_ok.mpr hr

theorem optionalText_ofText? {s : Option String} (h : Table.get? fields key = some (.ofText? s)) :
    optionalText (fields.map fun e => (e.1, .json e.2)) key = .ok s :=
  optional_of_get? h (by cases s <;> rfl)

end Fields

namespace Reader

theorem dict_text {t : Table String} (h : (Table.keys t).Nodup) :
    dict text (.json (textsToJson t)) = .ok t :=
  (dict_obj Json.str id h fun _ _ => rfl).trans (congrArg Checked.ok (List.map_id' t))

theorem dict_any {t : Table Json} (h : (Table.keys t).Nodup) : dict any (.json (.obj t)) = .ok t := by
  have hread := dict_obj (r := any) id id h fun _ _ => rfl
  have hsame : (t.map fun e => (e.1, id e.2)) = t := List.map_id' t
  rwa [hsame] at hread

end Reader

theorem Delay.duration_toJson {d : Delay} (h : d.Valid) :
    duration (.json d.durationMs.toJson) = .ok d.durationMs.asDouble := by
  rcases h with rfl | ⟨x, rfl, hx⟩
  · rfl
  · exact if_pos hx

theorem Webhook.model_toJson {c : Webhook} (h : (Table.keys c.headers).Nodup) :
    Reader.model ofFields (.json c.toJson) = .ok c := by
  rw [Webhook.toJson, Reader.model_obj]
  refine Checked.seq_eq_ok.mpr ⟨Webhook.mk c.url c.method c.headers, c.body, ?_, rfl, rfl⟩
  refine Checked.seq_eq_ok.mpr
    ⟨Webhook.mk c.url c.method, c.headers, ?_, optional_of_get? rfl (Reader.dict_text h), rfl⟩
  refine Checked.seq_eq_ok.mpr ⟨Webhook.mk c.url, c.method, ?_, rfl, rfl⟩
  exact Checked.map_eq_ok.mpr ⟨c.url, optionalText_ofText? rfl, rfl⟩

namespace Action

variable {a : Action}

theorem kind_reread (a : Action) : a.reread.kind = a.kind := by
  cases a <;> rfl

/-- The settings of a step are read back. -/
theorem ofConfig_toJson (h : a.Valid) : ofConfig a.kind (.json a.toJson) = .ok a.reread := by
  cases a with
  | agentCall c =>
    obtain ⟨agentId, sessionKey, message, timeout⟩ := c
    cases agentId <;> cases sessionKey <;> cases message <;> rfl
  | condition c =>
    obtain ⟨expression, onTrue, onFalse⟩ := c
    cases expression <;> cases onTrue <;> cases onFalse <;> rfl
  | transform c =>
    obtain ⟨mappings⟩ := c
    cases mappings with
    | none => rfl
    | some t =>
      have hread : (Reader.nullable (Reader.dict Reader.text)) (.json (textsToJson t)) = .ok (some t) :=
        Checked.map_eq_ok.mpr ⟨t, Reader.dict_text (h t rfl), rfl⟩
      refine Checked.map_eq_ok.mpr ⟨⟨some t⟩, ?_, rfl⟩
      exact Checked.map_eq_ok.mpr ⟨some t, Checked.inside_eq_ok.mpr hread, rfl⟩
  | delay c =>
    refine Checked.map_eq_ok.mpr ⟨⟨c.durationMs.asDouble⟩, ?_, rfl⟩
    exact Checked.map_eq_ok.mpr ⟨_, Checked.inside_eq_ok.mpr (Delay.duration_toJson h), rfl⟩
  | webhook c => exact Checked.map_eq_ok.mpr ⟨c, Webhook.model_toJson h, rfl⟩
  | setContext c =>
    obtain ⟨values⟩ := c
    cases values with
    | none => rfl
    | some t =>
      have hread : (Reader.nullable (Reader.dict Reader.any)) (.json (.obj t)) = .ok (some t) :=
        Checked.map_eq_ok.mpr ⟨t, Reader.dict_any (h t rfl), rfl⟩
      refine Checked.map_eq_ok.mpr ⟨⟨some t⟩, ?_, rfl⟩
      exact Checked.map_eq_ok.mpr ⟨some t, Checked.inside_eq_ok.mpr hread, rfl⟩

end Action

theorem StepKind.ofName?_name (kind : StepKind) : ofName? kind.name = some kind := by
  cases kind <;> rfl

namespace Step

variable {s : Step}

/-- The fields of a step that was written down. -/
def written (s : Step) : Table Json := [
  ("id", .str s.id), ("name", .str s.name), ("type", .str s.action.kind.name),
  ("config", s.action.toJson)]

/-- A step is written down without the older branch fields. -/
theorem prepare_written (s : Step) (kind : StepKind) :
    prepare kind (s.written.map fun e => (e.1, .json e.2)) =
      .ok (s.written.map fun e => (e.1, .json e.2)) := by
  cases kind <;> rfl

theorem ofFields_written (h : s.action.Valid) :
    ofFields s.action.kind (s.written.map fun e => (e.1, .json e.2)) = .ok s.reread := by
  refine Checked.andThen_eq_ok.mpr ⟨_, prepare_written s _, ?_⟩
  refine Checked.seq_eq_ok.mpr
    ⟨Step.mk s.id s.name, s.action.reread, ?_, optional_of_get? rfl (Action.ofConfig_toJson h), rfl⟩
  refine Checked.seq_eq_ok.mpr ⟨Step.mk s.id, s.name, ?_, rfl, rfl⟩
  exact Checked.map_eq_ok.mpr ⟨s.id, rfl, rfl⟩

theorem ofSource_toJson (h : s.action.Valid) : ofSource (.json s.toJson) = .ok s.reread := by
  have hview : Source.view (.json s.toJson) = .map (s.written.map fun e => (.text e.1, .json e.2)) := rfl
  have htag : (Table.get? (s.written.map fun e => (e.1, Source.json e.2)) "type").map Source.view =
      some (.atom (.text s.action.kind.name)) := rfl
  unfold ofSource
  simp only [hview, Source.fieldsOf_text, htag, StepKind.ofName?_name]
  exact Checked.inside_eq_ok.mpr (ofFields_written h)

end Step

theorem Trigger.read_name (trigger : Trigger) :
    Reader.oneOf named (.json (.str trigger.name)) = .ok trigger := by
  cases trigger <;> rfl

namespace Workflow

variable {w : Workflow}

/-- The steps of a definition are read back in their order. -/
theorem list_steps (h : w.Valid) :
    Reader.list Step.ofSource (.json (.arr (w.steps.map Step.toJson))) =
      .ok (w.steps.map Step.reread) := by
  have hread := Reader.itemsFrom_map (r := Step.ofSource) (fun s => .json s.toJson) Step.reread
    (fun s hs => Step.ofSource_toJson (h.actions s hs)) 0
  simpa [Reader.list, Source.view, Function.comp_def] using hread

/-- The fields of a definition that was written down. -/
def written (w : Workflow) : Table Json := [
  ("id", .str w.id), ("user_id", .str w.userId), ("name", .str w.name),
  ("description", .ofText? w.description), ("trigger_type", .str w.trigger.name),
  ("trigger_config", .obj w.triggerConfig), ("enabled", .bool w.enabled),
  ("steps", .arr (w.steps.map Step.toJson))]

theorem draft_written (h : w.Valid) :
    Draft.ofFields (w.written.map fun e => (e.1, .json e.2)) =
      .ok (Draft.mk w.id w.userId w.name w.description w.trigger w.triggerConfig w.enabled
        (w.steps.map Step.reread)) := by
  refine Checked.seq_eq_ok.mpr
    ⟨Draft.mk w.id w.userId w.name w.description w.trigger w.triggerConfig w.enabled,
      w.steps.map Step.reread, ?_, optional_of_get? rfl (list_steps h), rfl⟩
  refine Checked.seq_eq_ok.mpr
    ⟨Draft.mk w.id w.userId w.name w.description w.trigger w.triggerConfig, w.enabled, ?_, rfl, rfl⟩
  refine Checked.seq_eq_ok.mpr
    ⟨Draft.mk w.id w.userId w.name w.description w.trigger, w.triggerConfig, ?_,
      optional_of_get? rfl (Reader.dict_any h.triggerConfig), rfl⟩
  refine Checked.seq_eq_ok.mpr
    ⟨Draft.mk w.id w.userId w.name w.description, w.trigger, ?_,
      optional_of_get? rfl w.trigger.read_name, rfl⟩
  exact Checked.seq_eq_ok.mpr
    ⟨Draft.mk w.id w.userId w.name, w.description, rfl, optionalText_ofText? rfl, rfl⟩

/-- A definition that was written down is read, and nothing but default durations is changed. -/
theorem ofJson_toJson (h : w.Valid) : ofJson w.toJson = .ok w.reread :=
  calc
    ofJson w.toJson = ofFields (w.written.map fun e => (e.1, .json e.2)) :=
      Reader.model_obj ofFields w.written
    _ = .ok w.reread :=
      Checked.andThen_eq_ok.mpr ⟨_, draft_written h, Draft.check_of_nodup w.reread.ids_nodup⟩

end Workflow

/-! ### What was read again equals what it was -/

theorem Delay.equals_asDouble {d : Delay} (h : d.Valid) :
    d.durationMs.asDouble.equals d.durationMs = true := by
  rcases h with rfl | ⟨x, rfl, hx⟩
  · rfl
  · exact Decimal.beq_self_of_nonneg hx

theorem Action.equal_reread {a : Action} (hv : a.Valid) (h : a.finite = a) :
    Json.Equal a.reread.toJson a.toJson := by
  cases a with
  | delay c =>
    have hequal : Json.Equal c.durationMs.asDouble.toJson c.durationMs.toJson :=
      .number (Json.number?_toJson _) (Json.number?_toJson _) (Delay.equals_asDouble hv)
    exact .object_of_forall₂ (.cons ⟨rfl, hequal⟩ .nil)
  | _ => exact .refl _ (finite_toJson h nofun)

theorem Step.equal_reread {s : Step} (hv : s.action.Valid) (h : s.finite = s) :
    Json.Equal s.reread.toJson s.toJson := by
  have ha : s.action.finite = s.action := congrArg Step.action h
  have hkind : s.reread.action.kind = s.action.kind := Action.kind_reread s.action
  refine .object_of_forall₂ (.cons ⟨rfl, .text _⟩ (.cons ⟨rfl, .text _⟩ (.cons ⟨rfl, ?_⟩
    (.cons ⟨rfl, Action.equal_reread hv ha⟩ .nil))))
  rw [hkind]
  exact .text _

/-- A definition that was written down and read again equals what it was. -/
theorem Workflow.equal_reread {w : Workflow} (hv : w.Valid) (h : w.finite = w) : w.reread.Equal w := by
  have hconfig : (Json.obj w.triggerConfig).Finite := congrArg (Json.obj ∘ Workflow.triggerConfig) h
  have hsteps : w.steps.map Step.finite = w.steps := congrArg Workflow.steps h
  have hstep : ∀ s ∈ w.steps, s.finite = s :=
    List.map_inj_left (g := fun s => s) |>.mp (hsteps.trans (List.map_id' _).symm)
  have hequal : List.Forall₂ Json.Equal (w.reread.steps.map Step.toJson) (w.steps.map Step.toJson) := by
    rw [List.forall₂_map_left_iff, List.forall₂_map_right_iff]
    change List.Forall₂ _ (w.steps.map Step.reread) w.steps
    rw [List.forall₂_map_left_iff, List.forall₂_same]
    exact fun s hs => Step.equal_reread (hv.actions s hs) (hstep s hs)
  refine .object_of_forall₂ ?_
  refine .cons ⟨rfl, .text _⟩ (.cons ⟨rfl, .text _⟩ (.cons ⟨rfl, .text _⟩ (.cons ⟨rfl, ?_⟩
    (.cons ⟨rfl, .text _⟩ (.cons ⟨rfl, .refl _ hconfig⟩ (.cons ⟨rfl, .refl _ rfl⟩
      (.cons ⟨rfl, .list hequal⟩ .nil)))))))
  exact .refl _ (Json.finite_ofText? _)

end Conductor
