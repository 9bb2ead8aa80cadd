import Conductor.Proofs.Schema.Accepted
import Conductor.Workflow.Dump
import Conductor.Workflow.Schema

/-! Definitions as validation leaves them. Tables have each key once, and a duration is the default or a
double that is at least zero. Free values are those of the JSON value that was read. -/

namespace Conductor

/-- A value without doubles that are not finite. -/
def Json.Finite (v : Json) : Prop := v.finite = v

namespace Json

theorem finiteFields_eq_self {fields : Table Json} :
    finiteFields fields = fields ↔ ∀ e ∈ fields, e.2.Finite := by
  induction fields with
  | nil => simp [finiteFields]
  | cons e fields ih =>
    obtain ⟨key, v⟩ := e
    simp only [finiteFields, List.cons.injEq, Prod.mk.injEq, true_and, List.forall_mem_cons, ih]
    rfl

theorem finiteItems_eq_self {items : List Json} : finiteItems items = items ↔ ∀ v ∈ items, v.Finite := by
  induction items with
  | nil => simp [finiteItems]
  | cons v items ih =>
    simp only [finiteItems, List.cons.injEq, List.forall_mem_cons, ih]
    rfl

theorem keys_finiteFields (fields : Table Json) : Table.keys (finiteFields fields) = Table.keys fields := by
  induction fields with
  | nil => rfl
  | cons e fields ih => exact congrArg (e.1 :: ·) ih

theorem finite_obj {fields : Table Json} : (Json.obj fields).Finite ↔ ∀ e ∈ fields, e.2.Finite := by
  rw [← finiteFields_eq_self, Finite, finite, Json.obj.injEq]

theorem finite_arr {items : List Json} : (Json.arr items).Finite ↔ ∀ v ∈ items, v.Finite := by
  rw [← finiteItems_eq_self, Finite, finite, Json.arr.injEq]

theorem finite_ofText? (s : Option String) : (Json.ofText? s).Finite := by
  cases s <;> rfl

theorem finite_textsToJson (t : Table String) : (textsToJson t).Finite := by
  refine finite_obj.mpr fun e he => ?_
  obtain ⟨_, _, rfl⟩ := List.mem_map.mp he
  rfl

end Json

namespace Delay

/-- The duration is the default, or it was read. -/
def Valid (d : Delay) : Prop := d = default ∨ ∃ x : Float, d = ⟨.double x⟩ ∧ x ≥ 0.0

theorem valid_of_ofFields {fields : Table Source} {d : Delay} (h : ofFields fields = .ok d) : d.Valid := by
  obtain ⟨n, hn, rfl⟩ := Checked.map_eq_ok.mp h
  rcases optional_eq_ok hn with rfl | ⟨v, _, hv⟩
  · exact Or.inl rfl
  · obtain ⟨x, _, hx⟩ := Checked.andThen_eq_ok.mp hv
    split at hx
    · next hle =>
      cases hx
      exact Or.inr ⟨x, rfl, hle⟩
    · cases hx

end Delay

/-- The headers and the body are the defaults, or they were read. -/
theorem Webhook.parts_of_ofFields {fields : Table Source} {c : Webhook} (h : ofFields fields = .ok c) :
    (c.headers = [] ∨ ∃ v, Table.get? fields "headers" = some v ∧
      Reader.dict Reader.text v = .ok c.headers) ∧
    (c.body = .null ∨ ∃ v, Table.get? fields "body" = some v ∧ Reader.any v = .ok c.body) := by
  obtain ⟨_, body, hrest, hbody, rfl⟩ := Checked.seq_eq_ok.mp h
  obtain ⟨_, headers, hfirst, hheaders, rfl⟩ := Checked.seq_eq_ok.mp hrest
  obtain ⟨_, method, hurl, _, rfl⟩ := Checked.seq_eq_ok.mp hfirst
  obtain ⟨url, _, rfl⟩ := Checked.map_eq_ok.mp hurl
  exact ⟨optional_eq_ok hheaders, optional_eq_ok hbody⟩

namespace Action

def Valid : Action → Prop
  | .agentCall _ | .condition _ => True
  | .transform c => ∀ t ∈ c.mappings, (Table.keys t).Nodup
  | .delay c => c.Valid
  | .webhook c => (Table.keys c.headers).Nodup
  | .setContext c => ∀ t ∈ c.values, (Table.keys t).Nodup

variable {kind : StepKind} {a : Action}

theorem nodup_of_nullable {α : Type} {r : Reader α} {v : Source} {found : Option (Table α)}
    (h : Reader.nullable (Reader.dict r) v = .ok found) : ∀ t ∈ found, (Table.keys t).Nodup := by
  unfold Reader.nullable at h
  split at h
  · cases h
    exact fun t ht => nomatch ht
  · obtain ⟨t, ht, rfl⟩ := Checked.map_eq_ok.mp h
    rintro _ ⟨⟩
    exact Reader.nodup_of_dict ht

theorem valid_default (kind : StepKind) : (default kind).Valid := by
  cases kind with
  | agentCall | condition => trivial
  | transform => exact fun t ht => nomatch ht
  | delay => exact Or.inl rfl
  | webhook => exact List.nodup_nil
  | setContext => exact fun t ht => nomatch ht

theorem valid_of_ofConfig {v : Source} (h : ofConfig kind v = .ok a) : a.Valid := by
  cases kind with
  | agentCall =>
    obtain ⟨c, _, rfl⟩ := Checked.map_eq_ok.mp h
    trivial
  | condition =>
    obtain ⟨c, _, rfl⟩ := Checked.map_eq_ok.mp h
    trivial
  | transform =>
    obtain ⟨c, hc, rfl⟩ := Checked.map_eq_ok.mp h
    obtain ⟨fields, hc⟩ := Reader.exists_of_model hc
    obtain ⟨found, hfound, rfl⟩ := Checked.map_eq_ok.mp hc
    rcases optional_eq_ok hfound with rfl | ⟨_, _, hfound⟩
    · exact fun t ht => nomatch ht
    · exact nodup_of_nullable hfound
  | delay =>
    obtain ⟨c, hc, rfl⟩ := Checked.map_eq_ok.mp h
    obtain ⟨fields, hc⟩ := Reader.exists_of_model hc
    exact Delay.valid_of_ofFields hc
  | webhook =>
    obtain ⟨c, hc, rfl⟩ := Checked.map_eq_ok.mp h
    obtain ⟨fields, hc⟩ := Reader.exists_of_model hc
    change (Table.keys c.headers).Nodup
    rcases (Webhook.parts_of_ofFields hc).1 with hnil | ⟨_, _, hheaders⟩
    · rw [hnil]
      exact List.nodup_nil
    · exact Reader.nodup_of_dict hheaders
  | setContext =>
    obtain ⟨c, hc, rfl⟩ := Checked.map_eq_ok.mp h
    obtain ⟨fields, hc⟩ := Reader.exists_of_model hc
    obtain ⟨found, hfound, rfl⟩ := Checked.map_eq_ok.mp hc
    rcases optional_eq_ok hfound with rfl | ⟨_, _, hfound⟩
    · exact fun t ht => nomatch ht
    · exact nodup_of_nullable hfound

theorem Valid.finite (h : a.Valid) : a.finite.Valid := by
  cases a with
  | setContext c =>
    intro t ht
    obtain ⟨t', ht', rfl⟩ := Option.map_eq_some_iff.mp ht
    exact (Json.keys_finiteFields t').symm ▸ h t' ht'
  | _ => exact h

/-- Only webhooks and settings of the context hold free values. -/
theorem finite_default (kind : StepKind) : (default kind).finite = default kind := by
  cases kind <;> rfl

theorem finiteFields_of_dict {fields t : Table Json} (hv : (Json.obj fields).Finite)
    (h : Reader.dict Reader.any (.json (.obj fields)) = .ok t) : Json.finiteFields t = t := by
  refine Json.finiteFields_eq_self.mpr fun e he => ?_
  obtain ⟨e', hmem, hr⟩ := Reader.mem_of_dict h he
  have hsame : e'.2 = e.2 := Checked.ok.inj hr
  exact hsame ▸ Json.finite_obj.mp hv e' hmem

theorem finite_of_get? {fields : Table Json} (hv : (Json.obj fields).Finite) {key : String} {v : Source}
    (h : Table.get? (fields.map fun e => (e.1, Source.json e.2)) key = some v) :
    ∃ v', v = .json v' ∧ v'.Finite := by
  rw [Table.get?_map] at h
  obtain ⟨v', hv', rfl⟩ := Option.map_eq_some_iff.mp h
  exact ⟨v', rfl, Json.finite_obj.mp hv _ (Table.mem_of_get? hv')⟩

theorem finite_of_ofConfig {v : Json} (hv : v.Finite) (h : ofConfig kind (.json v) = .ok a) :
    a.finite = a := by
  cases kind with
  | webhook =>
    obtain ⟨c, hmodel, rfl⟩ := Checked.map_eq_ok.mp h
    obtain ⟨fields, rfl, hc⟩ := Reader.exists_of_model_json hmodel
    have hfinite : c.body.Finite := by
      rcases (Webhook.parts_of_ofFields hc).2 with hnull | ⟨v, hget, hbody⟩
      · rw [hnull]
        rfl
      · obtain ⟨v, rfl, hv⟩ := finite_of_get? hv hget
        exact Checked.ok.inj hbody ▸ hv
    exact congrArg (fun body => Action.webhook { c with body := body }) hfinite
  | setContext =>
    obtain ⟨c, hmodel, rfl⟩ := Checked.map_eq_ok.mp h
    obtain ⟨fields, rfl, hc⟩ := Reader.exists_of_model_json hmodel
    obtain ⟨found, hfound, rfl⟩ := Checked.map_eq_ok.mp hc
    rcases optional_eq_ok hfound with rfl | ⟨v, hget, hfound⟩
    · rfl
    · obtain ⟨v, rfl, hv⟩ := finite_of_get? hv hget
      unfold Reader.nullable at hfound
      split at hfound
      · cases hfound
        rfl
      · obtain ⟨t, ht, rfl⟩ := Checked.map_eq_ok.mp hfound
        cases v with
        | obj fields =>
          exact congrArg (fun t => Action.setContext ⟨some t⟩) (finiteFields_of_dict hv ht)
        | _ => cases ht
  | _ =>
    obtain ⟨c, _, rfl⟩ := Checked.map_eq_ok.mp h
    rfl

/-- What is written of settings is finite where their free values are. A duration may be infinite. -/
theorem finite_toJson (h : a.finite = a) (hd : a.kind ≠ .delay) : a.toJson.Finite := by
  cases a with
  | agentCall c =>
    obtain ⟨agentId, sessionKey, message, timeout⟩ := c
    cases agentId <;> cases sessionKey <;> cases message <;> rfl
  | condition c =>
    obtain ⟨expression, onTrue, onFalse⟩ := c
    cases expression <;> cases onTrue <;> cases onFalse <;> rfl
  | transform c =>
    obtain ⟨mappings⟩ := c
    cases mappings with
    | none => rfl
    | some t => exact Json.finite_obj.mpr (List.forall_mem_singleton.mpr (Json.finite_textsToJson t))
  | delay c => exact absurd rfl hd
  | webhook c =>
    have hbody : c.body.Finite := congrArg Webhook.body (Action.webhook.inj h)
    refine Json.finite_obj.mpr ?_
    simp only [List.forall_mem_cons]
    exact ⟨Json.finite_ofText? _, rfl, Json.finite_textsToJson _, hbody, fun _ he => nomatch he⟩
  | setContext c =>
    obtain ⟨values⟩ := c
    cases values with
    | none => rfl
    | some t =>
      have ht : Json.finiteFields t = t := by
        injection h with h
        injection h with h
        injection h
      exact Json.finite_obj.mpr (List.forall_mem_singleton.mpr (congrArg Json.obj ht))

end Action

namespace Step

variable {s : Step} {kind : StepKind}

theorem exists_of_ofSource {v : Source} (h : ofSource v = .ok s) :
    ∃ entries kind, v.view = .map entries ∧ ofFields kind (Source.fieldsOf entries) = .ok s := by
  unfold ofSource at h
  split at h
  · next entries hv =>
    dsimp only at h
    split at h
    · cases h
    · split at h
      · exact ⟨entries, _, hv, Checked.inside_eq_ok.mp h⟩
      · cases h
    · cases h
  · cases h

/-- The settings of a step are the defaults of its kind, or they were read. -/
theorem action_of_ofFields {fields : Table Source} (h : ofFields kind fields = .ok s) :
    ∃ prepared, prepare kind fields = .ok prepared ∧ (s.action = Action.default kind ∨
      ∃ v, Table.get? prepared "config" = some v ∧ Action.ofConfig kind v = .ok s.action) := by
  obtain ⟨prepared, hp, h⟩ := Checked.andThen_eq_ok.mp h
  obtain ⟨_, action, hrest, haction, rfl⟩ := Checked.seq_eq_ok.mp h
  obtain ⟨_, name, hid, _, rfl⟩ := Checked.seq_eq_ok.mp hrest
  obtain ⟨id, _, rfl⟩ := Checked.map_eq_ok.mp hid
  exact ⟨prepared, hp, optional_eq_ok haction⟩

theorem valid_of_ofSource {v : Source} (h : ofSource v = .ok s) : s.action.Valid := by
  obtain ⟨entries, kind, _, h⟩ := exists_of_ofSource h
  obtain ⟨prepared, _, ha | ⟨v, _, ha⟩⟩ := action_of_ofFields h
  · rw [ha]
    exact Action.valid_default kind
  · exact Action.valid_of_ofConfig ha

theorem finite_of_ofSource {v : Json} (hv : v.Finite) (h : ofSource (.json v) = .ok s) :
    s.finite = s := by
  obtain ⟨entries, kind, hview, h⟩ := exists_of_ofSource h
  suffices ha : s.action.finite = s.action from congrArg (fun a => { s with action := a }) ha
  obtain ⟨prepared, hp, ha | ⟨config, hget, ha⟩⟩ := action_of_ofFields h
  · rw [ha]
    exact Action.finite_default kind
  unfold prepare at hp
  split at hp
  · next hkind =>
    -- The folded branches of a condition hold no free value.
    subst hkind
    obtain ⟨c, _, hc⟩ := Checked.map_eq_ok.mp ha
    rw [← hc]
    rfl
  · split at hp
    · cases hp
      cases v with
      | obj fields =>
        cases hview
        rw [Source.fieldsOf_text] at hget
        obtain ⟨config, rfl, hconfig⟩ := Action.finite_of_get? hv hget
        exact Action.finite_of_ofConfig hconfig ha
      | _ => cases hview
    · cases hp

end Step

namespace Workflow

variable {w : Workflow}

structure Valid (w : Workflow) : Prop where
  triggerConfig : (Table.keys w.triggerConfig).Nodup
  actions : ∀ s ∈ w.steps, s.action.Valid

theorem Valid.finite (h : w.Valid) : w.finite.Valid where
  triggerConfig := (Json.keys_finiteFields w.triggerConfig).symm ▸ h.triggerConfig
  actions := by
    intro s hs
    obtain ⟨s', hs', rfl⟩ := List.mem_map.mp hs
    exact (h.actions s' hs').finite

/-- The free values of a definition and its steps are the defaults, or they were read. -/
theorem parts_of_ofFields {fields : Table Source} (h : ofFields fields = .ok w) :
    (w.triggerConfig = [] ∨ ∃ v, Table.get? fields "trigger_config" = some v ∧
      Reader.dict Reader.any v = .ok w.triggerConfig) ∧
    (w.steps = [] ∨ ∃ v, Table.get? fields "steps" = some v ∧
      Reader.list Step.ofSource v = .ok w.steps) := by
  obtain ⟨d, hd, hw⟩ := Checked.andThen_eq_ok.mp h
  have hparts : w.triggerConfig = d.triggerConfig ∧ w.steps = d.steps := by
    unfold Draft.check at hw
    split at hw
    · cases hw
    · cases hw
      exact ⟨rfl, rfl⟩
  rw [hparts.1, hparts.2]
  obtain ⟨_, steps, hrest, hsteps, rfl⟩ := Checked.seq_eq_ok.mp hd
  obtain ⟨_, enabled, hfirst, _, rfl⟩ := Checked.seq_eq_ok.mp hrest
  obtain ⟨_, config, hothers, hconfig, rfl⟩ := Checked.seq_eq_ok.mp hfirst
  obtain ⟨_, trigger, hdescription, _, rfl⟩ := Checked.seq_eq_ok.mp hothers
  obtain ⟨_, description, hname, _, rfl⟩ := Checked.seq_eq_ok.mp hdescription
  obtain ⟨_, name, huser, _, rfl⟩ := Checked.seq_eq_ok.mp hname
  obtain ⟨_, user, hid, _, rfl⟩ := Checked.seq_eq_ok.mp huser
  obtain ⟨id, _, rfl⟩ := Checked.map_eq_ok.mp hid
  exact ⟨optional_eq_ok hconfig, optional_eq_ok hsteps⟩

theorem mem_of_list {v : Source} {steps : List Step} (h : Reader.list Step.ofSource v = .ok steps)
    {s : Step} (hs : s ∈ steps) : ∃ items, v.view = .list items ∧ ∃ x ∈ items, Step.ofSource x = .ok s := by
  unfold Reader.list at h
  split at h
  · next items hv => exact ⟨items, hv, Reader.mem_of_itemsFrom h hs⟩
  · cases h

/-- What validation accepts is valid. -/
theorem valid_of_ofJson {v : Json} (h : ofJson v = .ok w) : w.Valid := by
  obtain ⟨fields, h⟩ := Reader.exists_of_model h
  obtain ⟨hconfig, hsteps⟩ := parts_of_ofFields h
  constructor
  · rcases hconfig with hnil | ⟨_, _, hconfig⟩
    · rw [hnil]
      exact List.nodup_nil
    · exact Reader.nodup_of_dict hconfig
  · intro s hs
    rcases hsteps with hnil | ⟨_, _, hsteps⟩
    · rw [hnil] at hs
      cases hs
    · obtain ⟨_, _, x, _, hx⟩ := mem_of_list hsteps hs
      exact Step.valid_of_ofSource hx

/-- A definition that was read from finite numbers is written down as it is. -/
theorem finite_of_ofJson {v : Json} (hv : v.Finite) (h : ofJson v = .ok w) : w.finite = w := by
  obtain ⟨fields, rfl, hread⟩ := Reader.exists_of_model_json h
  obtain ⟨hconfig, hsteps⟩ := parts_of_ofFields hread
  have htrigger : Json.finiteFields w.triggerConfig = w.triggerConfig := by
    rcases hconfig with hnil | ⟨v, hget, hconfig⟩
    · rw [hnil]
      rfl
    · obtain ⟨v, rfl, hv⟩ := Action.finite_of_get? hv hget
      cases v with
      | obj fields => exact Action.finiteFields_of_dict hv hconfig
      | _ => cases hconfig
  have hstep : ∀ s ∈ w.steps, s.finite = s := by
    intro s hs
    rcases hsteps with hnil | ⟨v, hget, hsteps⟩
    · rw [hnil] at hs
      cases hs
    · obtain ⟨v, rfl, hv⟩ := Action.finite_of_get? hv hget
      obtain ⟨items, hview, x, hx, hstep⟩ := mem_of_list hsteps hs
      cases v with
      | arr items =>
        cases hview
        obtain ⟨item, hitem, rfl⟩ := List.mem_map.mp hx
        exact Step.finite_of_ofSource (Json.finite_arr.mp hv item hitem) hstep
      | _ => cases hview
  have hmap : w.steps.map Step.finite = w.steps :=
    (List.map_congr_left hstep).trans (List.map_id' _)
  obtain ⟨id, userId, name, description, trigger, config, enabled, steps, hnodup⟩ := w
  simp only [Workflow.finite, Workflow.mk.injEq, true_and]
  exact ⟨htrigger, hmap⟩

end Workflow

end Conductor
