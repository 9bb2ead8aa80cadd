import Conductor.Proofs.Workflow.Reread

/-! The older branch fields of a step. On a condition they are another spelling of the targets in its
settings, unless the settings are no mapping. -/

namespace Conductor

open Yaml (Atom)

/-! ### Targets -/

/-- Sets the targets that are not set. -/
def Branch.withTargets (onTrue onFalse : Option String) (c : Branch) : Branch :=
  { c with onTrue := c.onTrue.or onTrue, onFalse := c.onFalse.or onFalse }

def Action.withTargets (onTrue onFalse : Option String) : Action → Action
  | .condition c => .condition (c.withTargets onTrue onFalse)
  | a => a

def Step.withTargets (onTrue onFalse : Option String) (s : Step) : Step :=
  { s with action := s.action.withTargets onTrue onFalse }

/-- A value that is this text, or null for none. -/
def Source.Spells (v : Source) (s : Option String) : Prop := v.view = .atom (s.elim .null .text)

theorem Source.Spells.isNull {v : Source} {s : Option String} (h : v.Spells s) : v.isNull = s.isNone := by
  unfold Source.isNull
  rw [h]
  cases s <;> rfl

theorem Source.Spells.read {v : Source} {s : Option String} (h : v.Spells s) :
    Reader.nullable Reader.text v = .ok s := by
  unfold Reader.nullable
  rw [h.isNull]
  cases s with
  | none => rfl
  | some s =>
    have htext : Reader.text v = .ok s := by
      unfold Reader.text Reader.ofAtom
      rw [h]
      rfl
    simp [htext]

namespace Checked

variable {α β γ : Type}

theorem map_id' (x : Checked α) : (fun a => a) <$> x = x := by
  cases x <;> rfl

theorem inside_map (f : α → β) (p : Place) (x : Checked α) : (f <$> x).inside p = f <$> x.inside p := by
  cases x <;> rfl

end Checked

theorem optional_congr {α : Type} {fields fields' : Table Source} {key : String}
    (h : Table.get? fields key = Table.get? fields' key) (default : α) (r : Reader α) :
    optional fields key default r = optional fields' key default r := by
  unfold optional
  rw [h]

namespace Branch

variable {config : Table Source} {key other : String} {target : Source} {s : Option String}

theorem optionalText_of_get? {v : Source} (h : Table.get? config key = some v) :
    optionalText config key = (Reader.nullable Reader.text v).inside (.field key) := by
  unfold optionalText optional
  rw [h]

theorem optionalText_of_missing (h : Table.get? config key = none) : optionalText config key = .ok none := by
  unfold optionalText optional
  rw [h]

theorem optionalText_congr {config' : Table Source} (h : Table.get? config key = Table.get? config' key) :
    optionalText config key = optionalText config' key :=
  optional_congr h none (Reader.nullable Reader.text)

theorem get?_foldTarget_of_ne (config : Table Source) (target : Source) (h : key ≠ other) :
    Table.get? (Step.foldTarget config key target) other = Table.get? config other := by
  unfold Step.foldTarget
  split
  · exact Table.get?_put_of_ne config target h
  · rfl

/-- A folded target is read where its key was missing or null, and counts for nothing elsewhere. -/
theorem optionalText_foldTarget (config : Table Source) (key : String) (h : target.Spells s) :
    optionalText (Step.foldTarget config key target) key = (·.or s) <$> optionalText config key := by
  rcases s with _ | s
  · have hsame : Step.foldTarget config key target = config := by
      simp [Step.foldTarget, h.isNull]
    have hor : (fun a : Option String => a.or none) = fun a => a := funext fun a => by cases a <;> rfl
    rw [hsame, hor, Checked.map_id']
  have hput : optionalText (Table.put config key target) key = .ok (some s) := by
    rw [optionalText_of_get? (Table.get?_put_self config key target), h.read]
    rfl
  rcases hget : Table.get? config key with _ | v
  · have hfold : Step.foldTarget config key target = Table.put config key target := by
      have hnull : (Step.given config key).isNull = true := by
        unfold Step.given
        rw [hget]
        rfl
      simp [Step.foldTarget, h.isNull, hnull]
    rw [hfold, hput, optionalText_of_missing hget]
    rfl
  have hgiven : Step.given config key = v := by
    unfold Step.given
    rw [hget]
    rfl
  rcases hnull : v.isNull with _ | _
  · -- What is there is read as before, also where it is no text.
    have hfold : Step.foldTarget config key target = config := by
      simp [Step.foldTarget, hgiven, hnull]
    have hread : Reader.nullable Reader.text v = some <$> Reader.text v := by
      simp [Reader.nullable, hnull]
    rw [hfold, optionalText_of_get? hget, hread]
    cases Reader.text v <;> rfl
  · have hfold : Step.foldTarget config key target = Table.put config key target := by
      simp [Step.foldTarget, h.isNull, hgiven, hnull]
    have hread : Reader.nullable Reader.text v = .ok none := by
      simp [Reader.nullable, hnull]
    rw [hfold, hput, optionalText_of_get? hget, hread]
    rfl

/-- Settings with folded targets are read as the settings, with the targets set where they are not. -/
theorem ofFields_fold {onSuccess onFailure : Source} {onTrue onFalse : Option String}
    (config : Table Source) (ht : onSuccess.Spells onTrue) (hf : onFailure.Spells onFalse) :
    ofFields (Step.foldTarget (Step.foldTarget config "on_true" onSuccess) "on_false" onFailure) =
      withTargets onTrue onFalse <$> ofFields config := by
  have hexpression : optionalText
      (Step.foldTarget (Step.foldTarget config "on_true" onSuccess) "on_false" onFailure) "expression" =
      optionalText config "expression" :=
    optionalText_congr
      ((get?_foldTarget_of_ne _ _ (by decide)).trans (get?_foldTarget_of_ne _ _ (by decide)))
  have htrue : optionalText
      (Step.foldTarget (Step.foldTarget config "on_true" onSuccess) "on_false" onFailure) "on_true" =
      (·.or onTrue) <$> optionalText config "on_true" :=
    (optionalText_congr (get?_foldTarget_of_ne _ _ (by decide))).trans
      (optionalText_foldTarget config "on_true" ht)
  have hfalse : optionalText
      (Step.foldTarget (Step.foldTarget config "on_true" onSuccess) "on_false" onFailure) "on_false" =
      (·.or onFalse) <$> optionalText config "on_false" := by
    refine (optionalText_foldTarget _ "on_false" hf).trans ?_
    rw [optionalText_congr (get?_foldTarget_of_ne config onSuccess (by decide))]
  unfold ofFields
  rw [hexpression, htrue, hfalse]
  -- The three fields are read apart from each other; the issues of all are kept in their order.
  cases optionalText config "expression" <;> cases optionalText config "on_true" <;>
    cases optionalText config "on_false" <;> rfl

end Branch

namespace Source

theorem fieldsOf_record (fields : Table Source) :
    fieldsOf (fields.map fun e => (.text e.1, e.2)) = fields := by
  unfold fieldsOf
  rw [List.filterMap_map]
  exact List.filterMap_some

/-- Entries without those under some keys. -/
def without (keys : List String) (entries : List (Atom × Source)) : List (Atom × Source) :=
  entries.filter fun e =>
    match e.1 with
    | .text key => key ∉ keys
    | _ => true

theorem get?_without {keys : List String} {key : String} (entries : List (Atom × Source))
    (h : key ∉ keys) :
    Table.get? (fieldsOf (without keys entries)) key = Table.get? (fieldsOf entries) key := by
  -- Entries whose key is no text are no fields; an entry that goes is under another key.
  induction entries with
  | nil => rfl
  | cons e entries ih =>
    obtain ⟨a, v⟩ := e
    unfold without fieldsOf at ih ⊢
    cases a with
    | text name =>
      by_cases hname : name = key
      · subst hname
        simp [h, Table.get?]
      · by_cases hmem : name ∈ keys
        · simpa [hmem, Table.get?, hname] using ih
        · simpa [hmem, Table.get?, hname] using ih
    | _ => simpa using ih

theorem get?_without_of_mem {keys : List String} {key : String} (entries : List (Atom × Source))
    (h : key ∈ keys) : Table.get? (fieldsOf (without keys entries)) key = none := by
  induction entries with
  | nil => rfl
  | cons e entries ih =>
    obtain ⟨a, v⟩ := e
    unfold without fieldsOf at ih ⊢
    cases a with
    | text name =>
      by_cases hmem : name ∈ keys
      · simpa [hmem] using ih
      · have hname : name ≠ key := fun he => hmem (he ▸ h)
        simpa [hmem, Table.get?, hname] using ih
    | _ => simpa using ih

end Source

theorem StepKind.name_of_ofName? {tag : String} {kind : StepKind} (h : ofName? tag = some kind) :
    kind.name = tag := by
  unfold ofName? at h
  have hfound := List.find?_some h
  exact eq_of_beq hfound

namespace Step

variable {kind : StepKind} {fields fields' : Table Source} {entries : List (Atom × Source)}
  {onTrue onFalse : Option String} {v v' : Source}

/-- The keys of the older branch fields. -/
def olderKeys : List String := ["on_success", "on_failure"]

/-- The step is of the kind with this name. -/
def Tagged (entries : List (Atom × Source)) (tag : String) : Prop :=
  (Table.get? (Source.fieldsOf entries) "type").map Source.view = some (.atom (.text tag))

/-- The settings are there and are no mapping. -/
def Misshapen (fields : Table Source) : Prop :=
  ∃ config, Table.get? fields "config" = some config ∧ ∀ entries, config.view ≠ .map entries

/-- One of the older branch fields is there and not null. -/
def Older (fields : Table Source) : Prop :=
  (given fields "on_success").isNull = false ∨ (given fields "on_failure").isNull = false

theorem not_older_iff :
    ¬ Older fields ↔ (given fields "on_success").isNull && (given fields "on_failure").isNull := by
  unfold Older
  rw [Bool.and_eq_true, not_or, Bool.not_eq_false, Bool.not_eq_false]

theorem older_iff (ht : (given fields "on_success").Spells onTrue)
    (hf : (given fields "on_failure").Spells onFalse) : Older fields ↔ ¬ (onTrue = none ∧ onFalse = none) := by
  rw [← not_iff_not, not_older_iff, ht.isNull, hf.isNull]
  simp

/-- The parts of a step, once its older branch fields are out of the way. -/
def ofPrepared (kind : StepKind) (fields : Table Source) : Checked Step :=
  Step.mk <$> required fields "id" Reader.text <*> optional fields "name" "" Reader.text <*>
    optional fields "config" (Action.default kind) (Action.ofConfig kind)

theorem ofFields_eq (kind : StepKind) (fields : Table Source) :
    ofFields kind fields = (prepare kind fields).andThen (ofPrepared kind) := rfl

theorem required_id_congr (h : Table.get? fields "id" = Table.get? fields' "id") :
    required fields "id" Reader.text = required fields' "id" Reader.text := by
  unfold required
  rw [h]

theorem ofPrepared_congr
    (h : ∀ key ∈ ["id", "name", "config"], Table.get? fields key = Table.get? fields' key) :
    ofPrepared kind fields = ofPrepared kind fields' := by
  have hid := h "id" (by simp)
  have hname := h "name" (by simp)
  have hconfig := h "config" (by simp)
  unfold ofPrepared
  rw [required_id_congr hid, optional_congr hname, optional_congr hconfig]

theorem withTargets_none (s : Step) : s.withTargets none none = s := by
  obtain ⟨id, name, action⟩ := s
  cases action with
  | condition c =>
    obtain ⟨expression, onTrue, onFalse⟩ := c
    cases onTrue <;> cases onFalse <;> rfl
  | _ => rfl

/-- The mapping that targets are folded into. -/
def settings (fields : Table Source) : Table Source :=
  match (given fields "config").view with
  | .map config => Source.fieldsOf config
  | _ => []

theorem foldBranches_of_not_older (h : ¬ Older fields) : foldBranches fields = fields := by
  unfold foldBranches
  exact if_pos (not_older_iff.mp h)

theorem foldBranches_of_older (h : Older fields) :
    foldBranches fields = Table.put fields "config"
      (.record (foldTarget (foldTarget (settings fields) "on_true" (given fields "on_success"))
        "on_false" (given fields "on_failure"))) := by
  unfold foldBranches
  exact if_neg fun hn => not_older_iff.mpr hn h

/-- Settings that are missing or a mapping are read as the mapping that targets are folded into. -/
theorem optional_config (h : ¬ Misshapen fields) :
    optional fields "config" (Action.default .condition) (Action.ofConfig .condition) =
      (.condition <$> Branch.ofFields (settings fields)).inside (.field "config") := by
  rcases hget : Table.get? fields "config" with _ | config
  · have hsettings : settings fields = [] := by
      unfold settings given
      rw [hget]
      rfl
    unfold optional
    rw [hget, hsettings]
    rfl
  · have hgiven : given fields "config" = config := by
      unfold given
      rw [hget]
      rfl
    have hmap : ∃ entries, config.view = .map entries := by
      by_contra hno
      exact h ⟨config, hget, fun entries he => hno ⟨entries, he⟩⟩
    obtain ⟨entries, hview⟩ := hmap
    unfold optional settings
    rw [hget, hgiven, hview]
    simp only [Action.ofConfig, Reader.model, hview]

/-- A condition with older branch fields is read as the settings they are folded into, with targets. -/
theorem ofPrepared_foldBranches (h : Older fields)
    (ht : (given fields "on_success").Spells onTrue) (hf : (given fields "on_failure").Spells onFalse)
    (hid : Table.get? fields' "id" = Table.get? fields "id")
    (hname : Table.get? fields' "name" = Table.get? fields "name")
    (hconfig : optional fields' "config" (Action.default .condition) (Action.ofConfig .condition) =
      (.condition <$> Branch.ofFields (settings fields)).inside (.field "config")) :
    ofPrepared .condition (foldBranches fields) =
      withTargets onTrue onFalse <$> ofPrepared .condition fields' := by
  rw [foldBranches_of_older h]
  unfold ofPrepared
  rw [required_id_congr ((Table.get?_put_of_ne fields _ (by decide)).trans hid.symm),
    optional_congr ((Table.get?_put_of_ne fields _ (by decide)).trans hname.symm), hconfig]
  have hfolded : ∀ config : Table Source,
      optional (Table.put fields "config" (.record config)) "config" (Action.default .condition)
        (Action.ofConfig .condition) =
      (.condition <$> Branch.ofFields config).inside (.field "config") := by
    intro config
    unfold optional
    rw [Table.get?_put_self]
    simp only [Action.ofConfig, Reader.model, Source.view, Source.fieldsOf_record]
  rw [hfolded, Branch.ofFields_fold _ ht hf]
  cases required fields' "id" Reader.text <;> cases optional fields' "name" "" Reader.text <;>
    cases Branch.ofFields (settings fields) <;> rfl

theorem ofSource_of_tagged (hv : v.view = .map entries) (ht : Tagged entries kind.name) :
    ofSource v = (ofFields kind (Source.fieldsOf entries)).inside (.field kind.name) := by
  unfold Tagged at ht
  unfold ofSource
  simp only [hv, ht, StepKind.ofName?_name]

/-- What is read of a step depends on its kind and on the fields that a step of this kind has. -/
theorem ofSource_congr {entries' : List (Atom × Source)} (hv : v.view = .map entries)
    (hv' : v'.view = .map entries')
    (htype : Table.get? (Source.fieldsOf entries') "type" = Table.get? (Source.fieldsOf entries) "type")
    (h : ∀ kind : StepKind, Tagged entries kind.name →
      ofFields kind (Source.fieldsOf entries) = ofFields kind (Source.fieldsOf entries')) :
    ofSource v = ofSource v' := by
  unfold ofSource
  simp only [hv, hv', htype]
  split
  · rfl
  · next tag htag =>
    split
    · next kind hkind =>
      rw [h kind (htag.trans (by rw [StepKind.name_of_ofName? hkind]))]
    · rfl
  · rfl

/-- A step of no known kind is refused whatever else it has. -/
theorem ofSource_of_untagged (hv : v.view = .map entries)
    (h : ∀ kind : StepKind, ¬ Tagged entries kind.name) : ∃ issues, ofSource v = .bad issues := by
  unfold ofSource
  simp only [hv]
  split
  · exact ⟨_, rfl⟩
  · next tag htag =>
    split
    · next kind hkind =>
      exact absurd (htag.trans (by rw [StepKind.name_of_ofName? hkind])) (h kind)
    · exact ⟨_, rfl⟩
  · exact ⟨_, rfl⟩

/-- Only conditions have the older branch fields. -/
theorem ofSource_refused (hv : v.view = .map entries) (ht : Tagged entries kind.name)
    (hkind : kind ≠ .condition) (h : Older (Source.fieldsOf entries)) :
    ofSource v = .bad [⟨.rule branchRule, [.field kind.name]⟩] := by
  have hprepare : prepare kind (Source.fieldsOf entries) = .problem (.rule branchRule) := by
    unfold prepare
    rw [if_neg hkind, if_neg fun hn => not_older_iff.mpr hn h]
  rw [ofSource_of_tagged hv ht, ofFields_eq, hprepare]
  rfl

theorem prepare_of_not_older (kind : StepKind) (h : ¬ Older fields) : prepare kind fields = .ok fields := by
  unfold prepare
  split
  · rw [foldBranches_of_not_older h]
  · rw [if_pos (not_older_iff.mp h)]

/-- Settings that are no mapping are refused. -/
theorem ofSource_misshapen (hv : v.view = .map entries) (ht : Tagged entries StepKind.condition.name)
    (hold : ¬ Older (Source.fieldsOf entries)) (h : Misshapen (Source.fieldsOf entries)) :
    ∃ issues, ofSource v = .bad issues := by
  obtain ⟨config, hget, hview⟩ := h
  have hconfig : optional (Source.fieldsOf entries) "config" (Action.default .condition)
      (Action.ofConfig .condition) = .bad [⟨.notModel, [.field "config"]⟩] := by
    have hmodel : Reader.model Branch.ofFields config = .problem .notModel := by
      unfold Reader.model
      split
      · next entries he => exact absurd he (hview entries)
      · rfl
    unfold optional
    rw [hget]
    simp only [Action.ofConfig, hmodel]
    rfl
  rw [ofSource_of_tagged hv ht, ofFields_eq, prepare_of_not_older .condition hold]
  change ∃ issues, (ofPrepared .condition (Source.fieldsOf entries)).inside _ = .bad issues
  unfold ofPrepared
  rw [hconfig]
  cases required (Source.fieldsOf entries) "id" Reader.text <;>
    cases optional (Source.fieldsOf entries) "name" "" Reader.text <;> exact ⟨_, rfl⟩

section Without

variable {keys : List String}

theorem tagged_without (h : "type" ∉ keys) {tag : String} :
    Tagged (Source.without keys entries) tag ↔ Tagged entries tag := by
  unfold Tagged
  rw [Source.get?_without entries h]

theorem not_older_without (h : olderKeys ⊆ keys) : ¬ Older (Source.fieldsOf (Source.without keys entries)) := by
  have hnull : ∀ key ∈ olderKeys, (given (Source.fieldsOf (Source.without keys entries)) key).isNull := by
    intro key hkey
    unfold given
    rw [Source.get?_without_of_mem entries (h hkey)]
    rfl
  rw [not_older_iff, hnull "on_success" (by simp [olderKeys]), hnull "on_failure" (by simp [olderKeys])]
  rfl

/-- A step whose older branch fields are missing or null is read as without them. -/
theorem ofFields_without (kind : StepKind) (h : ¬ Older (Source.fieldsOf entries)) :
    ofFields kind (Source.fieldsOf entries) =
      ofFields kind (Source.fieldsOf (Source.without olderKeys entries)) := by
  have hnone : ¬ Older (Source.fieldsOf (Source.without olderKeys entries)) :=
    not_older_without (List.Subset.refl _)
  rw [ofFields_eq, ofFields_eq, prepare_of_not_older kind h, prepare_of_not_older kind hnone]
  refine ofPrepared_congr fun key hkey => (Source.get?_without entries ?_).symm
  revert key
  decide

end Without

theorem settings_of_misshapen (h : Misshapen fields) : settings fields = [] := by
  obtain ⟨config, hget, hview⟩ := h
  unfold settings given
  rw [hget, Option.getD_some]
  split
  · next entries he => exact absurd he (hview entries)
  · rfl

theorem ofSource_folded {keys : List String} (hv : v.view = .map entries)
    (hv' : v'.view = .map (Source.without keys entries)) (hkeys : olderKeys ⊆ keys)
    (hfree : ∀ key ∈ ["type", "id", "name"], key ∉ keys) (ht : Tagged entries StepKind.condition.name)
    (hold : Older (Source.fieldsOf entries))
    (hs : (given (Source.fieldsOf entries) "on_success").Spells onTrue)
    (hf : (given (Source.fieldsOf entries) "on_failure").Spells onFalse)
    (hconfig : optional (Source.fieldsOf (Source.without keys entries)) "config"
        (Action.default .condition) (Action.ofConfig .condition) =
      (.condition <$> Branch.ofFields (settings (Source.fieldsOf entries))).inside (.field "config")) :
    ofSource v = withTargets onTrue onFalse <$> ofSource v' := by
  have ht' : Tagged (Source.without keys entries) StepKind.condition.name :=
    (tagged_without (hfree "type" (by simp))).mpr ht
  have hid := Source.get?_without entries (hfree "id" (by simp))
  have hname := Source.get?_without entries (hfree "name" (by simp))
  have hparts : ofFields .condition (Source.fieldsOf entries) =
      withTargets onTrue onFalse <$> ofFields .condition (Source.fieldsOf (Source.without keys entries)) :=
    calc
      ofFields .condition (Source.fieldsOf entries)
          = ofPrepared .condition (foldBranches (Source.fieldsOf entries)) := rfl
      _ = withTargets onTrue onFalse <$>
            ofPrepared .condition (Source.fieldsOf (Source.without keys entries)) :=
          ofPrepared_foldBranches hold hs hf hid hname hconfig
      _ = withTargets onTrue onFalse <$>
            ofFields .condition (Source.fieldsOf (Source.without keys entries)) := by
          rw [ofFields_eq, prepare_of_not_older .condition (not_older_without hkeys)]
          rfl
  rw [ofSource_of_tagged hv ht, ofSource_of_tagged hv' ht', hparts, Checked.inside_map]

/-- The older branch fields of a condition are another spelling of the targets in its settings: the step is
read, or refused with the same issues, as without them, and they set the targets that are not set, each on
its own. Settings that are no mapping are refused without these fields; with one of them they are passed
over. Another step that has one of the fields is refused, and they count for nothing where they are null. -/
theorem ofSource_older {v v' : Source} {entries : List (Atom × Source)} (hv : v.view = .map entries)
    (hv' : v'.view = .map (Source.without olderKeys entries)) :
    (Tagged entries StepKind.condition.name → ∀ onTrue onFalse : Option String,
      (given (Source.fieldsOf entries) "on_success").Spells onTrue →
      (given (Source.fieldsOf entries) "on_failure").Spells onFalse →
      ((Misshapen (Source.fieldsOf entries) → ¬ Older (Source.fieldsOf entries)) →
        ofSource v = withTargets onTrue onFalse <$> ofSource v') ∧
      (Misshapen (Source.fieldsOf entries) → (∃ issues, ofSource v' = .bad issues) ∧
        (Older (Source.fieldsOf entries) → ∀ bare : Source,
          bare.view = .map (Source.without ("config" :: olderKeys) entries) →
          ofSource v = withTargets onTrue onFalse <$> ofSource bare))) ∧
    (¬ Tagged entries StepKind.condition.name →
      (¬ Older (Source.fieldsOf entries) → ofSource v = ofSource v') ∧
      (Older (Source.fieldsOf entries) → ∃ issues, ofSource v = .bad issues)) := by
  have hsame : ¬ Older (Source.fieldsOf entries) → ofSource v = ofSource v' := by
    intro hold
    exact ofSource_congr hv hv' (Source.get?_without entries (by decide))
      fun kind _ => ofFields_without kind hold
  refine ⟨fun ht onTrue onFalse hs hf => ⟨fun hshape => ?_, fun hmis => ⟨?_, fun hold bare hbare => ?_⟩⟩,
    fun ht => ⟨hsame, fun hold => ?_⟩⟩
  · -- The fields are folded where one of them is not null, and count for nothing else.
    by_cases hold : Older (Source.fieldsOf entries)
    · have hmapped : ¬ Misshapen (Source.fieldsOf entries) := fun h => hshape h hold
      refine ofSource_folded hv hv' (List.Subset.refl _) (by decide) ht hold hs hf ?_
      rw [optional_congr (Source.get?_without entries (by decide))]
      exact optional_config hmapped
    · obtain ⟨rfl, rfl⟩ := not_not.mp fun hn => hold ((older_iff hs hf).mpr hn)
      have hid : withTargets none none = fun s => s := funext withTargets_none
      rw [hid, Checked.map_id', hsame hold]
  · -- Without the fields nothing takes the place of the settings.
    have hfree : "config" ∉ olderKeys := by decide
    have hget := Source.get?_without entries hfree
    obtain ⟨config, hconfig, hview⟩ := hmis
    exact ofSource_misshapen hv' ((tagged_without (by decide)).mpr ht)
      (not_older_without (List.Subset.refl _)) ⟨config, hget.trans hconfig, hview⟩
  · -- The targets are folded into no settings, which is what a step without settings has.
    refine ofSource_folded hv hbare (List.subset_cons_self _ _) (by decide) ht hold hs hf ?_
    have hmem : "config" ∈ "config" :: olderKeys := List.mem_cons_self
    have hget := Source.get?_without_of_mem entries hmem
    rw [settings_of_misshapen hmis]
    unfold optional
    rw [hget]
    rfl
  · -- A known kind refuses the fields, and an unknown one is refused whatever it has.
    by_cases hknown : ∃ kind : StepKind, Tagged entries kind.name
    · obtain ⟨kind, hkind⟩ := hknown
      have hother : kind ≠ .condition := fun he => ht (he ▸ hkind)
      exact ⟨_, ofSource_refused hv hkind hother hold⟩
    · exact ofSource_of_untagged hv (not_exists.mp hknown)

/-- A condition with these settings and these older fields. -/
def conditionOf (config : Json) (older : Table Json) : Source :=
  .json (.obj ([("id", .str "c"), ("type", .str "condition"), ("config", config)] ++ older))

/-- A target that is null is set, one that is a text stays. -/
theorem ofSource_older_half :
    ofSource (conditionOf (.obj [("on_true", .null), ("on_false", .str "x")])
      [("on_success", .str "a"), ("on_failure", .str "b")]) =
    .ok ⟨"c", "", .condition ⟨none, some "a", some "x"⟩⟩ := by
  have hview : (conditionOf (.obj [("on_true", .null), ("on_false", .str "x")])
    [("on_success", .str "a"), ("on_failure", .str "b")]).view = .map _ := rfl
  have hplain : (conditionOf (.obj [("on_true", .null), ("on_false", .str "x")]) []).view = .map _ := rfl
  refine ((ofSource_older hview hplain).1 rfl (some "a") (some "b") rfl rfl).1 ?_
  rintro ⟨_, ⟨⟩, hmap⟩
  exact absurd rfl (hmap _)

/-- A step can be refused without the older branch fields and accepted with one: settings that are a text
are refused, and passed over for the target. -/
theorem not_refused_alike :
    ¬ ∀ (v v' : Source) (entries : List (Atom × Source)), v.view = .map entries →
      v'.view = .map (Source.without olderKeys entries) → Tagged entries StepKind.condition.name →
      (∃ s, (given (Source.fieldsOf entries) "on_success").Spells s) →
      (∃ s, (given (Source.fieldsOf entries) "on_failure").Spells s) →
      (∃ issues, ofSource v' = .bad issues) → ∃ issues, ofSource v = .bad issues := by
  intro h
  have hread : ofSource (conditionOf (.str "ok") [("on_success", .str "a")]) =
      .ok ⟨"c", "", .condition ⟨none, some "a", none⟩⟩ := rfl
  have hrefused : ofSource (conditionOf (.str "ok") []) =
      .bad [⟨.notModel, [.field "condition", .field "config"]⟩] := rfl
  have hview : (conditionOf (.str "ok") [("on_success", .str "a")]).view = .map _ := rfl
  obtain ⟨issues, hbad⟩ :=
    h _ (conditionOf (.str "ok") []) _ hview rfl rfl ⟨some "a", rfl⟩ ⟨none, rfl⟩ ⟨_, hrefused⟩
  rw [hread] at hbad
  cases hbad

end Step

end Conductor
