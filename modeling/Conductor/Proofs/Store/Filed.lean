import Conductor.Proofs.Schema.Accepted
import Conductor.Proofs.Store.Record

/-! Definitions that are filed under their own ids. Saving files a definition so in both stores, and nothing
else that is asked of a store touches the definitions. -/

namespace Conductor

/-- The id of a definition is the one that it was read with. -/
theorem Workflow.get?_id_of_ofJson {fields : Table Json} {w : Workflow}
    (h : ofJson (.obj fields) = .ok w) : Table.get? fields "id" = some (.str w.id) := by
  have hread : ofFields (fields.map fun e => (e.1, .json e.2)) = .ok w :=
    (Reader.model_obj ofFields fields).symm.trans h
  obtain ⟨d, hd, hw⟩ := Checked.andThen_eq_ok.mp hread
  have hid : w.id = d.id := by
    unfold Draft.check at hw
    split at hw
    · cases hw
    · cases hw
      rfl
  obtain ⟨_, _, hswitch, _, rfl⟩ := Checked.seq_eq_ok.mp hd
  obtain ⟨_, _, hconfig, _, rfl⟩ := Checked.seq_eq_ok.mp hswitch
  obtain ⟨_, _, htrigger, _, rfl⟩ := Checked.seq_eq_ok.mp hconfig
  obtain ⟨_, _, hdescription, _, rfl⟩ := Checked.seq_eq_ok.mp htrigger
  obtain ⟨_, _, hname, _, rfl⟩ := Checked.seq_eq_ok.mp hdescription
  obtain ⟨_, _, huser, _, rfl⟩ := Checked.seq_eq_ok.mp hname
  obtain ⟨_, _, hfirst, _, rfl⟩ := Checked.seq_eq_ok.mp huser
  obtain ⟨id, hrequired, rfl⟩ := Checked.map_eq_ok.mp hfirst
  -- Only a text is read as an id.
  unfold required at hrequired
  rw [Table.get?_map] at hrequired
  cases hg : Table.get? fields "id" with
  | none => simp [hg] at hrequired
  | some v =>
    rw [hg] at hrequired
    have hv := Checked.inside_eq_ok.mp hrequired
    cases v with
    | str text =>
      obtain rfl : text = id := Checked.ok.inj hv
      rw [hid]
    | _ => cases hv

namespace Store

/-- What is found under an id is a definition with this id. -/
def Filed (s : Store) : Prop := ∀ id w, s.getWorkflow id = .ok (some w) → w.id = id

theorem filed_empty : (Store.memory .empty).Filed ∧ (Store.rows .empty).Filed :=
  ⟨fun _ _ h => (nomatch h), fun _ _ h => (nomatch h)⟩

variable {s s' : Store}

theorem Filed.of_getWorkflow_eq (h : s.Filed) (he : s'.getWorkflow = s.getWorkflow) : s'.Filed := by
  intro id w hw
  rw [he] at hw
  exact h id w hw

theorem Filed.saveWorkflow (h : s.Filed) (w : Workflow) : (s.saveWorkflow w).Filed := by
  intro id found hfound
  cases s with
  | memory m =>
    have hget : Table.get? (Table.put m.workflows w.id w) id = some found := Except.ok.inj hfound
    rw [Table.get?_put] at hget
    split at hget
    · next hid => exact Option.some.inj hget ▸ hid
    · exact h id found (congrArg Except.ok hget)
  | rows s =>
    simp only [Store.getWorkflow, Rows.getWorkflow, Store.saveWorkflow, Rows.saveWorkflow,
      Table.get?_put] at hfound
    by_cases hid : w.id = id
    · -- What is written down has the id of the definition, and so has what is read of it.
      simp only [hid, if_true] at hfound
      cases hread : Workflow.ofJson w.finite.toJson with
      | ok read =>
        rw [hread] at hfound
        obtain rfl : read = found := Option.some.inj (Except.ok.inj hfound)
        have hget : Json.str w.id = .str read.id :=
          Option.some.inj (Workflow.get?_id_of_ofJson hread)
        rw [← hid]
        exact (Json.str.inj hget).symm
      | bad issues =>
        rw [hread] at hfound
        cases hfound
    · simp only [hid, if_false] at hfound
      exact h id found hfound

/-- The store without its runs. -/
def cleared : Store → Store
  | .memory m => .memory { m with runs := [] }
  | .rows s => .rows { s with runs := [] }

theorem getWorkflow_cleared (s : Store) : s.cleared.getWorkflow = s.getWorkflow := by cases s <;> rfl

theorem cleared_saveWorkflow (s : Store) (w : Workflow) :
    (s.saveWorkflow w).cleared = s.cleared.saveWorkflow w := by
  cases s <;> rfl

theorem cleared_createRun (s : Store) (run : Run) : (s.createRun run).2.cleared = s.cleared := by
  cases s <;> rfl

/-- An update of rows that goes through replaces the runs, and nothing else. -/
theorem exists_runs_of_updateRun {s s' : Rows} {id : String} {c : Change} {expected : Option String}
    {done : Bool} (h : s.updateRun id c expected = .ok (done, s')) :
    ∃ runs, s' = { s with runs := runs } := by
  simp only [Rows.updateRun, bind, Except.bind] at h
  split at h
  · cases h
  · split at h
    · cases h
    · next runs hruns =>
      split at h
      · cases h
      · exact ⟨runs, (Prod.mk.inj (Except.ok.inj h)).2.symm⟩

theorem cleared_updateRun (s : Store) (id : String) (c : Change) (expected : Option String) :
    (s.updateRun id c expected).2.cleared = s.cleared := by
  cases s with
  | memory m =>
    rcases m.updateRun_or id c expected with ⟨he, _⟩ | ⟨old, _, _, he⟩
    · simp only [Store.updateRun, he]
    · simp only [Store.updateRun, he, cleared]
  | rows s =>
    cases h : s.updateRun id c expected with
    | error f => simp only [Store.updateRun, h]
    | ok r =>
      obtain ⟨runs, he⟩ := exists_runs_of_updateRun h
      simp only [Store.updateRun, h, he, cleared]

/-- Only saving touches the definitions. -/
theorem cleared_answer (o : Office) {c : StoreCall} (hc : ∀ w, c ≠ .saveWorkflow w) :
    (o.answer c).2.store.cleared = o.store.cleared := by
  cases c with
  | saveWorkflow w => exact absurd rfl (hc w)
  | createRun workflowId context => exact cleared_createRun o.store _
  | updateRun id c expected => exact cleared_updateRun o.store id c expected
  | _ => rfl

theorem Filed.answer {o : Office} (h : o.store.Filed) (c : StoreCall) : (o.answer c).2.store.Filed := by
  by_cases hc : ∃ w, c = .saveWorkflow w
  · obtain ⟨w, rfl⟩ := hc
    exact h.saveWorkflow w
  · refine h.of_getWorkflow_eq ?_
    rw [← getWorkflow_cleared, cleared_answer o fun w hw => hc ⟨w, hw⟩, getWorkflow_cleared]

end Store

end Conductor
