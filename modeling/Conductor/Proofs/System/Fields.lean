import Conductor.Proofs.System.Drivers

/-! The fields of a stored run fit its status. What is written of a run fits the definition of its driver,
and it is written only while the run is running. -/

namespace Conductor

/-- The fields of a run fit its status, for a definition of `n` steps. Nothing stands in their places. -/
structure Run.Fits (r : Run) (n : Nat) : Prop where
  written : r.written = []
  place : 0 ≤ r.currentStep
  fields : match r.status with
    | .running => r.error = none ∧ r.completedAt = none ∧ r.currentStep < (max n 1 : Nat)
    | .cancelled => r.error = none ∧ r.completedAt ≠ none ∧ r.currentStep < (max n 1 : Nat)
    | .completed => r.error = none ∧ r.completedAt ≠ none ∧ r.currentStep = n
    | .failed => (∃ error, r.error = some error ∧ error ≠ "") ∧ r.completedAt ≠ none ∧
        r.currentStep < n
    | .other _ => False

namespace Run

variable {r : Run} {n : Nat} {c : Change}

theorem fits_start (id workflowId : String) (context : Table Json) (now : Time) (n : Nat) :
    (start id workflowId context now).Fits n := by
  refine ⟨rfl, Int.le_refl 0, rfl, rfl, ?_⟩
  change (0 : Int) < (max n 1 : Nat)
  omega

theorem Fits.apply_driven (h : r.Fits n) (hs : r.status = .running) (hc : c.Driven n) :
    (r.apply c).Fits n := by
  -- Before the change the run is running, so that it has no error and no time of its end.
  have hf := h.fields
  rw [hs] at hf
  obtain ⟨he, ht, hp⟩ := hf
  cases hc with
  | checkpoint hi =>
    refine ⟨?_, Int.natCast_nonneg _, ?_⟩
    · simp [Run.apply, Change.checkpoint, Change.none, h.written, Table.putAll]
    · simp only [Run.apply, Change.checkpoint, Change.none, Option.getD_none, Option.getD_some, hs]
      exact ⟨he, ht, by omega⟩
  | completed =>
    refine ⟨?_, Int.natCast_nonneg _, ?_⟩
    · simp [Run.apply, Change.final, h.written, Table.putAll]
    · exact ⟨rfl, Option.some_ne_none _, rfl⟩
  | @failed index context error now hi hne =>
    refine ⟨?_, Int.natCast_nonneg _, ?_⟩
    · simp [Run.apply, Change.final, h.written, Table.putAll]
    · exact ⟨⟨error, rfl, hne⟩, Option.some_ne_none _, Int.ofNat_lt.mpr hi⟩

theorem Fits.apply_cancel (h : r.Fits n) (hs : r.status = .running) (now : Time) :
    (r.apply (.cancel now)).Fits n := by
  have hf := h.fields
  rw [hs] at hf
  obtain ⟨he, _, hp⟩ := hf
  refine ⟨?_, h.place, he, Option.some_ne_none _, hp⟩
  simp [Run.apply, Change.cancel, Change.none, h.written, Table.putAll]

theorem Fits.settle (h : r.Fits n) (s : Store) : (s.settle r).Fits n := by
  refine ⟨?_, by simpa using h.place, ?_⟩
  · cases s <;> exact h.written
  · have hf := h.fields
    simp only [ne_eq, Store.settle_status, Store.settle_error, Store.settle_currentStep,
      Store.settle_completedAt_eq_none] at hf ⊢
    exact hf

end Run

namespace System

variable {calm : Prop} {s s' : System} {i : Nat} {op : Operation} {log : Log Call.Answer}
variable {x : (q : Call) × q.Answer}

/-- Each stored run fits the definition of its driver. -/
def Fitting (s : System) : Prop :=
  ∀ id run i w, s.office.store.record? id = some run → s.StartedBy i id w → run.Fits w.steps.length

/-- What may be asked of a run that is running keeps it fitting, whoever asks. -/
theorem Exchange.fits_apply (hx : s.Exchange calm i op log x s') (hd : s.Driven) {runId : String}
    {c : Change} {expected : Option String} {r : Except Fault Bool}
    (hxe : x = ⟨.store (.updateRun runId c expected), r⟩) {run : Run} (hs : run.status = .running)
    {j : Nat} {w : Workflow} (hw : s.StartedBy j runId w) (hf : run.Fits w.steps.length) :
    (run.apply c).Fits w.steps.length := by
  have hallowed := hx.allowed
  rw [hxe] at hallowed
  obtain ⟨_, ⟨hr, w', hw', hc⟩ | ⟨_, ⟨now, rfl⟩, _⟩⟩ := hallowed.updateRun
  · -- It is the driver that asks, and there is one only.
    obtain ⟨_, rfl⟩ := hd.startedBy_inj hw ⟨op, log, hx.asking, hr, hw'⟩
    exact hf.apply_driven hs hc
  · exact hf.apply_cancel hs now

theorem Exchange.fitting (hx : s.Exchange calm i op log x s') (ho : s.office.Sound) (hd : s.Driven)
    (hf : s.Fitting) : s'.Fitting := by
  intro id run j w hrun hw
  -- A run that is as it was before fits as it did before.
  have hold : s.office.store.record? id = some run → run.Fits w.steps.length := fun h =>
    hf id run j w h (hx.startedBy_of hd (ho.store.record?_plain h).2.2 hw)
  cases hx.served with
  | made workflowId context new hxe hn hi hnew hrec =>
    rw [hrec] at hrun
    split at hrun
    · obtain rfl : new = run := Option.some.inj hrun
      rw [hnew]
      exact (Run.fits_start _ _ _ _ _).settle _
    · exact hold hrun
  | changed runId c old hxe hi hrold hs hrec =>
    rw [hrec] at hrun
    split at hrun
    · next hid =>
      subst hid
      obtain rfl : s.office.store.settle (old.apply c) = run := Option.some.inj hrun
      have hw := hx.startedBy_of hd (ho.store.record?_plain hrold).2.2 hw
      exact (hx.fits_apply hd hxe hs hw (hf runId old j w hrold hw)).settle _
    · exact hold hrun
  | kept hxe hu hi hrec => exact hold (hrec id ▸ hrun)

theorem Quiet.fitting (hq : s.Quiet s') (hf : s.Fitting) : s'.Fitting := by
  rintro id run i w hrun ⟨op, log, hat, hr, hw⟩
  exact hf id run i w (hq.store ▸ hrun) ⟨op, log, hq.at_of_runId? hat hr, hr, hw⟩

/-- Whatever happens, every stored run was started on one definition, and its fields fit its status. -/
theorem fits_of_getRun {o : Office} (ho : o.store.ids = []) (events : List Event) {id : String}
    {run : Run} (hr : ((start o).run events).office.store.getRun id = .ok (some run)) :
    ∃ w, ((start o).run events).StartedOn id w ∧
      (∀ w', ((start o).run events).StartedOn id w' → w' = w) ∧ run.Fits w.steps.length := by
  obtain ⟨h, hd, hf⟩ := (orderly_start (Office.sound_of_ids_nil ho)).run_induction False
    (P := fun s => s.Driven ∧ s.Fitting) events False.elim
    ⟨driven_start ho, fun _ _ _ _ _ ⟨_, _, hat, _⟩ => absurd hat (not_at_start o)⟩
    (fun s s' hq h => ⟨hq.driven h.1, hq.fitting h.2⟩)
    fun s s' i op log x ho hx h => ⟨hx.driven h.1, hx.fitting ho.office h.1 h.2⟩
  rw [h.office.store.getRun_eq, Except.ok.injEq] at hr
  obtain ⟨i, w, hw⟩ := hd.started id (h.office.store.record?_plain hr).2.2
  refine ⟨w, startedOn_iff.mpr ⟨i, hw⟩, fun w' hw' => ?_, hf id run i w hr hw⟩
  obtain ⟨j, hw'⟩ := startedOn_iff.mp hw'
  exact (hd.startedBy_inj hw' hw).2

/-- A run that came to the end of its one step. -/
theorem fits_completed :
    let s := (start .vacant).run (opening ++ turns 1 6)
    let run : Run := ⟨"run-1", "w", .completed, 1, [("only", .obj []), ("_last_output", .obj [])],
      none, .start, some .start, []⟩
    s.office.store.getRun "run-1" = .ok (some run) ∧ ∃ w, s.StartedOn "run-1" w ∧
      (∀ w', s.StartedOn "run-1" w' → w' = w) ∧ run.Fits w.steps.length :=
  ⟨rfl, fits_of_getRun rfl _ rfl⟩

end System

end Conductor
