import Conductor.Proofs.System.Turn

/-! What a chronicle tells of the runs that are stored. Checkpoints of a run are made by its driver alone,
and what is stored of a run that its driver has not concluded is what its last checkpoint holds. -/

namespace Conductor

/-- The driver of the run has not written its end. -/
def Run.Unconcluded (r : Run) : Prop := r.status = .running ∨ r.status = .cancelled

/-- The place and the context that a log gives a run last: those of its last checkpoint, or else those it
begins with. -/
def Log.place? (id : String) (log : Log Act.Answer) : Option (Int × Table Json) :=
  (Log.checkpoints id log).getLast?.or ((Log.about Log.created? id log).head?.map fun context => (0, context))

namespace Chronicle

variable {c c' : Chronicle} {i j : Nat} {op op' : Operation} {log log' : Log Act.Answer}
variable {x : (a : Act) × a.Answer} {id : String} {run : Run} {p : Int × Table Json}

/-- What the chronicle and the logs tell of the stored runs. -/
structure Account (c : Chronicle) : Prop where
  fresh : ∀ {id}, id ∉ c.office.store.ids → Log.checkpoints id c.past = [] ∧
    Log.invocations id c.past = [] ∧ Log.about Log.created? id c.past = []
  noted : ∀ {i op log}, c.At i op log → log ⊆ c.past
  /-- The driver of a run makes all of its checkpoints and begins all of its steps. -/
  driver : ∀ {i op log id}, c.At i op log → log.calls.runId? = some id →
    Log.checkpoints id c.past = Log.checkpoints id log ∧
      Log.invocations id c.past = Log.invocations id log
  opened : ∀ {i op log id p}, c.At i op log → log.open? = some (id, p) →
    log.calls.runId? = some id ∧ ∃ run, c.office.store.record? id = some run ∧ run.Unconcluded
  place : ∀ {id run}, c.office.store.record? id = some run → run.Unconcluded →
    run.error = none ∧ Log.place? id c.past = some (run.currentStep, run.context)
  ended : ∀ {x id ch st}, x ∈ c.past → Log.change? x = some (id, ch) → ch.status = some st →
    ∃ run, c.office.store.record? id = some run ∧ run.status = st ∧ st.isTerminal
  cancelled : ∀ {id run}, c.office.store.record? id = some run → run.status = .cancelled →
    ∃ now, Log.cancellation id now ∈ c.past
  /-- After the status of a run is set no checkpoint is made of it. -/
  frozen : ∀ {before x after id ch}, c.past = before ++ x :: after → Log.change? x = some (id, ch) →
    ch.status.isSome → Log.checkpoints id after = []
  /-- A cancellation leaves the run with the place that it had. -/
  dropped : ∀ {before now after id}, c.past = before ++ Log.cancellation id now :: after →
    ∃ run, c.office.store.record? id = some run ∧ run.status = .cancelled ∧ run.error = none ∧
      Log.place? id before = some (run.currentStep, run.context)
  /-- At every time at most one checkpoint is ahead of the steps that have begun. -/
  ahead : ∀ {id before}, before <+: c.past →
    (Log.checkpoints id before).length ≤ (Log.invocations id before).length + 1

namespace Turn

/-- A run that is made now was not stored before. -/
theorem not_mem_of_created (ht : c.Turn i op log x c') {context : Table Json}
    (hx : Log.created? x = some (id, context)) : id ∉ c.office.store.ids := by
  cases ht.did with
  | began new _ run hx' _ hn =>
    cases hx.symm.trans hx'
    exact hn
  | changed _ _ _ _ hn => cases hn.symm.trans hx
  | kept _ hn => cases hn.symm.trans hx

theorem fresh (ht : c.Turn i op log x c') (ho : c.Orderly) (ha : c.Account)
    (hid : id ∉ c'.office.store.ids) : Log.checkpoints id c'.past = [] ∧
      Log.invocations id c'.past = [] ∧ Log.about Log.created? id c'.past = [] := by
  -- What is done for a run is done by its driver, whose run is stored.
  have hold : id ∉ c.office.store.ids ∧ ∀ context, Log.created? x ≠ some (id, context) := by
    cases ht.did with
    | began new context run hx hc hn hi =>
      rw [hi, List.mem_append, List.mem_singleton, not_or] at hid
      refine ⟨hid.1, fun context' he => hid.2 ?_⟩
      cases hx.symm.trans he
      rfl
    | changed runId ch run hx hn hi => exact ⟨hi ▸ hid, fun _ he => nomatch hn.symm.trans he⟩
    | kept hx hn hi => exact ⟨hi ▸ hid, fun _ he => nomatch hn.symm.trans he⟩
  have hdriver : log.calls.runId? ≠ some id := fun hr =>
    hold.1 (ho.driven.stored ht.asking.system hr).1
  obtain ⟨hc, hi, hm⟩ := ha.fresh hold.1
  have hcheck : Log.checkpoints id [x] = [] :=
    Log.about_singleton_eq_nil fun p hp => hdriver (ht.runId?_of_checkpoint? hp)
  have hbegun : Log.invocations id [x] = [] :=
    Log.about_singleton_eq_nil fun p hp => hdriver (ht.runId?_of_invoked? hp)
  unfold Log.checkpoints Log.invocations at *
  rw [ht.about_past, ht.about_past, ht.about_past, hc, hi, hm, hcheck, hbegun,
    Log.about_singleton_eq_nil hold.2]
  exact ⟨rfl, rfl, rfl⟩

theorem noted (ht : c.Turn i op log x c') (ha : c.Account) (h : c'.At j op' log') : log' ⊆ c'.past := by
  rw [ht.past]
  rcases ht.at_or h with ⟨_, h⟩ | ⟨_, _, rfl⟩
  · exact List.Subset.trans (ha.noted h) (List.subset_append_left _ _)
  · exact List.append_subset.mpr
      ⟨List.Subset.trans (ha.noted ht.asking) (List.subset_append_left _ _),
        List.subset_append_right _ _⟩

theorem driver (ht : c.Turn i op log x c') (ho : c.Orderly) (ha : c.Account) (h : c'.At j op' log')
    (hr : log'.calls.runId? = some id) : Log.checkpoints id c'.past = Log.checkpoints id log' ∧
      Log.invocations id c'.past = Log.invocations id log' := by
  have hcheck : Log.checkpoints id c'.past = _ := ht.about_past Log.checkpoint? id
  have hbegun : Log.invocations id c'.past = _ := ht.about_past Log.invoked? id
  rcases ht.at_or h with ⟨hne, h⟩ | ⟨rfl, rfl, rfl⟩
  · obtain ⟨hc, hi⟩ := ht.nothing_of_ne ho h hne hr
    unfold Log.checkpoints Log.invocations at *
    rw [hcheck, hbegun, hc, hi, List.append_nil, List.append_nil]
    exact ha.driver h hr
  · -- The run was made before, or it is made now and nothing was done for it before.
    have hold : Log.checkpoints id c.past = Log.checkpoints id log ∧
        Log.invocations id c.past = Log.invocations id log := by
      rcases Log.runId?_calls_snoc hr with hr | ⟨context, hx⟩
      · exact ha.driver ht.asking hr
      · have hfresh := ht.not_mem_of_created hx
        obtain ⟨hc, hi, _⟩ := ha.fresh hfresh
        have hsub := ha.noted ht.asking
        rw [hc, hi]
        exact ⟨(Log.about_eq_nil_of_subset hsub hc).symm, (Log.about_eq_nil_of_subset hsub hi).symm⟩
    unfold Log.checkpoints Log.invocations at *
    rw [hcheck, hbegun, hold.1, hold.2, Log.about_append, Log.about_append]
    exact ⟨rfl, rfl⟩

/-- A run that is not concluded is not concluded by others than its driver. -/
theorem unconcluded_of_ne (ht : c.Turn i op log x c') (hne : log.calls.runId? ≠ some id)
    (hr : c.office.store.record? id = some run) (hu : run.Unconcluded) (ho : c.Orderly) :
    ∃ run, c'.office.store.record? id = some run ∧ run.Unconcluded := by
  cases ht.did with
  | began new context run' hx hc hn hi hs he hp hrec =>
    have hid : new ≠ id := fun hid =>
      hn (hid ▸ (ho.system.office.store.record?_plain hr).2.2)
    exact ⟨run, by rw [hrec, if_neg hid, hr], hu⟩
  | changed runId ch old hx hn hi hold hs hrec =>
    by_cases hid : runId = id
    · subst hid
      obtain ⟨hr', _⟩ | ⟨now, rfl, _⟩ := ht.change hx
      · exact absurd hr' hne
      · refine ⟨_, (hrec _).trans (if_pos rfl), Or.inr ?_⟩
        rw [Store.settle_status]
        rfl
    · exact ⟨run, by rw [hrec, if_neg hid, hr], hu⟩
  | kept hx hn hi hrec => exact ⟨run, (hrec id).trans hr, hu⟩

theorem opened (ht : c.Turn i op log x c') (ho : c.Orderly) (ha : c.Account) (h : c'.At j op' log')
    (hp : log'.open? = some (id, p)) : log'.calls.runId? = some id ∧
      ∃ run, c'.office.store.record? id = some run ∧ run.Unconcluded := by
  rcases ht.at_or h with ⟨hne, h⟩ | ⟨rfl, rfl, rfl⟩
  · obtain ⟨hr, run, hrun, hu⟩ := ha.opened h hp
    refine ⟨hr, ht.unconcluded_of_ne (fun hr' => hne ?_) hrun hu ho⟩
    exact ho.driven.unique h.system ht.asking.system hr hr'
  -- The call has just made this checkpoint, or it goes on with the step of it.
  have hsame : log.open? = some (id, p) → c'.office.store.record? id = c.office.store.record? id →
      (log ++ [x]).calls.runId? = some id ∧
        ∃ run, c'.office.store.record? id = some run ∧ run.Unconcluded := by
    intro hp hrec
    obtain ⟨hr, run, hrun, hu⟩ := ha.opened ht.asking hp
    exact ⟨Log.runId?_calls_append hr _, run, hrec.trans hrun, hu⟩
  obtain ⟨a, r⟩ := x
  match a with
  | .invoke _ _ _ =>
    rw [Log.open?_snoc_invoke] at hp
    exact hsame hp (ht.did.record?_of_none rfl rfl id)
  | .call (.outside o) =>
    rw [Log.open?_snoc_outside] at hp
    exact hsame hp (ht.did.record?_of_none rfl rfl id)
  | .call (.store q) =>
    rw [Log.open?_snoc_store] at hp
    refine ⟨Log.runId?_calls_append (ht.runId?_of_checkpoint? hp) _, ?_⟩
    obtain ⟨ch, hc, hplace⟩ := Log.checkpoint?_eq_some hp
    cases ht.did with
    | began _ _ _ _ hc' => cases hc'.symm.trans hc
    | kept hc' => cases hc'.symm.trans hc
    | changed runId ch' old hc' hn hi hold hs hrec =>
      cases hc.symm.trans hc'
      refine ⟨_, (hrec id).trans (if_pos rfl), Or.inl ?_⟩
      rw [Store.settle_status]
      unfold Change.place? at hplace
      split at hplace
      · next hstatus _ _ => simp [Run.apply, hstatus, hs]
      · cases hplace

theorem place?_past (ht : c.Turn i op log x c') (hc : ∀ p, Log.checkpoint? x ≠ some (id, p))
    (hn : ∀ context, Log.created? x ≠ some (id, context)) :
    Log.place? id c'.past = Log.place? id c.past := by
  unfold Log.place? Log.checkpoints
  rw [ht.about_past, ht.about_past, Log.about_singleton_eq_nil hc, Log.about_singleton_eq_nil hn,
    List.append_nil, List.append_nil]

/-- A change that its driver or a cancellation makes of a running run leaves the run with the place of its
last checkpoint, unless it concludes it. -/
theorem place_apply (ht : c.Turn i op log x c') {ch : Change} (hx : Log.change? x = some (id, ch))
    (hn : Log.created? x = none)
    (hp : run.error = none ∧ Log.place? id c.past = some (run.currentStep, run.context))
    (hu : (run.apply ch).Unconcluded) : (run.apply ch).error = none ∧
      Log.place? id c'.past = some ((run.apply ch).currentStep, (run.apply ch).context) := by
  have hcreated : ∀ context, Log.created? x ≠ some (id, context) := fun _ =>
    Option.eq_none_iff_forall_ne_some.mp hn _
  obtain ⟨_, n, hd⟩ | ⟨now, rfl, _⟩ := ht.change hx
  · cases hd with
    | @checkpoint index context hi =>
      have hcheck : Log.checkpoint? x = some (id, (index : Int), context) := Log.checkpoint?_of_change? hx
      refine ⟨hp.1, ?_⟩
      unfold Log.place? Log.checkpoints
      rw [ht.about_past, Log.about_singleton hcheck, List.getLast?_concat]
      rfl
    | completed => rcases hu with hu | hu <;> cases hu
    | failed hi he => rcases hu with hu | hu <;> cases hu
  · refine ⟨hp.1, ?_⟩
    rw [ht.place?_past (fun p he => ?_) hcreated, hp.2]
    · rfl
    · rw [Log.checkpoint?_of_change? hx] at he
      cases he

theorem place (ht : c.Turn i op log x c') (ha : c.Account)
    (hr : c'.office.store.record? id = some run) (hu : run.Unconcluded) :
    run.error = none ∧ Log.place? id c'.past = some (run.currentStep, run.context) := by
  have hother : (∀ p, Log.checkpoint? x ≠ some (id, p)) →
      (∀ context, Log.created? x ≠ some (id, context)) →
      c'.office.store.record? id = c.office.store.record? id →
      run.error = none ∧ Log.place? id c'.past = some (run.currentStep, run.context) := by
    intro hc hn hrec
    rw [ht.place?_past hc hn]
    exact ha.place (hrec.symm.trans hr) hu
  cases ht.did with
  | began new context run' hx hc hn hi hs he hp hrec =>
    have hcheck : ∀ id p, Log.checkpoint? x ≠ some (id, p) := by
      intro id p hp
      rw [Log.checkpoint?, hc] at hp
      cases hp
    by_cases hid : new = id
    · -- Nothing was told of the run before.
      subst hid
      obtain rfl : run' = run := Option.some.inj (((hrec _).trans (if_pos rfl)).symm.trans hr)
      obtain ⟨hnone, _, hmade⟩ := ha.fresh hn
      refine ⟨he, ?_⟩
      unfold Log.place? Log.checkpoints at *
      rw [ht.about_past, ht.about_past, hnone, hmade, Log.about_singleton_eq_nil (hcheck new),
        Log.about_singleton hx, hp]
      rfl
    · refine hother (hcheck id) (fun context' he => hid ?_) ((hrec id).trans (if_neg hid))
      cases hx.symm.trans he
      rfl
  | changed runId ch old hx hn hi hold hs hrec =>
    by_cases hid : runId = id
    · subst hid
      obtain rfl := Option.some.inj (((hrec _).trans (if_pos rfl)).symm.trans hr)
      rw [Run.Unconcluded, Store.settle_status] at hu
      rw [Store.settle_error, Store.settle_currentStep, Store.settle_context]
      exact ht.place_apply hx hn (ha.place hold (Or.inl hs)) hu
    · refine hother (fun p he => hid ?_) (fun _ => Option.eq_none_iff_forall_ne_some.mp hn _)
        ((hrec id).trans (if_neg hid))
      obtain ⟨ch', hc', _⟩ := Log.checkpoint?_eq_some he
      cases hx.symm.trans hc'
      rfl
  | kept hx hn hi hrec =>
    refine hother (fun p he => ?_) (fun _ => Option.eq_none_iff_forall_ne_some.mp hn _) (hrec id)
    rw [Log.checkpoint?, hx] at he
    cases he

theorem settled (ht : c.Turn i op log x c') (ha : c.Account) {y : (a : Act) × a.Answer} {ch : Change}
    {st : Status} (hy : y ∈ c'.past) (hc : Log.change? y = some (id, ch)) (hs : ch.status = some st) :
    ∃ run, c'.office.store.record? id = some run ∧ run.status = st ∧ st.isTerminal := by
  rw [ht.past] at hy
  rcases List.mem_append.mp hy with hy | hy
  · obtain ⟨run, hr, rfl, hterm⟩ := ha.ended hy hc hs
    exact ⟨run, ht.ended hr hterm, rfl, hterm⟩
  · obtain rfl := List.mem_singleton.mp hy
    have hterm : st.isTerminal := by
      obtain ⟨expected, rfl⟩ := Log.change?_eq_some hc
      exact (ht.allowed _ _ rfl).isTerminal hs
    cases ht.did with
    | began _ _ _ _ hc' => cases hc'.symm.trans hc
    | kept hc' => cases hc'.symm.trans hc
    | changed runId ch' old hc' hn hi hold hrun hrec =>
      cases hc.symm.trans hc'
      refine ⟨_, (hrec id).trans (if_pos rfl), ?_, hterm⟩
      rw [Store.settle_status]
      simp [Run.apply, hs]

theorem cancelled (ht : c.Turn i op log x c') (ha : c.Account)
    (hr : c'.office.store.record? id = some run) (hs : run.status = .cancelled) :
    ∃ now, Log.cancellation id now ∈ c'.past := by
  have hold : c.office.store.record? id = some run →
      ∃ now, Log.cancellation id now ∈ c'.past := by
    intro hr
    obtain ⟨now, hm⟩ := ha.cancelled hr hs
    exact ⟨now, ht.past ▸ List.mem_append_left _ hm⟩
  cases ht.did with
  | began new context run' hx hc hn hi hrun he hp hrec =>
    rw [hrec] at hr
    split at hr
    · cases Option.some.inj hr
      cases hrun.symm.trans hs
    · exact hold hr
  | changed runId ch old hx hn hi hold' hrun hrec =>
    rw [hrec] at hr
    split at hr
    · next hid =>
      subst hid
      obtain rfl := Option.some.inj hr
      obtain ⟨_, n, hd⟩ | ⟨now, _, hx⟩ := ht.change hx
      · -- A driver does not set this status.
        rw [Store.settle_status] at hs
        cases hd with
        | checkpoint hi => cases hrun.symm.trans hs
        | completed => cases hs
        | failed hi he => cases hs
      · exact ⟨now, ht.past ▸ hx ▸ List.mem_concat_self⟩
    · exact hold hr
  | kept hx hn hi hrec => exact hold ((hrec id).symm.trans hr)

/-- An act of the past is the last one, or one of before. -/
theorem split (ht : c.Turn i op log x c') {before after : Log Act.Answer} {y : (a : Act) × a.Answer}
    (hp : c'.past = before ++ y :: after) : (after = [] ∧ c.past = before ∧ x = y) ∨
      ∃ more, after = more ++ [x] ∧ c.past = before ++ y :: more := by
  rw [ht.past] at hp
  exact snoc_eq_append_cons hp

theorem frozen (ht : c.Turn i op log x c') (ha : c.Account) {before after : Log Act.Answer}
    {y : (a : Act) × a.Answer} {ch : Change} (hp : c'.past = before ++ y :: after)
    (hc : Log.change? y = some (id, ch)) (hs : ch.status.isSome) : Log.checkpoints id after = [] := by
  rcases ht.split hp with ⟨rfl, _, _⟩ | ⟨after, rfl, hpast⟩
  · rfl
  -- The run has ended before this turn, so that it is not changed.
  obtain ⟨st, hst⟩ := Option.isSome_iff_exists.mp hs
  have hy : y ∈ c.past := hpast ▸ List.mem_append_right _ List.mem_cons_self
  obtain ⟨run, hr, rfl, hterm⟩ := ha.ended hy hc hst
  have hnone : Log.checkpoints id [x] = [] := by
    refine Log.about_singleton_eq_nil fun p he => ?_
    obtain ⟨ch', hc', _⟩ := Log.checkpoint?_eq_some he
    cases ht.did with
    | began _ _ _ _ hn => cases hn.symm.trans hc'
    | kept hn => cases hn.symm.trans hc'
    | changed runId ch'' old hx _ _ hold hrun =>
      cases hc'.symm.trans hx
      cases hold.symm.trans hr
      rw [hrun] at hterm
      cases hterm
  have hafter := ha.frozen hpast hc hs
  rw [Log.checkpoints_append, hafter, hnone]
  rfl

theorem dropped (ht : c.Turn i op log x c') (ha : c.Account) {before after : Log Act.Answer} {now : Time}
    (hp : c'.past = before ++ Log.cancellation id now :: after) :
    ∃ run, c'.office.store.record? id = some run ∧ run.status = .cancelled ∧ run.error = none ∧
      Log.place? id before = some (run.currentStep, run.context) := by
  rcases ht.split hp with ⟨_, rfl, rfl⟩ | ⟨after, _, hpast⟩
  · cases ht.did with
    | began _ _ _ _ hn => cases hn
    | kept hn => cases hn
    | changed runId ch old hx hn hi hold hs hrec =>
      cases hx
      obtain ⟨he, hplace⟩ := ha.place hold (Or.inl hs)
      refine ⟨_, (hrec id).trans (if_pos rfl), ?_, ?_, ?_⟩
      · rw [Store.settle_status]
        rfl
      · rw [Store.settle_error]
        exact he
      · rw [Store.settle_currentStep, Store.settle_context]
        exact hplace
  · obtain ⟨run, hr, hs, hrest⟩ := ha.dropped hpast
    exact ⟨run, ht.ended hr (by rw [hs]; rfl), hs, hrest⟩

end Turn

/-- The driver of a run has at most one checkpoint made for which no step has begun. -/
theorem Orderly.length_le (ho : c.Orderly) (h : c.At i op log) :
    (Log.checkpoints id log).length ≤ (Log.invocations id log).length + 1 := by
  obtain ⟨done, hdone, hhands⟩ := Engine.hands_of_allowed (ho.allowed_log h) id
  have hlast : (Log.checkpoints id log.getLast?.toList).length ≤ 1 :=
    Nat.le_trans (List.length_filterMap_le _ _) (Option.length_toList_le)
  rw [hdone, List.length_append, hhands.length_eq]
  omega

theorem Turn.ahead (ht : c.Turn i op log x c') (ho : c.Orderly) (ho' : c'.Orderly) (ha : c.Account)
    {before : Log Act.Answer} (hb : before <+: c'.past) :
    (Log.checkpoints id before).length ≤ (Log.invocations id before).length + 1 := by
  rw [ht.past] at hb
  rcases List.prefix_concat_iff.mp hb with rfl | hb
  · rw [← ht.past]
    by_cases hid : id ∈ c'.office.store.ids
    · -- The driver has done all that was done for the run.
      obtain ⟨j, w, op', calls, hat, hr, _⟩ := ho'.driven.started id hid
      obtain ⟨log', hat', rfl⟩ := exists_at_of_system hat
      obtain ⟨hc, hi⟩ := ht.driver ho ha hat' hr
      rw [hc, hi]
      exact ho'.length_le hat'
    · obtain ⟨hc, _⟩ := ht.fresh ho ha hid
      rw [hc]
      exact Nat.zero_le _
  · exact ha.ahead hb

theorem Turn.account (ht : c.Turn i op log x c') (ho : c.Orderly) (ho' : c'.Orderly) (ha : c.Account) :
    c'.Account where
  fresh := ht.fresh ho ha
  noted := ht.noted ha
  driver := ht.driver ho ha
  opened := ht.opened ho ha
  place := ht.place ha
  ended := ht.settled ha
  cancelled := ht.cancelled ha
  frozen := ht.frozen ha
  dropped := ht.dropped ha
  ahead := ht.ahead ho ho' ha

theorem Still.account (hs : c.Still c') (ha : c.Account) : c'.Account where
  fresh hid := by
    rw [hs.past]
    exact ha.fresh (hs.store ▸ hid)
  noted h := by
    rw [hs.past]
    rcases hs.at_or h with h | rfl
    · exact ha.noted h
    · exact List.nil_subset _
  driver h hr := by
    rw [hs.past]
    rcases hs.at_or h with h | rfl
    · exact ha.driver h hr
    · cases hr
  opened h hp := by
    rw [hs.store]
    rcases hs.at_or h with h | rfl
    · exact ha.opened h hp
    · cases hp
  place hr hu := by
    rw [hs.past]
    exact ha.place (hs.store ▸ hr) hu
  ended hy hc hst := by
    rw [hs.store]
    exact ha.ended (hs.past ▸ hy) hc hst
  cancelled hr hst := by
    rw [hs.past]
    exact ha.cancelled (hs.store ▸ hr) hst
  frozen hp := ha.frozen (hs.past ▸ hp)
  dropped hp := hs.store ▸ ha.dropped (hs.past ▸ hp)
  ahead hb := ha.ahead (hs.past ▸ hb)

theorem account_start {o : Office} (ho : o.store.ids = []) : (start o).Account := by
  have hat : ∀ {i op log}, ¬ (start o).At i op log := fun ⟨_, h⟩ => nomatch h
  have hrec : ∀ {id run}, (start o).office.store.record? id ≠ some run := by
    intro id run hr
    have hm := ((Office.sound_of_ids_nil ho).store.record?_plain hr).2.2
    rw [ho] at hm
    cases hm
  have hpast : ∀ {before y after}, (start o).past ≠ before ++ y :: after := by
    intro before y after hp
    obtain ⟨_, hn⟩ := List.append_eq_nil_iff.mp hp.symm
    cases hn
  refine ⟨fun _ => ⟨rfl, rfl, rfl⟩, fun h => absurd h hat, fun h => absurd h hat, fun h => absurd h hat,
    fun h => absurd h hrec, fun hy => (nomatch hy), fun h => absurd h hrec, fun hp => absurd hp hpast,
    fun hp => absurd hp hpast, fun hb => ?_⟩
  obtain rfl := List.prefix_nil.mp hb
  exact Nat.zero_le _

/-- Whatever happens, the chronicle accounts for the stored runs. -/
theorem account_run {o : Office} (ho : o.store.ids = []) (events : List Event) :
    ((start o).run events).Orderly ∧ ((start o).run events).Account :=
  (orderly_start ho).run_induction events (account_start ho) (fun _ _ hs ha => hs.account ha)
    fun _ _ _ _ _ _ ho ho' ht ha => ht.account ho ho' ha

end Chronicle

end Conductor
