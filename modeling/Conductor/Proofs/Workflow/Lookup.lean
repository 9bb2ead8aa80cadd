import Conductor.Proofs.Engine.Position
import Conductor.Workflow.Schema
import Mathlib.Data.List.Induction
import Mathlib.Data.List.Nodup

/-! Steps are told apart by their ids. A definition is accepted if no id comes twice, and then a step is found
at its place: by the search through the steps and by the table of positions alike. -/

namespace Conductor.Workflow

variable {d : Draft} {w : Workflow} {ids seen : List String} {id : String}

/-- The id is the first, in the order of the list, that an earlier one equals. -/
def Repeats (ids : List String) (id : String) : Prop :=
  ∃ before after, ids = before ++ id :: after ∧ before.Nodup ∧ id ∈ before

/-- Ids that do not repeat are passed, and are seen from then on. -/
theorem firstRepeat?_append {before : List String} (hnodup : before.Nodup) (hfresh : ∀ x ∈ before, x ∉ seen)
    (rest : List String) : firstRepeat? seen (before ++ rest) = firstRepeat? (before.reverse ++ seen) rest := by
  induction before generalizing seen with
  | nil => rfl
  | cons x before ih =>
    obtain ⟨hx, hnodup⟩ := List.nodup_cons.mp hnodup
    obtain ⟨hnew, hfresh⟩ := List.forall_mem_cons.mp hfresh
    have hfresh' : ∀ y ∈ before, y ∉ x :: seen := by
      intro y hy hseen
      rcases List.mem_cons.mp hseen with rfl | hseen
      · exact hx hy
      · exact hfresh y hy hseen
    rw [List.cons_append, firstRepeat?, if_neg hnew, ih hnodup hfresh', List.reverse_cons, List.append_assoc,
      List.singleton_append]

theorem firstRepeat?_of_repeats (h : Repeats ids id) : firstRepeat? [] ids = some id := by
  obtain ⟨before, after, rfl, hnodup, hmem⟩ := h
  rw [firstRepeat?_append hnodup fun _ _ => List.not_mem_nil, List.append_nil, firstRepeat?,
    if_pos (List.mem_reverse.mpr hmem)]

/-- The longest beginning without a repetition ends where the first id comes again. -/
theorem exists_repeats (h : ¬ ids.Nodup) : ∃ id, Repeats ids id := by
  induction ids using List.reverseRecOn with
  | nil => exact absurd List.nodup_nil h
  | append_singleton ids id ih =>
    by_cases hnodup : ids.Nodup
    · have hmem : id ∈ ids := by
        by_contra hnew
        rw [← List.concat_eq_append, List.nodup_concat] at h
        exact h ⟨hnew, hnodup⟩
      exact ⟨id, ids, [], rfl, hnodup, hmem⟩
    · obtain ⟨id', before, after, rfl, hbefore, hmem⟩ := ih hnodup
      exact ⟨id', before, after ++ [id], List.append_assoc _ _ _, hbefore, hmem⟩

section Check

theorem Draft.check_of_nodup (h : (d.steps.map Step.id).Nodup) :
    d.check = .ok ⟨d.id, d.userId, d.name, d.description, d.trigger, d.triggerConfig, d.enabled,
      d.steps, h⟩ := by
  have hnone : firstRepeat? [] (d.steps.map Step.id) = none :=
    firstRepeat?_eq_none.mpr ⟨h, fun _ _ => List.not_mem_nil⟩
  unfold Draft.check
  split
  · next hsome =>
    rw [hnone] at hsome
    cases hsome
  · rfl

theorem Draft.check_of_repeats (h : Repeats (d.steps.map Step.id) id) :
    d.check = .problem (.rule s!"Duplicate step id: {id}") := by
  have hsome := firstRepeat?_of_repeats h
  unfold Draft.check
  split
  · next hfound =>
    rw [hsome] at hfound
    cases hfound
    rfl
  · next hnone =>
    rw [hsome] at hnone
    cases hnone

theorem Draft.exists_check_iff : (∃ w, d.check = .ok w) ↔ (d.steps.map Step.id).Nodup := by
  constructor
  · rintro ⟨w, hw⟩
    by_contra hnodup
    obtain ⟨id, hid⟩ := exists_repeats hnodup
    rw [check_of_repeats hid] at hw
    cases hw
  · exact fun h => ⟨_, check_of_nodup h⟩

theorem Draft.steps_of_check (h : d.check = .ok w) : w.steps = d.steps := by
  have hdraft := check_of_nodup (exists_check_iff.mp ⟨w, h⟩)
  exact congrArg Workflow.steps (Checked.ok.inj (h.symm.trans hdraft))

theorem ofSource_of_draft {v : Source} (h : Reader.model Draft.ofFields v = .ok d) :
    ofSource v = d.check := by
  unfold ofSource Reader.model
  unfold Reader.model at h
  split
  · next hview =>
    rw [hview] at h
    exact congrArg (Checked.andThen · Draft.check) h
  · next hview =>
    split at h
    · next es hes => exact absurd hes (hview es)
    · cases h

end Check

section Found

theorem indexOf?_getElem (w : Workflow) (i : ℕ) (hi : i < w.steps.length) :
    w.indexOf? w.steps[i].id = some i := by
  refine List.findIdx?_eq_some_iff_getElem.mpr ⟨hi, beq_self_eq_true _, fun j hj => ?_⟩
  have hdistinct : w.steps.Pairwise fun s t => s.id ≠ t.id := List.pairwise_map.mp w.ids_nodup
  rw [Bool.not_eq_true, beq_eq_false_iff_ne]
  exact List.pairwise_iff_getElem.mp hdistinct j i (Nat.lt_trans hj hi) hi hj

theorem indexOf?_eq_none_iff : w.indexOf? id = none ↔ ∀ s ∈ w.steps, s.id ≠ id := by
  rw [indexOf?, List.findIdx?_eq_none_iff]
  simp only [beq_eq_false_iff_ne]

theorem exists_indexOf?_iff : (∃ i, w.indexOf? id = some i) ↔ ∃ s ∈ w.steps, s.id = id := by
  rw [← Option.isSome_iff_exists, ← Option.ne_none_iff_isSome, Ne, indexOf?_eq_none_iff]
  simp only [not_forall, not_not, exists_prop]

/-- The engine goes on at the step that the search finds. -/
theorem nextIndex_of_mem {index : ℕ} (hid : id ≠ "") (h : ∃ s ∈ w.steps, s.id = id) :
    w.indexOf? id = some (Engine.nextIndex (Engine.positions w) index (some id)) := by
  obtain ⟨i, hi⟩ := exists_indexOf?_iff.mpr h
  have hgiven : given? (some id) = some id := given?_of_ne_empty hid
  rw [Engine.nextIndex_eq, hgiven, Option.bind_some, hi, Option.getD_some]

/-- A name that is empty, or that is no step's id, leads to the step that follows. -/
theorem nextIndex_of_not_mem {index : ℕ} {next : Option String}
    (h : ∀ s ∈ w.steps, next = some s.id → s.id = "") :
    Engine.nextIndex (Engine.positions w) index next = index + 1 := by
  rw [Engine.nextIndex_eq]
  cases hgiven : given? next with
  | none => rfl
  | some id =>
    obtain ⟨rfl, hid⟩ := given?_eq_some_iff.mp hgiven
    have hnone : w.indexOf? id = none := by
      refine indexOf?_eq_none_iff.mpr fun s hs heq => hid ?_
      exact heq ▸ h s hs (congrArg some heq.symm)
    rw [Option.bind_some, hnone, Option.getD_none]

end Found

/-- A definition is accepted exactly if no two of its steps have the same id, and the problem of another is the
first id that comes again. In an accepted one a step is found at its place and nothing else is found, and the
engine goes on at the step that the search finds, or else at the one that follows. -/
theorem found_by_id (d : Draft) :
    ((∃ w, d.check = .ok w) ↔ (d.steps.map Step.id).Nodup) ∧
    (¬ (d.steps.map Step.id).Nodup → ∃ id, Repeats (d.steps.map Step.id) id ∧
      d.check = .problem (.rule s!"Duplicate step id: {id}")) ∧
    (∀ v, Reader.model Draft.ofFields v = .ok d → ofSource v = d.check) ∧
    ∀ w, d.check = .ok w →
      w.steps = d.steps ∧
      (∀ i (hi : i < w.steps.length), w.indexOf? w.steps[i].id = some i) ∧
      (∀ id, w.indexOf? id = none ↔ ∀ s ∈ w.steps, s.id ≠ id) ∧
      (∀ index id, id ≠ "" → (∃ s ∈ w.steps, s.id = id) →
        w.indexOf? id = some (Engine.nextIndex (Engine.positions w) index (some id))) ∧
      ∀ index next, (∀ s ∈ w.steps, next = some s.id → s.id = "") →
        Engine.nextIndex (Engine.positions w) index next = index + 1 := by
  refine ⟨Draft.exists_check_iff, fun h => ?_, fun _ => ofSource_of_draft, fun w hw => ?_⟩
  · obtain ⟨id, hid⟩ := exists_repeats h
    exact ⟨id, hid, Draft.check_of_repeats hid⟩
  · exact ⟨Draft.steps_of_check hw, indexOf?_getElem w, fun _ => indexOf?_eq_none_iff,
      fun _ _ => nextIndex_of_mem, fun _ _ => nextIndex_of_not_mem⟩

end Conductor.Workflow
