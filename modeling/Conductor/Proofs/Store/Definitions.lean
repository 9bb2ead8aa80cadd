import Conductor.Proofs.Workflow.Reread
import Conductor.Store.Rows
import Mathlib.Data.List.Induction

/-! Definitions kept as rows. Under each id the one that was saved last is found, as it is read back. -/

namespace Conductor

/-- The definition was read from a value without numbers that are not finite. -/
def Workflow.Read (w : Workflow) : Prop := ∃ v : Json, v.Finite ∧ ofJson v = .ok w

theorem Workflow.Read.valid {w : Workflow} (h : w.Read) : w.Valid :=
  let ⟨_, _, hw⟩ := h
  valid_of_ofJson hw

theorem Workflow.Read.finite_eq {w : Workflow} (h : w.Read) : w.finite = w :=
  let ⟨_, hv, hw⟩ := h
  finite_of_ofJson hv hw

/-- The definition saved last under an id. -/
def lastSaved? (saved : List Workflow) (id : String) : Option Workflow := saved.reverse.find? (·.id = id)

theorem lastSaved?_snoc (saved : List Workflow) (w : Workflow) (id : String) :
    lastSaved? (saved ++ [w]) id = if w.id = id then some w else lastSaved? saved id := by
  unfold lastSaved?
  rw [List.reverse_append, List.reverse_singleton, List.singleton_append, List.find?_cons]
  by_cases h : w.id = id <;> simp [h]

theorem mem_of_lastSaved? {saved : List Workflow} {id : String} {w : Workflow}
    (h : lastSaved? saved id = some w) : w ∈ saved :=
  List.mem_reverse.mp (List.mem_of_find?_eq_some h)

/-- A condition with its branches spelled in the older way, and a delay. -/
def Json.branching (delay : Json) : Json := .obj [
  ("id", .str "w"), ("user_id", .str "u"), ("name", .str "Branching"), ("steps", .arr [
    .obj [("id", .str "c"), ("type", .str "condition"), ("on_success", .str "d")],
    .obj [("id", .str "d"), ("type", .str "delay"), ("config", delay)]])]

def Workflow.branching (duration : Number) : Workflow :=
  ⟨"w", "u", "Branching", none, .manual, [], true,
    [⟨"c", "", .condition ⟨none, some "d", none⟩⟩, ⟨"d", "", .delay ⟨duration⟩⟩], by simp⟩

namespace Rows

variable {s : Rows} {saved : List Workflow} {w : Workflow} {id : String}

/-- Saves definitions one after the other. -/
def saveAll (s : Rows) (saved : List Workflow) : Rows := saved.foldl saveWorkflow s

theorem getWorkflow_saveWorkflow (s : Rows) (h : w.Valid) (id : String) :
    (s.saveWorkflow w).getWorkflow id =
      if w.id = id then .ok (some w.finite.reread) else s.getWorkflow id := by
  unfold getWorkflow saveWorkflow
  rw [Table.get?_put]
  by_cases hid : w.id = id
  · simp only [hid, if_true, Workflow.ofJson_toJson h.finite]
    rfl
  · simp only [hid, if_false]

theorem getWorkflow_saveAll (hs : s.definitions = []) (h : ∀ w ∈ saved, w.Valid) (id : String) :
    (s.saveAll saved).getWorkflow id = .ok ((lastSaved? saved id).map (·.finite.reread)) := by
  induction saved using List.reverseRecOn with
  | nil =>
    unfold saveAll getWorkflow
    rw [List.foldl_nil, hs]
    rfl
  | append_singleton saved w ih =>
    have hw : w.Valid := h w List.mem_concat_self
    have hrest := ih fun w' hw' => h w' (List.mem_append_left _ hw')
    unfold saveAll at hrest ⊢
    rw [List.foldl_append, List.foldl_cons, List.foldl_nil, getWorkflow_saveWorkflow _ hw, hrest,
      lastSaved?_snoc]
    by_cases hid : w.id = id <;> simp [hid]

/-- Rows find the definition saved last under an id, or an equal one, and a definition that is written down
and read again equals what it was. -/
theorem getWorkflow_saveAll_equal (hs : s.definitions = []) (h : ∀ w ∈ saved, w.Read) :
    (∀ id, ∃ found, (s.saveAll saved).getWorkflow id = .ok found ∧
      Option.Rel Workflow.Equal found (lastSaved? saved id)) ∧
    ∀ w : Workflow, w.Read → ∃ w', Workflow.ofJson w.finite.toJson = .ok w' ∧ w'.Equal w := by
  have hequal : ∀ w : Workflow, w.Read → w.finite.reread.Equal w := by
    intro w hw
    rw [hw.finite_eq]
    exact Workflow.equal_reread hw.valid hw.finite_eq
  constructor
  · intro id
    refine ⟨_, getWorkflow_saveAll hs (fun w hw => (h w hw).valid) id, ?_⟩
    cases hlast : lastSaved? saved id with
    | none => exact .none
    | some w => exact .some (hequal w (h w (mem_of_lastSaved? hlast)))
  · exact fun w hw => ⟨w.finite.reread, Workflow.ofJson_toJson hw.valid.finite, hequal w hw⟩

/-- A definition is saved, and then another one under its id whose delay has the default duration. -/
theorem getWorkflow_saveAll_branching :
    let saved : List Workflow := [.branching (.double 50), .branching (.int 1000)]
    (∀ w ∈ saved, w.Read) ∧ ∃ found, (empty.saveAll saved).getWorkflow "w" = .ok found ∧
      Option.Rel Workflow.Equal found (some (.branching (.int 1000))) := by
  intro saved
  have hread : ∀ w ∈ saved, w.Read := by
    simp only [saved, List.forall_mem_cons]
    exact ⟨⟨.branching (.obj [("duration_ms", .int 50)]), rfl, rfl⟩, ⟨.branching (.obj []), rfl, rfl⟩,
      fun _ hw => nomatch hw⟩
  exact ⟨hread, (getWorkflow_saveAll_equal rfl hread).1 "w"⟩

end Rows

end Conductor
