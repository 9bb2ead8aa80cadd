/-! Computations that may fail, one after the other and over the items of a list. -/

namespace Conductor

variable {α β ε : Type} {x : Except ε α} {a : α} {b : β} {e : ε} {l : List α}

/-- Where two computations come to something, so has the first of them. -/
theorem exists_of_bind_ok {f : α → Except ε β} (h : x >>= f = .ok b) : ∃ a, x = .ok a ∧ f a = .ok b := by
  cases x with
  | error e => cases h
  | ok a => exact ⟨a, rfl, h⟩

theorem exists_of_map_ok {f : α → β} (h : x.map f = .ok b) : ∃ a, x = .ok a ∧ f a = b := by
  cases x with
  | error e => cases h
  | ok a => exact ⟨a, rfl, Except.ok.inj h⟩

/-- Where each item is read, so is the list. -/
theorem mapM_eq_filterMap {f : α → Except ε β} {g : α → Option β}
    (h : ∀ a ∈ l, ∃ b, f a = .ok b ∧ g a = some b) : l.mapM f = .ok (l.filterMap g) := by
  induction l with
  | nil => rfl
  | cons a l ih =>
    obtain ⟨b, hf, hg⟩ := h a List.mem_cons_self
    rw [List.mapM_cons, ih fun x hx => h x (List.mem_cons_of_mem _ hx), List.filterMap_cons, hf, hg]
    rfl

/-- A list with an item that fails fails as one of its items does. -/
theorem exists_mapM_error {f : α → Except ε β} (ha : a ∈ l) (h : f a = .error e) :
    ∃ a' e', a' ∈ l ∧ f a' = .error e' ∧ l.mapM f = .error e' := by
  induction l with
  | nil => cases ha
  | cons x l ih =>
    rw [List.mapM_cons]
    cases hx : f x with
    | error e' => exact ⟨x, e', List.mem_cons_self, hx, rfl⟩
    | ok b =>
      -- This item does not fail, so the one that does comes later.
      have hl : a ∈ l := by
        rcases List.mem_cons.mp ha with rfl | ha
        · cases h.symm.trans hx
        · exact ha
      obtain ⟨a', e', hmem, hfails, hall⟩ := ih hl
      refine ⟨a', e', List.mem_cons_of_mem _ hmem, hfails, ?_⟩
      rw [hall]
      rfl

end Conductor
