import Conductor.Proofs.Table
import Conductor.Schema.Reader

/-! What validation accepts. A value that is read has all of its parts read, and a value whose parts are read
is read. -/

namespace Conductor

namespace Checked

variable {α β : Type} {f : α → β} {x : Checked α} {b : β}

theorem map_eq_ok : f <$> x = .ok b ↔ ∃ a, x = .ok a ∧ f a = b := by
  cases x <;> simp

theorem seq_eq_ok {f : Checked (α → β)} : f <*> x = .ok b ↔ ∃ g a, f = .ok g ∧ x = .ok a ∧ g a = b := by
  cases f <;> cases x <;> simp

theorem inside_eq_ok {p : Place} {a : α} : x.inside p = .ok a ↔ x = .ok a := by
  cases x <;> simp

theorem andThen_eq_ok {f : α → Checked β} : x.andThen f = .ok b ↔ ∃ a, x = .ok a ∧ f a = .ok b := by
  cases x <;> simp [andThen]

end Checked

theorem optional_eq_ok {α : Type} {fields : Table Source} {key : String} {default : α} {r : Reader α}
    {a : α} (h : optional fields key default r = .ok a) :
    a = default ∨ ∃ v, Table.get? fields key = some v ∧ r v = .ok a := by
  unfold optional at h
  split at h
  · next v hv => exact Or.inr ⟨v, hv, Checked.inside_eq_ok.mp h⟩
  · cases h
    exact Or.inl rfl

namespace Reader

open Yaml (Atom)

variable {α β : Type} {r : Reader α}

theorem mem_of_itemsFrom {vs : List Source} {as : List α} {i : Nat} (h : itemsFrom r i vs = .ok as)
    {a : α} (ha : a ∈ as) : ∃ v ∈ vs, r v = .ok a := by
  induction vs generalizing i as with
  | nil =>
    cases h
    cases ha
  | cons v vs ih =>
    obtain ⟨_, rest, hv, hrest, rfl⟩ := Checked.seq_eq_ok.mp h
    obtain ⟨first, hfirst, rfl⟩ := Checked.map_eq_ok.mp hv
    rcases List.mem_cons.mp ha with rfl | ha
    · exact ⟨v, List.mem_cons_self, Checked.inside_eq_ok.mp hfirst⟩
    · obtain ⟨v', hmem, hr⟩ := ih hrest ha
      exact ⟨v', List.mem_cons_of_mem _ hmem, hr⟩

/-- Items that are read one by one are read together. -/
theorem itemsFrom_map (source : β → Source) (read : β → α) {items : List β}
    (h : ∀ b ∈ items, r (source b) = .ok (read b)) (i : Nat) :
    itemsFrom r i (items.map source) = .ok (items.map read) := by
  induction items generalizing i with
  | nil => rfl
  | cons b items ih =>
    have hb := h b List.mem_cons_self
    have hrest := ih (fun b' hb' => h b' (List.mem_cons_of_mem _ hb')) (i + 1)
    simp only [List.map_cons, itemsFrom, hb, hrest, Checked.inside_ok, Checked.map_ok, Checked.seq_ok]

theorem mem_of_entries {es : List (Atom × Source)} {t : Table α} (h : entries r es = .ok t)
    {e : String × α} (he : e ∈ t) : ∃ e' ∈ es, r e'.2 = .ok e.2 := by
  induction es generalizing t with
  | nil =>
    cases h
    cases he
  | cons x es ih =>
    obtain ⟨_, rest, hx, hrest, rfl⟩ := Checked.seq_eq_ok.mp h
    obtain ⟨_, a, hkey, ha, rfl⟩ := Checked.seq_eq_ok.mp hx
    obtain ⟨key, _, rfl⟩ := Checked.map_eq_ok.mp hkey
    rcases List.mem_cons.mp he with rfl | he
    · exact ⟨x, List.mem_cons_self, Checked.inside_eq_ok.mp ha⟩
    · obtain ⟨e', hmem, hr⟩ := ih hrest he
      exact ⟨e', List.mem_cons_of_mem _ hmem, hr⟩

theorem entries_map (value : β → Source) (read : β → α) {t : Table β}
    (h : ∀ e ∈ t, r (value e.2) = .ok (read e.2)) :
    entries r (t.map fun e => (.text e.1, value e.2)) = .ok (t.map fun e => (e.1, read e.2)) := by
  induction t with
  | nil => rfl
  | cons e t ih =>
    have he := h e List.mem_cons_self
    have hrest := ih fun e' he' => h e' (List.mem_cons_of_mem _ he')
    have hkey : text (.yaml ⟨.atom (.text e.1), #[]⟩) = .ok e.1 := rfl
    simp only [List.map_cons, entries, he, hrest, hkey, Checked.inside_ok, Checked.map_ok,
      Checked.seq_ok]

theorem nodup_of_dict {v : Source} {t : Table α} (h : dict r v = .ok t) : (Table.keys t).Nodup := by
  unfold dict at h
  split at h
  · obtain ⟨entries, _, rfl⟩ := Checked.map_eq_ok.mp h
    exact Table.nodup_keys_ofList entries
  · cases h

theorem mem_of_dict {fields : Table Json} {t : Table α} (h : dict r (.json (.obj fields)) = .ok t)
    {e : String × α} (he : e ∈ t) : ∃ e' ∈ fields, r (.json e'.2) = .ok e.2 := by
  obtain ⟨read, hread, rfl⟩ := Checked.map_eq_ok.mp h
  obtain ⟨e', hmem, hr⟩ := mem_of_entries hread (Table.mem_ofList he)
  obtain ⟨field, hfield, rfl⟩ := List.mem_map.mp hmem
  exact ⟨field, hfield, hr⟩

/-- A table is read back where each of its values is. -/
theorem dict_obj (value : β → Json) (read : β → α) {t : Table β} (hn : (Table.keys t).Nodup)
    (h : ∀ e ∈ t, r (.json (value e.2)) = .ok (read e.2)) :
    dict r (.json (.obj (t.map fun e => (e.1, value e.2)))) = .ok (t.map fun e => (e.1, read e.2)) := by
  have hview : Source.view (.json (.obj (t.map fun e => (e.1, value e.2)))) =
      .map (t.map fun e => (.text e.1, .json (value e.2))) := by
    simp [Source.view]
  have hkeys : Table.keys (t.map fun e => (e.1, read e.2)) = Table.keys t := by
    simp [Table.keys]
  unfold dict
  rw [hview]
  simp only [entries_map (fun b => .json (value b)) read h, Checked.map_ok]
  rw [Table.ofList_of_nodup (hkeys ▸ hn)]

/-- A record is read by its fields. -/
theorem model_obj (read : Table Source → Checked α) (fields : Table Json) :
    model read (.json (.obj fields)) = read (fields.map fun e => (e.1, .json e.2)) :=
  congrArg read (Source.fieldsOf_text fields)

theorem exists_of_model {read : Table Source → Checked α} {v : Source} {a : α}
    (h : model read v = .ok a) : ∃ fields, read fields = .ok a := by
  unfold model at h
  split at h
  · exact ⟨_, h⟩
  · cases h

theorem exists_of_model_json {read : Table Source → Checked α} {v : Json} {a : α}
    (h : model read (.json v) = .ok a) :
    ∃ fields, v = .obj fields ∧ read (fields.map fun e => (e.1, .json e.2)) = .ok a := by
  cases v with
  | obj fields => exact ⟨fields, rfl, (model_obj read fields).symm.trans h⟩
  | _ => cases h

end Reader

end Conductor
