import Conductor.Table
import Mathlib.Data.List.Nodup

/-! Keys and entries of tables. A table that is written entry by entry has each key once. -/

namespace Conductor.Table

variable {α β : Type}

theorem mem_put {t : Table α} {key : String} {v : α} {e : String × α} (h : e ∈ put t key v) :
    e = (key, v) ∨ e ∈ t := by
  induction t with
  | nil => exact Or.inl (List.mem_singleton.mp h)
  | cons x t ih =>
    by_cases hk : x.1 = key
    · simp only [put, hk, if_true, List.mem_cons] at h
      exact h.imp_right (List.mem_cons_of_mem _)
    · simp only [put, hk, if_false, List.mem_cons] at h
      rcases h with rfl | h
      · exact Or.inr List.mem_cons_self
      · exact (ih h).imp_right (List.mem_cons_of_mem _)

theorem mem_of_get? {t : Table α} {key : String} {v : α} (h : get? t key = some v) : (key, v) ∈ t := by
  induction t with
  | nil => simp at h
  | cons x t ih =>
    by_cases hk : x.1 = key
    · have hv : x.2 = v := by simpa [get?, hk] using h
      exact hk ▸ hv ▸ List.mem_cons_self
    · exact List.mem_cons_of_mem _ (ih (by simpa [get?, hk] using h))

theorem get?_eq_none_iff {t : Table α} {key : String} : get? t key = none ↔ key ∉ keys t := by
  induction t with
  | nil => simp [keys]
  | cons x t ih =>
    unfold keys at ih ⊢
    by_cases hk : x.1 = key
    · simp [get?, hk]
    · simp [get?, hk, Ne.symm hk, ih]

theorem put_of_not_mem {t : Table α} {key : String} (h : key ∉ keys t) (v : α) :
    put t key v = t ++ [(key, v)] := by
  induction t with
  | nil => rfl
  | cons x t ih =>
    have hk : x.1 ≠ key ∧ key ∉ keys t := by
      simpa [keys, eq_comm] using h
    simp only [put, hk.1, if_false, ih hk.2, List.cons_append]

theorem putAll_of_nodup {t entries : Table α} (hn : (keys entries).Nodup)
    (hd : ∀ key ∈ keys entries, key ∉ keys t) : putAll t entries = t ++ entries := by
  induction entries generalizing t with
  | nil => simp [putAll]
  | cons x entries ih =>
    have hx : x.1 ∉ keys t := hd x.1 List.mem_cons_self
    obtain ⟨hnx, hn⟩ := List.nodup_cons.mp hn
    have hrest : ∀ key ∈ keys entries, key ∉ keys (t ++ [x]) := by
      intro key hk hm
      rcases List.mem_append.mp (List.map_append ▸ hm : key ∈ keys t ++ keys [x]) with hm | hm
      · exact hd key (List.mem_cons_of_mem _ hk) hm
      · exact hnx (List.mem_singleton.mp hm ▸ hk)
    calc
      putAll t (x :: entries) = putAll (put t x.1 x.2) entries := rfl
      _ = putAll (t ++ [x]) entries := by rw [put_of_not_mem hx]
      _ = t ++ x :: entries := by rw [ih hn hrest, List.append_assoc, List.singleton_append]

theorem ofList_of_nodup {entries : Table α} (hn : (keys entries).Nodup) : ofList entries = entries :=
  putAll_of_nodup hn fun _ _ => List.not_mem_nil

theorem nodup_keys_put {t : Table α} (h : (keys t).Nodup) (key : String) (v : α) :
    (keys (put t key v)).Nodup := by
  rw [keys_put]
  split
  · exact h
  · next hk => exact List.nodup_append_comm.mp (List.nodup_cons.mpr ⟨hk, h⟩)

theorem nodup_keys_putAll {t : Table α} (h : (keys t).Nodup) (entries : Table α) :
    (keys (putAll t entries)).Nodup := by
  induction entries generalizing t with
  | nil => exact h
  | cons x entries ih => exact ih (nodup_keys_put h x.1 x.2)

theorem mem_putAll {t entries : Table α} {e : String × α} (h : e ∈ putAll t entries) :
    e ∈ t ∨ e ∈ entries := by
  induction entries generalizing t with
  | nil => exact Or.inl h
  | cons x entries ih =>
    rcases ih (t := put t x.1 x.2) h with h | h
    · rcases mem_put h with rfl | h
      · exact Or.inr List.mem_cons_self
      · exact Or.inl h
    · exact Or.inr (List.mem_cons_of_mem _ h)

theorem nodup_keys_ofList (entries : Table α) : (keys (ofList entries)).Nodup :=
  nodup_keys_putAll (t := []) List.nodup_nil entries

theorem mem_ofList {entries : Table α} {e : String × α} (h : e ∈ ofList entries) : e ∈ entries :=
  (mem_putAll h).resolve_left List.not_mem_nil

theorem get?_map (f : α → β) (t : Table α) (key : String) :
    get? (t.map fun e => (e.1, f e.2)) key = (get? t key).map f := by
  induction t with
  | nil => rfl
  | cons x t ih =>
    by_cases h : x.1 = key
    · simp [get?, h]
    · simp [get?, h, ih]

theorem filterMap_get?_keys {t : Table α} (h : (keys t).Nodup) :
    (keys t).filterMap (get? t) = t.map (·.2) := by
  induction t with
  | nil => rfl
  | cons e t ih =>
    obtain ⟨he, hn⟩ := List.nodup_cons.mp h
    have hrest : (keys t).filterMap (get? (e :: t)) = (keys t).filterMap (get? t) := by
      refine List.filterMap_congr fun key hk => ?_
      have hne : e.1 ≠ key := by
        rintro rfl
        exact he hk
      simp [get?, hne]
    have hself : get? (e :: t) e.1 = some e.2 := by simp [get?]
    calc
      (keys (e :: t)).filterMap (get? (e :: t)) = e.2 :: (keys t).filterMap (get? (e :: t)) := by
        rw [show keys (e :: t) = e.1 :: keys t from rfl, List.filterMap_cons, hself]
      _ = (e :: t).map (·.2) := by rw [hrest, ih hn, List.map_cons]

end Conductor.Table
