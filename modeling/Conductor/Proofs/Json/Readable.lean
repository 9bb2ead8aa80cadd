import Conductor.Proofs.Decimal.Canonical
import Conductor.Proofs.Fallible
import Conductor.Proofs.Json.Reading

/-! The values that JSON texts have are those that are read back from their own texts. -/

namespace Conductor.Json

variable {depth : Nat} {s t : List Char} {v : Json}

section Soundness

theorem isDigit_wholeOf (s : List Char) : ∀ c ∈ (wholeOf s).1, c.isDigit = true := by
  unfold wholeOf
  split
  · intro c hc
    rw [List.mem_singleton.mp hc]
    rfl
  · intro c hc
    rw [digitsOf, List.span_eq_takeWhile_dropWhile] at hc
    exact List.mem_takeWhile_imp hc

/-- An integer is not written with more digits than it was read from. -/
theorem readable_of_unsignedNumber {start : List Char} {negative : Bool}
    (h : unsignedNumber start negative s = .ok (v, t)) (depth : Nat) : v.readable depth = true := by
  have hdigits := isDigit_wholeOf s
  unfold unsignedNumber at h
  split at h
  · cases h
  · next whole rest hne hwhole =>
    rw [hwhole] at hdigits
    dsimp only at h
    split at h
    · split at h
      · cases h
      · next hlength =>
        obtain ⟨rfl, -⟩ := Prod.mk.inj (Except.ok.inj h)
        rw [Decimal.takeDigits_eq hdigits 0 0]
        have hle := Decimal.length_natDigits_le hne hdigits
        refine decide_eq_true ?_
        have habs : (if negative then -(Nat.ofDigitChars 10 whole 0 : Int)
            else Nat.ofDigitChars 10 whole 0).natAbs = Nat.ofDigitChars 10 whole 0 := by
          split <;> simp
        rw [habs]
        omega
    · split at h
      · obtain ⟨rfl, -⟩ := Prod.mk.inj (Except.ok.inj h)
        rfl
      · cases h

theorem readable_of_scalar (h : scalar s = .ok (v, t)) (depth : Nat) : v.readable depth = true := by
  unfold scalar at h
  split at h
  case h_7 | h_8 => exact readable_of_unsignedNumber h depth
  all_goals
    obtain ⟨rfl, -⟩ := Prod.mk.inj (Except.ok.inj h)
    rfl

theorem readableFields_iff {fields : List (String × Json)} :
    readableFields depth fields = true ↔ ∀ e ∈ fields, e.2.readable depth = true := by
  induction fields with
  | nil => exact iff_of_true rfl fun _ he => absurd he List.not_mem_nil
  | cons e fields ih => rw [readableFields, Bool.and_eq_true, ih, List.forall_mem_cons]

/-- Of an object's keys only the last field counts, so that no key is there twice. -/
theorem readable_ofList {fields : List (String × Json)} (hdepth : depth < maxDepth)
    (h : readableFields (depth + 1) fields = true) : (obj (Table.ofList fields)).readable depth = true := by
  refine Bool.and_eq_true_iff.mpr ⟨?_, ?_⟩
  · exact Bool.and_eq_true_iff.mpr ⟨decide_eq_true hdepth, decide_eq_true (Table.nodup_keys_ofList fields)⟩
  · exact readableFields_iff.mpr fun e he => readableFields_iff.mp h e (Table.mem_ofList he)

-- Each call of the three takes a unit of fuel, so fuel is what the induction is on.
mutual

theorem readable_of_value : (fuel depth : Nat) → (s : List Char) → (v : Json) → (t : List Char) →
    value depth fuel s = .ok (v, t) → v.readable depth = true
  | 0, _, _, _, _, h => by cases h
  | fuel + 1, depth, s, v, t, h => by
    unfold value at h
    split at h
    · obtain ⟨_, -, heq⟩ := exists_of_map_ok h
      obtain ⟨rfl, -⟩ := Prod.mk.inj heq
      rfl
    · split at h
      · cases h
      · next hdepth =>
        split at h
        · obtain ⟨rfl, -⟩ := Prod.mk.inj (Except.ok.inj h)
          exact Bool.and_eq_true_iff.mpr ⟨decide_eq_true (Nat.lt_of_not_le hdepth), rfl⟩
        · obtain ⟨⟨vs, t'⟩, hvs, heq⟩ := exists_of_map_ok h
          obtain ⟨rfl, -⟩ := Prod.mk.inj heq
          have hitems := readable_of_items fuel (depth + 1) _ vs t' hvs
          exact Bool.and_eq_true_iff.mpr ⟨decide_eq_true (Nat.lt_of_not_le hdepth), hitems⟩
    · split at h
      · cases h
      · next hdepth =>
        split at h
        · obtain ⟨rfl, -⟩ := Prod.mk.inj (Except.ok.inj h)
          have hfields : readableFields (depth + 1) [] = true := rfl
          exact readable_ofList (Nat.lt_of_not_le hdepth) hfields
        · obtain ⟨⟨fs, t'⟩, hfs, heq⟩ := exists_of_map_ok h
          obtain ⟨rfl, -⟩ := Prod.mk.inj heq
          have hfields := readable_of_fields fuel (depth + 1) _ fs t' hfs
          exact readable_ofList (Nat.lt_of_not_le hdepth) hfields
    · exact readable_of_scalar h depth

theorem readable_of_items : (fuel depth : Nat) → (s : List Char) → (vs : List Json) → (t : List Char) →
    items depth fuel s = .ok (vs, t) → readableItems depth vs = true
  | 0, _, _, _, _, h => by cases h
  | fuel + 1, depth, s, vs, t, h => by
    unfold items at h
    split at h
    · cases h
    · next v t' hvalue =>
      have hv := readable_of_value fuel depth s v t' hvalue
      split at h
      · obtain ⟨rfl, -⟩ := Prod.mk.inj (Except.ok.inj h)
        exact Bool.and_eq_true_iff.mpr ⟨hv, rfl⟩
      · obtain ⟨⟨ws, u⟩, hws, heq⟩ := exists_of_map_ok h
        obtain ⟨rfl, -⟩ := Prod.mk.inj heq
        exact Bool.and_eq_true_iff.mpr ⟨hv, readable_of_items fuel depth _ ws u hws⟩
      · cases h

theorem readable_of_fields : (fuel depth : Nat) → (s : List Char) → (fs : List (String × Json)) →
    (t : List Char) → fields depth fuel s = .ok (fs, t) → readableFields depth fs = true
  | 0, _, _, _, _, h => by cases h
  | fuel + 1, depth, s, fs, t, h => by
    unfold fields at h
    split at h
    · split at h
      · cases h
      · split at h
        · split at h
          · cases h
          · next v t' hvalue =>
            have hv := readable_of_value fuel depth _ v t' hvalue
            split at h
            · obtain ⟨rfl, -⟩ := Prod.mk.inj (Except.ok.inj h)
              exact Bool.and_eq_true_iff.mpr ⟨hv, rfl⟩
            · obtain ⟨⟨gs, u⟩, hgs, heq⟩ := exists_of_map_ok h
              obtain ⟨rfl, -⟩ := Prod.mk.inj heq
              exact Bool.and_eq_true_iff.mpr ⟨hv, readable_of_fields fuel depth _ gs u hgs⟩
            · cases h
        · cases h
    · cases h

end

theorem readable_of_parse (h : parse s = .ok v) : v.readable 0 = true := by
  unfold parse at h
  split at h
  · cases h
  · split at h
    · cases h
    · next w t hvalue =>
      split at h
      · obtain rfl := Except.ok.inj h
        exact readable_of_value _ 0 _ w t hvalue
      · cases h

end Soundness

section Back

mutual

theorem mapTexts_id : (depth : Nat) → (v : Json) → v.readable depth = true → v.mapTexts id id = v
  | _, .null, _ | _, .bool _, _ | _, .int _, _ | _, .float _, _ | _, .str _, _ => rfl
  | depth, .arr items, h => by
    have hitems := (Bool.and_eq_true_iff.mp h).2
    exact congrArg Json.arr (mapTextsItems_id (depth + 1) items hitems)
  | depth, .obj fields, h => by
    obtain ⟨hobject, hfields⟩ := Bool.and_eq_true_iff.mp h
    have hnodup : (Table.keys fields).Nodup := of_decide_eq_true (Bool.and_eq_true_iff.mp hobject).2
    rw [mapTexts, mapTextsFields_id (depth + 1) fields hfields, Table.ofList_of_nodup hnodup]

theorem mapTextsItems_id : (depth : Nat) → (items : List Json) → readableItems depth items = true →
    mapTextsItems id id items = items
  | _, [], _ => rfl
  | depth, v :: items, h => by
    obtain ⟨hv, hitems⟩ := Bool.and_eq_true_iff.mp h
    rw [mapTextsItems, mapTexts_id depth v hv, mapTextsItems_id depth items hitems]

theorem mapTextsFields_id : (depth : Nat) → (fields : List (String × Json)) →
    readableFields depth fields = true → mapTextsFields id id fields = fields
  | _, [], _ => rfl
  | depth, (k, v) :: fields, h => by
    obtain ⟨hv, hfields⟩ := Bool.and_eq_true_iff.mp h
    rw [mapTextsFields, mapTexts_id depth v hv, mapTextsFields_id depth fields hfields]
    rfl

end

theorem reads_escaped : Spelling.escaped.Reads id id where
  mark := rfl
  key s := spells_escape s.toList
  text s := spells_escape s.toList

theorem parse_render (h : v.readable 0 = true) : parse v.render = .ok v := by
  rw [← spell_escaped, parse_spell reads_escaped h, mapTexts_id 0 v h]

/-- A value is that of some JSON text exactly if it is that of its own. -/
theorem exists_parse_iff : (∃ s, parse s = .ok v) ↔ parse v.render = .ok v :=
  ⟨fun ⟨_, h⟩ => parse_render (readable_of_parse h), fun h => ⟨_, h⟩⟩

end Back

end Conductor.Json
