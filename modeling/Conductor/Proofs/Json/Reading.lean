import Conductor.Proofs.Json.Number
import Conductor.Proofs.Json.Quoted
import Conductor.Proofs.Json.Spelling
import Conductor.Proofs.Table

/-! Values are read back from their JSON texts, also from such in which keys and texts are spelled in
another way. -/

namespace Conductor.Json

mutual

/-- What the reader can give inside of `depth` lists and objects: no key twice, no integer too long, no
nesting too deep. -/
def readable (depth : Nat) : Json → Bool
  | .int n => (Decimal.natDigits n.natAbs).length ≤ Decimal.maxDigits
  | .arr items => depth < maxDepth && readableItems (depth + 1) items
  | .obj fields => depth < maxDepth && (Table.keys fields).Nodup && readableFields (depth + 1) fields
  | _ => true

def readableItems (depth : Nat) : List Json → Bool
  | [] => true
  | v :: items => readable depth v && readableItems depth items

def readableFields (depth : Nat) : List (String × Json) → Bool
  | [] => true
  | (_, v) :: fields => readable depth v && readableFields depth fields

end

mutual

/-- The value with its keys and texts replaced. Of keys that become equal the last value counts. -/
def mapTexts (key text : String → String) : Json → Json
  | .str s => .str (text s)
  | .arr items => .arr (mapTextsItems key text items)
  | .obj fields => .obj (Table.ofList (mapTextsFields key text fields))
  | v => v

def mapTextsItems (key text : String → String) : List Json → List Json
  | [] => []
  | v :: items => mapTexts key text v :: mapTextsItems key text items

def mapTextsFields (key text : String → String) : List (String × Json) → List (String × Json)
  | [] => []
  | (k, v) :: fields => (key k, mapTexts key text v) :: mapTextsFields key text fields

end

section Reads

variable {depth fuel : Nat} {written : List Char} {v : Json}

/-- What begins a text, a list or an object is no scalar. -/
theorem value_of_scalar {s : List Char} {r : Json × List Char} (h : scalar s = .ok r) :
    value depth (fuel + 1) s = .ok r := by
  cases s with
  | nil => cases h
  | cons c t =>
    have hc : c ≠ '"' ∧ c ≠ '[' ∧ c ≠ '\x7b' := by
      refine Decidable.byContradiction fun hnot => ?_
      have hcases : c = '"' ∨ c = '[' ∨ c = '\x7b' := by grind
      have hfail : scalar (c :: t) = fail .value (c :: t) := by
        rcases hcases with rfl | rfl | rfl <;> rfl
      cases hfail.symm.trans h
    rw [value]
    · exact h
    · exact fun _ heq => hc.1 (List.cons.inj heq).1
    · exact fun _ heq => hc.2.1 (List.cons.inj heq).1
    · exact fun _ heq => hc.2.2 (List.cons.inj heq).1

/-- A value begins with no blank, no closing bracket and no byte order mark. -/
theorem head_of_value {c : Char} {t : List Char} {r : Json × List Char}
    (h : value depth fuel (c :: t) = .ok r) : isSpace c = false ∧ c ≠ ']' ∧ c ≠ '\ufeff' := by
  refine Decidable.byContradiction fun hnot => ?_
  have hcases : c = ' ' ∨ c = '\t' ∨ c = '\n' ∨ c = '\r' ∨ c = ']' ∨ c = '\ufeff' := by
    simp only [isSpace] at hnot
    grind
  cases fuel with
  | zero => cases h
  | succ fuel =>
    have hfail : value depth (fuel + 1) (c :: t) = fail .value (c :: t) := by
      rcases hcases with rfl | rfl | rfl | rfl | rfl | rfl <;> rfl
    cases hfail.symm.trans h

/-- Inside of `depth` lists and objects `written` is read as `v`, if no number is carried on. -/
def Reads (depth : Nat) (written : List Char) (v : Json) : Prop :=
  ∀ (fuel : Nat) (rest : List Char), 2 * written.length ≤ fuel → stops rest = true →
    value depth fuel (written ++ rest) = .ok (v, rest)

theorem Reads.exists_cons (h : Reads depth written v) : ∃ c t, written = c :: t ∧
    isSpace c = false ∧ c ≠ ']' ∧ c ≠ '\ufeff' := by
  have hvalue := h (2 * written.length) [] (Nat.le_refl _) rfl
  cases written with
  | nil => cases hvalue
  | cons c t => exact ⟨c, t, rfl, head_of_value hvalue⟩

theorem Reads.skip (h : Reads depth written v) (rest : List Char) :
    skip (written ++ rest) = written ++ rest := by
  obtain ⟨c, t, rfl, hc, -⟩ := h.exists_cons
  exact List.dropWhile_cons_of_neg (Bool.eq_false_iff.mp hc)

theorem Reads.ne_close (h : Reads depth written v) (rest t : List Char) : written ++ rest ≠ ']' :: t := by
  obtain ⟨c, u, rfl, -, hc, -⟩ := h.exists_cons
  exact fun heq => hc (List.cons.inj heq).1

/-- The first character takes a unit of fuel, and leaves enough for the others. -/
theorem reads_of_cons {c : Char} {t : List Char} (h : ∀ (fuel : Nat) (rest : List Char),
    2 * t.length < fuel → stops rest = true → value depth (fuel + 1) (c :: (t ++ rest)) = .ok (v, rest)) :
    Reads depth (c :: t) v := by
  intro fuel rest hfuel hrest
  rw [List.length_cons] at hfuel
  obtain ⟨fuel, rfl⟩ : ∃ n, fuel = n + 1 := Nat.exists_eq_succ_of_ne_zero (by omega)
  exact h fuel rest (by omega) hrest

end Reads

/-- Every key and every text is read as something when it is spelled out inside quotes. -/
structure Spelling.Reads (w : Spelling Char) (key text : String → String) : Prop where
  mark : w.mark = id
  key (s : String) : Spells (w.key s) (key s).toList
  text (s : String) : Spells (w.text s) (text s).toList

variable {w : Spelling Char} {key text : String → String} {depth : Nat}

theorem Spelling.Reads.quoted (hw : w.Reads key text) (s t : List Char) :
    w.quoted s ++ t = '"' :: (s ++ '"' :: t) := by
  simp [Spelling.quoted, hw.mark]

theorem reads_text (hw : w.Reads key text) (s : String) :
    Reads depth (w.quoted (w.text s)) (.str (text s)) := by
  have htext : w.quoted (w.text s) = '"' :: (w.text s ++ ['"']) := by simp [Spelling.quoted, hw.mark]
  rw [htext]
  refine reads_of_cons fun fuel rest _ _ => ?_
  rw [List.append_assoc, value]
  change ((stringRest _ (w.text s ++ '"' :: rest)).map _ : Step Json) = _
  rw [(hw.text s).close]
  simp [Except.map]

theorem stops_spellItems (hw : w.Reads key text) (vs : List Json) (rest : List Char) :
    stops (spellItems w vs ++ rest) = true := by
  cases vs <;> simp only [spellItems, hw.mark] <;> rfl

theorem stops_spellFields (hw : w.Reads key text) (fields : List (String × Json)) (rest : List Char) :
    stops (spellFields w fields ++ rest) = true := by
  cases fields <;> simp only [spellFields, hw.mark] <;> rfl

/-- A list is read where its items are. -/
theorem items_spell (hw : w.Reads key text) {v : Json} {vs : List Json}
    (h : ∀ x ∈ v :: vs, Reads depth (x.spell w) (x.mapTexts key text)) (fuel : Nat) (rest : List Char)
    (hfuel : 2 * (v.spell w ++ spellItems w vs).length < fuel) :
    items depth fuel (v.spell w ++ (spellItems w vs ++ rest)) =
      .ok (mapTextsItems key text (v :: vs), rest) := by
  -- Induction on the items after `v`: what is read of `v` ends where the next one begins.
  obtain ⟨fuel, rfl⟩ : ∃ n, fuel = n + 1 := Nat.exists_eq_succ_of_ne_zero (by omega)
  have hv := h v List.mem_cons_self fuel _ (by simp at hfuel; omega) (stops_spellItems hw vs rest)
  induction vs generalizing v fuel with
  | nil =>
    rw [items, hv]
    simp only [spellItems, hw.mark]
    rfl
  | cons x xs ih =>
    have hrest := stops_spellItems hw xs rest
    have hx := h x (List.mem_cons_of_mem _ List.mem_cons_self)
    have hblank : skip (' ' :: (x.spell w ++ (spellItems w xs ++ rest))) =
        x.spell w ++ (spellItems w xs ++ rest) := hx.skip _
    have hcomma : spellItems w (x :: xs) ++ rest =
        ',' :: ' ' :: (x.spell w ++ (spellItems w xs ++ rest)) := by
      simp only [spellItems, hw.mark, id_eq, List.cons_append, List.append_assoc]
    have hlength : 2 * (x.spell w ++ spellItems w xs).length + 2 < fuel := by
      simp only [spellItems, List.length_append, List.length_cons] at hfuel ⊢
      omega
    obtain ⟨fuel, rfl⟩ : ∃ n, fuel = n + 1 := Nat.exists_eq_succ_of_ne_zero (by omega)
    have hxs := ih (fun y hy => h y (List.mem_cons_of_mem _ hy)) fuel (by omega)
      (hx fuel _ (by simp at hlength; omega) hrest)
    rw [items, hv, hcomma]
    change (items depth (fuel + 1) (skip (' ' :: (x.spell w ++ (spellItems w xs ++ rest))))).map _ = _
    rw [hblank, hxs]
    rfl

/-- What comes after a field that has been read. -/
def afterField (depth fuel : Nat) (field : String × Json) (t : List Char) : Step (List (String × Json)) :=
  match skip t with
  | '\x7d' :: t => .ok ([field], t)
  | ',' :: t => (fields depth fuel (skip t)).map fun r => (field :: r.1, r.2)
  | t => fail .comma t

theorem fields_field (hw : w.Reads key text) (k : String) {written t : List Char} {v : Json}
    (h : Reads depth written v) (ht : stops t = true) (fuel : Nat) (hfuel : 2 * written.length ≤ fuel) :
    fields depth (fuel + 1) (w.quoted (w.key k) ++ (':' :: ' ' :: (written ++ t))) =
      afterField depth fuel (key k, v) t := by
  have hkey (start : List Char) : stringRest start (w.key k ++ '"' :: ':' :: ' ' :: (written ++ t)) =
      .ok ((key k).toList, ':' :: ' ' :: (written ++ t)) := (hw.key k).close start _
  have hblank : skip (' ' :: (written ++ t)) = written ++ t := h.skip _
  have hcolon : skip (':' :: ' ' :: (written ++ t)) = ':' :: ' ' :: (written ++ t) := rfl
  rw [hw.quoted, fields, hkey]
  simp only [hcolon, hblank, h fuel t hfuel ht, String.ofList_toList]
  rfl

theorem fields_spell (hw : w.Reads key text) {k : String} {v : Json} {fs : List (String × Json)}
    (h : ∀ e ∈ (k, v) :: fs, Reads depth (e.2.spell w) (e.2.mapTexts key text)) (fuel : Nat)
    (rest : List Char)
    (hfuel : 2 * (w.quoted (w.key k) ++ (':' :: ' ' :: (v.spell w ++ spellFields w fs))).length < fuel) :
    fields depth fuel (w.quoted (w.key k) ++ (':' :: ' ' :: (v.spell w ++ (spellFields w fs ++ rest)))) =
      .ok (mapTextsFields key text ((k, v) :: fs), rest) := by
  -- Induction on the fields after the first one, as for items.
  obtain ⟨fuel, rfl⟩ : ∃ n, fuel = n + 1 := Nat.exists_eq_succ_of_ne_zero (by omega)
  have hv : Reads depth (v.spell w) (v.mapTexts key text) := h (k, v) List.mem_cons_self
  have hfield := fields_field hw k hv (stops_spellFields hw fs rest) fuel (by simp at hfuel; omega)
  induction fs generalizing k v fuel with
  | nil =>
    rw [hfield]
    simp only [spellFields, hw.mark]
    rfl
  | cons e es ih =>
    obtain ⟨name, x⟩ := e
    have hcomma : spellFields w ((name, x) :: es) ++ rest = ',' :: ' ' :: (w.quoted (w.key name) ++
        (':' :: ' ' :: (x.spell w ++ (spellFields w es ++ rest)))) := by
      simp only [spellFields, hw.mark, id_eq, List.cons_append, List.append_assoc, List.nil_append]
    have hlength : 2 * (w.quoted (w.key name) ++ (':' :: ' ' :: (x.spell w ++ spellFields w es))).length + 2
        < fuel := by
      simp only [spellFields, List.length_append, List.length_cons, List.length_nil] at hfuel ⊢
      omega
    obtain ⟨fuel, rfl⟩ : ∃ n, fuel = n + 1 := Nat.exists_eq_succ_of_ne_zero (by omega)
    have hx : Reads depth (x.spell w) (x.mapTexts key text) :=
      h (name, x) (List.mem_cons_of_mem _ List.mem_cons_self)
    have hes := ih (fun e he => h e (List.mem_cons_of_mem _ he)) fuel (by omega) hx
      (fields_field hw name hx (stops_spellFields hw es rest) fuel (by simp at hlength; omega))
    -- The next key begins with its quote, which is no blank.
    have hblank : skip (' ' :: (w.quoted (w.key name) ++
        (':' :: ' ' :: (x.spell w ++ (spellFields w es ++ rest))))) = w.quoted (w.key name) ++
        (':' :: ' ' :: (x.spell w ++ (spellFields w es ++ rest))) := by
      rw [hw.quoted]
      rfl
    rw [hfield, hcomma]
    change (fields depth (fuel + 1) (skip (' ' :: _))).map _ = _
    rw [hblank, hes]
    rfl

theorem reads_list (hw : w.Reads key text) (hdepth : depth < maxDepth) {vs : List Json}
    (h : ∀ x ∈ vs, Reads (depth + 1) (x.spell w) (x.mapTexts key text)) :
    Reads depth (spell w (.arr vs)) (.arr (mapTextsItems key text vs)) := by
  cases vs with
  | nil =>
    rw [spell, hw.mark]
    refine reads_of_cons fun fuel rest _ _ => ?_
    rw [id_eq, value, if_neg (Nat.not_le.mpr hdepth)]
    rfl
  | cons v vs =>
    have hv := h v List.mem_cons_self
    rw [spell, hw.mark, List.cons_append]
    refine reads_of_cons fun fuel rest hfuel _ => ?_
    rw [id_eq, List.append_assoc, value, if_neg (Nat.not_le.mpr hdepth), hv.skip]
    split
    · next t heq => exact absurd heq (hv.ne_close _ t)
    · rw [items_spell hw h fuel rest hfuel]
      rfl

theorem reads_object (hw : w.Reads key text) (hdepth : depth < maxDepth) {fs : List (String × Json)}
    (h : ∀ e ∈ fs, Reads (depth + 1) (e.2.spell w) (e.2.mapTexts key text)) :
    Reads depth (spell w (.obj fs)) (.obj (Table.ofList (mapTextsFields key text fs))) := by
  cases fs with
  | nil =>
    rw [spell, hw.mark]
    refine reads_of_cons fun fuel rest _ _ => ?_
    rw [id_eq, value, if_neg (Nat.not_le.mpr hdepth)]
    rfl
  | cons e fs =>
    obtain ⟨k, v⟩ := e
    have htext : spell w (.obj ((k, v) :: fs)) = '\x7b' :: (w.quoted (w.key k) ++
        (':' :: ' ' :: (v.spell w ++ spellFields w fs))) := by
      simp only [spell, hw.mark, id_eq, List.cons_append, List.append_assoc, List.nil_append]
    rw [htext]
    refine reads_of_cons fun fuel rest hfuel _ => ?_
    have hfields := fields_spell hw h fuel rest hfuel
    simp only [List.append_assoc, List.cons_append]
    rw [value, if_neg (Nat.not_le.mpr hdepth)]
    rw [hw.quoted] at hfields ⊢
    change (fields (depth + 1) fuel ('"' :: _)).map _ = _
    rw [hfields]
    rfl

theorem reads_scalar {written : List Char} {v : Json}
    (h : ∀ rest, stops rest = true → scalar (written ++ rest) = .ok (v, rest)) : Reads depth written v := by
  cases written with
  | nil => cases h [] rfl
  | cons c t => exact reads_of_cons fun _ rest _ hrest => value_of_scalar (h rest hrest)

mutual

theorem reads_spell (hw : w.Reads key text) : (depth : Nat) → (v : Json) → v.readable depth = true →
    Reads depth (v.spell w) (v.mapTexts key text)
  | _, .null, _ | _, .bool true, _ | _, .bool false, _ => by
    rw [spell, hw.mark, List.map_id]
    exact reads_scalar fun _ _ => rfl
  | _, .int n, h => by
    rw [spell, hw.mark, List.map_id]
    exact reads_scalar fun _ hrest => scalar_intDigits (of_decide_eq_true h) hrest
  | _, .float x, _ => by
    rw [spell, hw.mark, List.map_id]
    exact reads_scalar fun _ hrest => scalar_float x hrest
  | _, .str s, _ => reads_text hw s
  | depth, .arr items, h => by
    obtain ⟨hdepth, hitems⟩ := Bool.and_eq_true_iff.mp h
    exact reads_list hw (of_decide_eq_true hdepth) (reads_spellItems hw (depth + 1) items hitems)
  | depth, .obj fields, h => by
    obtain ⟨hobject, hfields⟩ := Bool.and_eq_true_iff.mp h
    have hdepth := (Bool.and_eq_true_iff.mp hobject).1
    exact reads_object hw (of_decide_eq_true hdepth) (reads_spellFields hw (depth + 1) fields hfields)

theorem reads_spellItems (hw : w.Reads key text) : (depth : Nat) → (items : List Json) →
    readableItems depth items = true → ∀ v ∈ items, Reads depth (v.spell w) (v.mapTexts key text)
  | _, [], _ => fun _ hv => absurd hv List.not_mem_nil
  | depth, v :: items, h => by
    obtain ⟨hv, hitems⟩ := Bool.and_eq_true_iff.mp h
    exact List.forall_mem_cons.mpr ⟨reads_spell hw depth v hv, reads_spellItems hw depth items hitems⟩

theorem reads_spellFields (hw : w.Reads key text) : (depth : Nat) → (fields : List (String × Json)) →
    readableFields depth fields = true → ∀ e ∈ fields, Reads depth (e.2.spell w) (e.2.mapTexts key text)
  | _, [], _ => fun _ he => absurd he List.not_mem_nil
  | depth, (_, v) :: fields, h => by
    obtain ⟨hv, hfields⟩ := Bool.and_eq_true_iff.mp h
    exact List.forall_mem_cons.mpr ⟨reads_spell hw depth v hv, reads_spellFields hw depth fields hfields⟩

end

/-- The whole text of a value is read as the value with its keys and texts read. -/
theorem parse_spell (hw : w.Reads key text) {v : Json} (h : v.readable 0 = true) :
    parse (v.spell w) = .ok (v.mapTexts key text) := by
  have hv := reads_spell hw 0 v h
  have hvalue := hv (2 * (v.spell w).length + 2) [] (by omega) rfl
  have hskip := hv.skip []
  rw [List.append_nil] at hvalue hskip
  obtain ⟨c, t, heq, -, -, hmark⟩ := hv.exists_cons
  have hhead : (v.spell w).head? ≠ some '\ufeff' := by
    rw [heq]
    exact fun h => hmark (Option.some.inj h)
  rw [parse, if_neg hhead, hskip, hvalue]
  rfl

end Conductor.Json
