import Conductor.Json.Parser
import Conductor.Json.Render
import Mathlib.Tactic.SplitIfs

/-! What stands inside quotes and how it is read: escapes as the characters they stand for, everything
else as itself. -/

namespace Conductor.Json

variable {start t : List Char} {c : Char}

theorem hex?_hexDigit (n : Nat) : hex? (hexDigit n) = some (n % 16) := by
  have hall : ∀ d : Fin 16, hex? (Nat.digitChar d) = some d.val := by decide
  exact hall ⟨n % 16, Nat.mod_lt n (by decide)⟩

theorem unit?_hexDigit {u : Nat} (hu : u < 65536) :
    unit? (hexDigit (u / 4096)) (hexDigit (u / 256)) (hexDigit (u / 16)) (hexDigit u) = some u := by
  simp only [unit?, hex?_hexDigit, Option.bind_eq_bind, Option.bind_some, Option.pure_def]
  congr 1
  omega

theorem stringRest_quote : stringRest start ('"' :: t) = .ok ([], t) := by
  rw [stringRest, if_pos rfl]

theorem stringRest_plain (hquote : c ≠ '"') (hslash : c ≠ '\\') (hc : 32 ≤ c.toNat) :
    stringRest start (c :: t) = push c (stringRest start t) := by
  rw [stringRest, if_neg hquote, if_neg hslash, if_neg (Nat.not_lt.mpr hc)]

theorem stringRest_escaped {rest : List Char} (h : escaped start t = .ok (c, rest)) :
    stringRest start ('\\' :: t) = push c (stringRest start rest) := by
  rw [stringRest, if_neg (by decide), if_pos rfl]
  split
  · next f hf => cases h.symm.trans hf
  · next x rest' hx =>
    cases h.symm.trans hx
    rfl

theorem escaped_simple {x : Char} (hu : c ≠ 'u') (h : simpleEscape? c = some x) :
    escaped start (c :: t) = .ok (x, t) := by
  unfold escaped
  split
  · contradiction
  · next heq => exact absurd (List.cons.inj heq).1 hu
  · next heq => exact absurd (List.cons.inj heq).1 hu
  · next heq =>
    cases heq
    rw [h]

/-- The reader takes the escape of a unit only when something comes after it. -/
theorem escaped_unit (start : List Char) {u : Nat} (hu : u < 65536) (hhigh : isHighUnit u = false)
    (ht : t ≠ []) : escaped start ((escapeUnit u).tail ++ t) = .ok (charOfUnit u, t) := by
  obtain ⟨x, t, rfl⟩ := List.exists_cons_of_ne_nil ht
  simp only [escapeUnit, List.tail_cons, List.cons_append, List.nil_append, escaped, unit?_hexDigit hu,
    hhigh, Bool.false_eq_true, if_false]

theorem escaped_pair (start : List Char) {high low : Nat} (hhigh : isHighUnit high = true)
    (hlow : isLowUnit low = true) (ht : t ≠ []) :
    escaped start ((escapeUnit high).tail ++ (escapeUnit low ++ t)) = .ok (charOfPair high low, t) := by
  have hbounds : high < 65536 ∧ low < 65536 := by
    simp only [isHighUnit, isLowUnit, Bool.and_eq_true, decide_eq_true_eq] at hhigh hlow
    omega
  obtain ⟨x, t, rfl⟩ := List.exists_cons_of_ne_nil ht
  simp only [escapeUnit, List.tail_cons, List.cons_append, List.nil_append, escaped, pairRest,
    unit?_hexDigit hbounds.1, unit?_hexDigit hbounds.2, hhigh, hlow, if_true]

theorem not_surrogate (c : Char) : isHighUnit c.toNat = false ∧ isLowUnit c.toNat = false := by
  have hvalid : c.toNat < 0xD800 ∨ 0xDFFF < c.toNat ∧ c.toNat < 0x110000 := c.valid
  simp only [isHighUnit, isLowUnit, Bool.and_eq_false_iff, decide_eq_false_iff_not]
  omega

theorem charOfUnit_toNat (c : Char) : charOfUnit c.toNat = c := by
  obtain ⟨hhigh, hlow⟩ := not_surrogate c
  simp [charOfUnit, hhigh, hlow, Char.ofNat_toNat]

/-- The pair of units by which a character beyond them is written. -/
theorem pair_units (hc : 65536 ≤ c.toNat) :
    isHighUnit (0xD800 + (c.toNat - 65536) / 1024) = true ∧
      isLowUnit (0xDC00 + (c.toNat - 65536) % 1024) = true ∧
        charOfPair (0xD800 + (c.toNat - 65536) / 1024) (0xDC00 + (c.toNat - 65536) % 1024) = c := by
  have hlt : c.toNat < 0x110000 := by
    have hvalid : c.toNat < 0xD800 ∨ 0xDFFF < c.toNat ∧ c.toNat < 0x110000 := c.valid
    omega
  have hsum : 0x10000 + (0xD800 + (c.toNat - 65536) / 1024 - 0xD800) * 1024
      + (0xDC00 + (c.toNat - 65536) % 1024 - 0xDC00) = c.toNat := by omega
  refine ⟨?_, ?_, ?_⟩
  · simp only [isHighUnit, Bool.and_eq_true, decide_eq_true_eq]
    omega
  · simp only [isLowUnit, Bool.and_eq_true, decide_eq_true_eq]
    omega
  · rw [charOfPair, hsum, Char.ofNat_toNat]

/-- Inside quotes `written` is read as `read`, whatever follows; a quote at least does. -/
def Spells (written read : List Char) : Prop :=
  ∀ start t : List Char, t ≠ [] →
    stringRest start (written ++ t) = (stringRest start t).map fun r => (read ++ r.1, r.2)

namespace Spells

variable {a b x y : List Char}

theorem nil : Spells [] [] := by
  intro start t _
  rw [List.nil_append]
  cases stringRest start t <;> rfl

theorem append (ha : Spells a x) (hb : Spells b y) : Spells (a ++ b) (x ++ y) := by
  intro start t ht
  have hbt : b ++ t ≠ [] := List.append_ne_nil_of_right_ne_nil b ht
  rw [List.append_assoc, ha start _ hbt, hb start t ht]
  cases stringRest start t with
  | error f => rfl
  | ok r => simp only [Except.map, List.append_assoc]

theorem flatMap {α : Type} {written read : α → List Char} {xs : List α}
    (h : ∀ x ∈ xs, Spells (written x) (read x)) : Spells (xs.flatMap written) (xs.flatMap read) := by
  induction xs with
  | nil => exact nil
  | cons x xs ih =>
    exact append (h x List.mem_cons_self) (ih fun y hy => h y (List.mem_cons_of_mem _ hy))

theorem of_push (h : ∀ start t : List Char, t ≠ [] →
    stringRest start (a ++ t) = push c (stringRest start t)) : Spells a [c] := by
  intro start t ht
  exact h start t ht

theorem close (h : Spells a x) (start t : List Char) : stringRest start (a ++ '"' :: t) = .ok (x, t) := by
  rw [h start _ (List.cons_ne_nil _ _), stringRest_quote]
  simp [Except.map]

end Spells

theorem spells_escapeChar (c : Char) : Spells (escapeChar c) [c] := by
  refine Spells.of_push fun start t ht => ?_
  -- A letter after the backslash.
  have hsimple {x : Char} (d : Char) (hu : d ≠ 'u') (hd : simpleEscape? d = some x) :
      stringRest start (['\\', d] ++ t) = push x (stringRest start t) :=
    stringRest_escaped (escaped_simple hu hd)
  have hcode {n : Nat} {d : Char} (hn : c.toNat = n) (hd : d.toNat = n) : d = c :=
    Char.toNat_inj.mp (hd.trans hn.symm)
  unfold escapeChar
  split_ifs with h₁ h₂ h₃ h₄ h₅ h₆ h₇ hplain hunit
  · exact h₁ ▸ hsimple '"' (by decide) rfl
  · exact h₂ ▸ hsimple '\\' (by decide) rfl
  · exact h₃ ▸ hsimple 'n' (by decide) rfl
  · exact h₄ ▸ hsimple 'r' (by decide) rfl
  · exact h₅ ▸ hsimple 't' (by decide) rfl
  · exact hcode h₆ (d := '\x08') rfl ▸ hsimple 'b' (by decide) rfl
  · exact hcode h₇ (d := '\x0c') rfl ▸ hsimple 'f' (by decide) rfl
  · exact stringRest_plain h₁ h₂ hplain.1
  · have hread := escaped_unit start hunit (not_surrogate c).1 ht
    rw [charOfUnit_toNat] at hread
    exact stringRest_escaped hread
  · -- Beyond the units: a pair of them, which the reader joins.
    obtain ⟨hhigh, hlow, hchar⟩ := pair_units (Nat.not_lt.mp hunit)
    have hread := escaped_pair start hhigh hlow ht
    rw [hchar] at hread
    rw [List.append_assoc]
    exact stringRest_escaped hread

theorem spells_escape (s : List Char) : Spells (escape s) s := by
  have h : Spells (s.flatMap escapeChar) (s.flatMap fun c => [c]) := .flatMap fun c _ => spells_escapeChar c
  rwa [List.flatMap_singleton' s] at h

/-- A character that stands for itself inside quotes. -/
def isHarmless (c : Char) : Bool := c ≠ '"' && c ≠ '\\' && 32 ≤ c.toNat

theorem spells_harmless {s : List Char} (h : s.all isHarmless = true) : Spells s s := by
  have hone : ∀ c ∈ s, Spells [c] [c] := by
    intro c hc
    have hc := List.all_eq_true.mp h c hc
    simp only [isHarmless, Bool.and_eq_true, decide_eq_true_eq] at hc
    exact Spells.of_push fun start t _ => stringRest_plain hc.1.1 hc.1.2 hc.2
  have h := Spells.flatMap hone
  rwa [List.flatMap_singleton' s] at h

end Conductor.Json
