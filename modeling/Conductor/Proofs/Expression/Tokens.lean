import Conductor.Proofs.Expression.Cut
import Conductor.Proofs.Json.Number
import Conductor.Proofs.Json.Spelling
import Conductor.Proofs.Text.Parts

/-! The JSON text of a value as a row of characters and of texts that are still to be escaped. -/

namespace Conductor.Json

inductive Token where
  | mark (c : Char)
  | text (s : String)
deriving Repr, DecidableEq

/-- How the token stands in a JSON text. -/
def Token.source : Token → List Char
  | .mark c => [c]
  | .text s => escape s.toList

/-- Keys and texts as tokens of their own. -/
def Spelling.tokens : Spelling Token := ⟨.mark, fun s => [.text s], fun s => [.text s]⟩

def tokens (v : Json) : List Token := v.spell .tokens

/-- A text of the value, or a key of it. -/
def Holds (v : Json) (s : String) : Prop := .text s ∈ v.tokens

theorem flatMap_source_tokens (v : Json) : v.tokens.flatMap Token.source = v.render := by
  have hspelling : Spelling.tokens.flatMap id Token.source = .escaped := by
    simp [Spelling.tokens, Spelling.flatMap, Spelling.escaped, Token.source]
  have hmark (c : Char) : Token.source (Spelling.tokens.mark c) = [id c] := rfl
  rw [tokens, flatMap_spell hmark v, hspelling, spell_escaped]

section Holding

variable {s key : String} {v : Json} {items : List Json} {fields : List (String × Json)}

theorem holds_str : (str s).Holds s := by
  simp [Holds, tokens, spell, Spelling.quoted, Spelling.tokens]

theorem mem_spellItems_of_mem (hv : v ∈ items) (h : v.Holds s) : .text s ∈ spellItems .tokens items := by
  induction items with
  | nil => exact absurd hv List.not_mem_nil
  | cons item items ih =>
    rw [spellItems, List.mem_append]
    rcases List.mem_cons.mp hv with rfl | hv
    · exact .inl (List.mem_cons_of_mem _ (List.mem_cons_of_mem _ h))
    · exact .inr (ih hv)

theorem Holds.arr (hv : v ∈ items) (h : v.Holds s) : (arr items).Holds s := by
  cases items with
  | nil => exact absurd hv List.not_mem_nil
  | cons item items =>
    rw [Holds, tokens, spell, List.mem_append]
    rcases List.mem_cons.mp hv with rfl | hv
    · exact .inl (List.mem_cons_of_mem _ h)
    · exact .inr (mem_spellItems_of_mem hv h)

theorem mem_spellFields_of_mem (he : (key, v) ∈ fields) (h : s = key ∨ v.Holds s) :
    .text s ∈ spellFields .tokens fields := by
  induction fields with
  | nil => exact absurd he List.not_mem_nil
  | cons e fields ih =>
    obtain ⟨k, w⟩ := e
    rw [spellFields, List.mem_append]
    rcases List.mem_cons.mp he with heq | he
    · obtain ⟨rfl, rfl⟩ := Prod.mk.inj heq
      refine .inl (List.mem_append.mpr (h.imp (fun hs => ?_) id))
      simp [hs, Spelling.quoted, Spelling.tokens]
    · exact .inr (ih he)

theorem Holds.obj (he : (key, v) ∈ fields) (h : s = key ∨ v.Holds s) : (obj fields).Holds s := by
  cases fields with
  | nil => exact absurd he List.not_mem_nil
  | cons e fields =>
    obtain ⟨k, w⟩ := e
    rw [Holds, tokens, spell, List.mem_append]
    rcases List.mem_cons.mp he with heq | he
    · obtain ⟨rfl, rfl⟩ := Prod.mk.inj heq
      refine .inl (List.mem_append.mpr (h.imp (fun hs => ?_) id))
      simp [hs, Spelling.quoted, Spelling.tokens]
    · exact .inr (mem_spellFields_of_mem he h)

end Holding

section Braces

/-- What every marker begins with. -/
def opening : List Char := ['\x7b', '\x7b']

variable {s x : List Char} {c : Char}

theorem not_infix_of_not_mem (h : '\x7b' ∉ s) : ¬ opening <:+: s :=
  fun hoccurs => h (hoccurs.subset List.mem_cons_self)

/-- Any other character keeps braces apart. -/
theorem not_infix_append_cons (hc : c ≠ '\x7b') {y : List Char} (hx : ¬ opening <:+: x)
    (hy : ¬ opening <:+: y) : ¬ opening <:+: x ++ c :: y := by
  have hout : c ∉ opening := by
    simpa [opening] using hc
  rw [Text.infix_append_cons_iff hout]
  exact not_or.mpr ⟨hx, hy⟩

theorem infix_of_infix_escape (h : opening <:+: escape s) : opening <:+: s := by
  induction s with
  | nil => exact h
  | cons c s ih =>
    by_cases hc : c = '\x7b'
    · subst hc
      rw [escape_cons_brace (.inl rfl)] at h
      rcases List.infix_cons_iff.mp h with h | h
      · obtain ⟨rest, hrest⟩ := (List.cons_prefix_cons.mp h).2
        obtain ⟨s₁, s₂, rfl, hnil, -⟩ := exists_of_escape_eq (.inl rfl) (i := []) List.not_mem_nil hrest.symm
        obtain rfl := escape_eq_nil hnil.symm
        exact (List.prefix_append opening s₂).isInfix
      · exact List.infix_cons_iff.mpr (.inr (ih h))
    · -- The escape of `c` ends with a character that is no brace.
      have hnot := brace_not_mem_escapeChar (.inl rfl) hc
      refine List.infix_cons_iff.mpr (.inr (ih (Decidable.byContradiction fun hs => ?_)))
      obtain ⟨a, d, hd⟩ : ∃ a d, escapeChar c = a ++ [d] :=
        ⟨_, _, (List.dropLast_concat_getLast (escapeChar_ne_nil c)).symm⟩
      rw [hd] at hnot
      obtain ⟨ha, hne⟩ := not_or.mp (mt List.mem_append.mpr hnot)
      rw [escape_cons, hd, List.append_assoc] at h
      exact not_infix_append_cons (fun heq => hne (heq ▸ List.mem_singleton_self _))
        (not_infix_of_not_mem ha) hs h

theorem brace_not_mem_digits (h : ∀ c ∈ s, c.isDigit = true) : '\x7b' ∉ s := by
  intro hm
  cases h _ hm

theorem brace_not_mem_exponent {tail : List Char} {e : Int} (h : Decimal.ExponentPart tail e) :
    '\x7b' ∉ tail := by
  cases h with
  | none => exact List.not_mem_nil
  | up _ hds | down _ hds => simpa using brace_not_mem_digits hds

theorem brace_not_mem_numeral (n : Decimal.Numeral) : '\x7b' ∉ n.text := by
  have hfraction : '\x7b' ∉ Decimal.pointed n.fraction := by
    have hds := brace_not_mem_digits n.isDigit_fraction
    cases hf : n.fraction with
    | nil => exact List.not_mem_nil
    | cons d ds => simpa [Decimal.pointed, hf] using hds
  rw [Decimal.Numeral.text, List.mem_append, List.mem_append]
  exact not_or.mpr ⟨brace_not_mem_digits n.isDigit_whole,
    not_or.mpr ⟨hfraction, brace_not_mem_exponent n.exponentPart⟩⟩

theorem brace_not_mem_float (x : Float) : '\x7b' ∉ Decimal.render .json x := by
  have hsign : '\x7b' ∉ (if Decimal.isNegative x then ['-'] else []) := by
    split <;> decide
  by_cases hx : x.isNaN = true
  · rw [Decimal.render, if_pos hx]
    decide
  · have hx := Bool.eq_false_iff.mpr hx
    by_cases hfinite : Decimal.isFinite x = true
    · obtain ⟨n, htext, -⟩ := Decimal.exists_numeral_render .json hfinite hx
      rw [htext, List.mem_append]
      exact not_or.mpr ⟨hsign, brace_not_mem_numeral n⟩
    · have hinfinity : '\x7b' ∉ Decimal.Style.json.infinity.toList := by decide
      unfold Decimal.render
      rw [hx, Bool.eq_false_iff.mpr hfinite]
      simp only [Bool.false_eq_true, if_false, Bool.not_false, if_true, List.mem_append]
      exact not_or.mpr ⟨hsign, hinfinity⟩

theorem brace_not_mem_int (n : Int) : '\x7b' ∉ Decimal.intDigits n := by
  have hdigits := brace_not_mem_digits (Decimal.isDigit_natDigits n.natAbs)
  unfold Decimal.intDigits
  split
  · simpa using hdigits
  · exact hdigits

theorem not_infix_cons (hc : c ≠ '\x7b') (hx : ¬ opening <:+: x) : ¬ opening <:+: c :: x := by
  have hnil : ¬ opening <:+: [] := by decide
  exact not_infix_append_cons hc hnil hx

/-- A text in quotes keeps braces apart from those after it. -/
theorem not_infix_quote {s : String} (hs : ¬ opening <:+: s.toList) (hx : ¬ opening <:+: x) :
    ¬ opening <:+: quote s.toList ++ x := by
  have hinner : ¬ opening <:+: escape s.toList ++ '"' :: x :=
    not_infix_append_cons (by decide) (mt infix_of_infix_escape hs) hx
  have hquote : quote s.toList ++ x = '"' :: (escape s.toList ++ '"' :: x) := by
    simp [quote]
  rw [hquote]
  exact not_infix_cons (by decide) hinner

/-- The brace of an object is followed by a quote. -/
theorem not_infix_brace_quote {s : List Char} (h : ¬ opening <:+: quote s ++ x) :
    ¬ opening <:+: '\x7b' :: (quote s ++ x) := by
  intro hoccurs
  rcases List.infix_cons_iff.mp hoccurs with hprefix | hoccurs
  · cases (List.cons_prefix_cons.mp (List.cons_prefix_cons.mp hprefix).2).1
  · exact h hoccurs

-- Of a list or an object, what is written so far goes before the items or fields that are left.
mutual

/-- Where no text holds two opening braces in a row, the JSON text does not. -/
theorem not_infix_render : (v : Json) → (∀ s, v.Holds s → ¬ opening <:+: s.toList) →
    ¬ opening <:+: v.render
  | .null, _ | .bool true, _ | .bool false, _ | .arr [], _ | .obj [], _ => by decide
  | .int n, _ => not_infix_of_not_mem (brace_not_mem_int n)
  | .float x, _ => not_infix_of_not_mem (brace_not_mem_float x)
  | .str s, h => by
    have hquote : ¬ opening <:+: quote s.toList ++ [] := not_infix_quote (h s holds_str) (by decide)
    rwa [List.append_nil] at hquote
  | .arr (item :: items), h => by
    have hitem := not_infix_render item fun s hs => h s (.arr List.mem_cons_self hs)
    have hitems := not_infix_renderItems items (fun v hv s hs => h s (.arr (List.mem_cons_of_mem _ hv) hs))
      hitem
    exact not_infix_cons (by decide) hitems
  | .obj ((key, value) :: fields), h => by
    have hkey := h key (.obj List.mem_cons_self (.inl rfl))
    have hvalue := not_infix_render value fun s hs => h s (.obj List.mem_cons_self (.inr hs))
    have hfields := not_infix_renderFields fields
      (fun e he s hs => h s (.obj (List.mem_cons_of_mem _ he) hs)) hvalue
    have hrest := not_infix_quote hkey
      (not_infix_cons (c := ':') (by decide) (not_infix_cons (c := ' ') (by decide) hfields))
    rw [render]
    simpa using not_infix_brace_quote hrest

theorem not_infix_renderItems : (items : List Json) →
    (∀ v ∈ items, ∀ s, v.Holds s → ¬ opening <:+: s.toList) → {x : List Char} → ¬ opening <:+: x →
    ¬ opening <:+: x ++ renderItems items
  | [], _, _, hx => not_infix_append_cons (by decide) hx (by decide)
  | item :: items, h, _, hx => by
    obtain ⟨hitem, hitems⟩ := List.forall_mem_cons.mp h
    have hrest := not_infix_renderItems items hitems (not_infix_render item hitem)
    exact not_infix_append_cons (by decide) hx (not_infix_cons (by decide) hrest)

theorem not_infix_renderFields : (fields : List (String × Json)) →
    (∀ e ∈ fields, ∀ s, s = e.1 ∨ e.2.Holds s → ¬ opening <:+: s.toList) → {x : List Char} →
    ¬ opening <:+: x → ¬ opening <:+: x ++ renderFields fields
  | [], _, _, hx => not_infix_append_cons (by decide) hx (by decide)
  | (key, value) :: fields, h, _, hx => by
    obtain ⟨hfield, hfields⟩ := List.forall_mem_cons.mp h
    have hvalue := not_infix_render value fun s hs => hfield s (.inr hs)
    have hrest := not_infix_quote (hfield key (.inl rfl)) (not_infix_cons (c := ':') (by decide)
      (not_infix_cons (c := ' ') (by decide) (not_infix_renderFields fields hfields hvalue)))
    have hcomma := not_infix_append_cons (c := ',') (by decide) hx
      (not_infix_cons (c := ' ') (by decide) hrest)
    simpa [renderFields] using hcomma

end

end Braces

end Conductor.Json
