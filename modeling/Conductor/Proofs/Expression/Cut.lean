import Conductor.Expression.Template
import Conductor.Proofs.Json.Quoted

/-! How a template is cut into markers and characters. Escaping a text escapes its pieces: no escape
begins, ends or hides a marker. -/

namespace Conductor

namespace Json

variable {c b : Char}

theorem escape_cons (c : Char) (s : List Char) : escape (c :: s) = escapeChar c ++ escape s :=
  List.flatMap_cons

theorem escape_append (s t : List Char) : escape (s ++ t) = escape s ++ escape t :=
  List.flatMap_append

theorem escapeChar_ne_nil (c : Char) : escapeChar c ≠ [] := by
  unfold escapeChar
  split_ifs <;> exact List.cons_ne_nil _ _

theorem escape_eq_nil {s : List Char} (h : escape s = []) : s = [] := by
  cases s with
  | nil => rfl
  | cons c s => exact absurd (List.append_eq_nil_iff.mp h).1 (escapeChar_ne_nil c)

theorem hexDigit_isDigit_or (n : Nat) :
    (hexDigit n).isDigit = true ∨ 'a' ≤ hexDigit n ∧ hexDigit n ≤ 'f' := by
  have hall : ∀ d : Fin 16,
      (Nat.digitChar d).isDigit = true ∨ 'a' ≤ Nat.digitChar d ∧ Nat.digitChar d ≤ 'f' := by
    decide
  exact hall ⟨n % 16, Nat.mod_lt n (by decide)⟩

section Brace

-- Braces stand for themselves inside quotes, and no escape holds one.
variable (hb : b = '\x7b' ∨ b = '\x7d')

include hb

theorem escapeChar_brace : escapeChar b = [b] := by
  rcases hb with rfl | rfl <;> rfl

theorem brace_not_mem_escapeUnit (u : Nat) : b ∉ escapeUnit u := by
  have hdigit (n : Nat) : b ≠ hexDigit n := by
    intro h
    rcases h ▸ hexDigit_isDigit_or n with hd | ⟨-, hf⟩
    · rcases hb with rfl | rfl <;> revert hd <;> decide
    · rcases hb with rfl | rfl <;> revert hf <;> decide
  have hfixed : b ≠ '\\' ∧ b ≠ 'u' := by
    rcases hb with rfl | rfl <;> decide
  simp only [escapeUnit, List.mem_cons, List.not_mem_nil, hfixed, hdigit, or_self, not_false_eq_true]

theorem brace_not_mem_escapeChar (hne : c ≠ b) : b ∉ escapeChar c := by
  have hshort (d : Char) (hd : '\x7b' ≠ d ∧ '\x7d' ≠ d) : b ∉ ['\\', d] := by
    rcases hb with rfl | rfl
    · simpa using hd.1
    · simpa using hd.2
  unfold escapeChar
  split_ifs
  any_goals exact hshort _ (by decide)
  · exact fun h => hne (List.mem_singleton.mp h).symm
  · exact brace_not_mem_escapeUnit hb _
  · rw [List.mem_append]
    exact not_or.mpr ⟨brace_not_mem_escapeUnit hb _, brace_not_mem_escapeUnit hb _⟩

theorem escape_cons_brace (s : List Char) : escape (b :: s) = b :: escape s := by
  rw [escape_cons, escapeChar_brace hb, List.singleton_append]

theorem brace_mem_escape {s : List Char} : b ∈ escape s ↔ b ∈ s := by
  refine ⟨fun h => ?_, fun h => ?_⟩
  · obtain ⟨c, hc, hbc⟩ := List.mem_flatMap.mp h
    by_cases hne : c = b
    · exact hne ▸ hc
    · exact absurd hbc (brace_not_mem_escapeChar hb hne)
  · exact List.mem_flatMap.mpr ⟨b, h, by rw [escapeChar_brace hb]; exact List.mem_singleton_self b⟩

/-- The first brace of an escaped text is the first one of the text. -/
theorem exists_of_escape_eq {s i u : List Char} (hi : b ∉ i)
    (h : escape s = i ++ b :: u) : ∃ s₁ s₂, s = s₁ ++ b :: s₂ ∧ i = escape s₁ ∧ u = escape s₂ := by
  induction s generalizing i with
  | nil => cases i <;> cases h
  | cons c s ih =>
    by_cases hc : c = b
    · subst hc
      rw [escape_cons_brace hb] at h
      cases i with
      | nil => exact ⟨[], s, rfl, rfl, (List.cons.inj h).2.symm⟩
      | cons x i => exact absurd ((List.cons.inj h).1 ▸ List.mem_cons_self) hi
    · -- The escape of `c` holds no brace, so it lies before the brace.
      have hnot := brace_not_mem_escapeChar hb hc
      have hrest : ∃ i', i = escapeChar c ++ i' ∧ escape s = i' ++ b :: u := by
        rw [escape_cons] at h
        rcases List.append_eq_append_iff.mp h with ⟨i', hi', hs⟩ | ⟨a, ha, hs⟩
        · exact ⟨i', hi', hs⟩
        · cases a with
          | nil => exact ⟨[], by simpa using ha.symm, by simpa using hs.symm⟩
          | cons x a =>
            rw [ha, ← (List.cons.inj hs).1] at hnot
            exact absurd (List.mem_append_right _ List.mem_cons_self) hnot
      obtain ⟨i', rfl, hs⟩ := hrest
      obtain ⟨s₁, s₂, rfl, rfl, rfl⟩ := ih (fun hm => hi (List.mem_append_right _ hm)) hs
      exact ⟨c :: s₁, s₂, rfl, (escape_cons c s₁).symm, rfl⟩

end Brace

end Json

namespace Template

open Json (escape escapeChar)

variable {s t inner rest : List Char} {c : Char}

/-- A marker is two braces, anything but a closing brace, two braces. -/
theorem marker?_eq_some_iff : marker? s = some (inner, rest) ↔
    s = '\x7b' :: '\x7b' :: (inner ++ '\x7d' :: '\x7d' :: rest) ∧ inner ≠ [] ∧ '\x7d' ∉ inner := by
  refine ⟨fun h => ?_, ?_⟩
  · unfold marker? at h
    split at h
    · rename_i t
      split at h
      · rename_i x xs r htake hdrop
        obtain ⟨rfl, rfl⟩ := Prod.mk.inj (Option.some.inj h)
        refine ⟨?_, List.cons_ne_nil _ _, fun hm => ?_⟩
        · rw [← htake, ← hdrop, List.takeWhile_append_dropWhile]
        · have hall := List.all_eq_true.mp List.all_takeWhile _ (htake ▸ hm)
          exact of_decide_eq_true hall rfl
      · cases h
    · cases h
  · rintro ⟨rfl, hne, hinner⟩
    obtain ⟨x, xs, rfl⟩ := List.exists_cons_of_ne_nil hne
    have hall : ∀ a ∈ x :: xs, decide (a ≠ '\x7d') = true := by
      intro a ha
      exact decide_eq_true fun h => hinner (h ▸ ha)
    simp only [marker?]
    rw [List.takeWhile_append_of_pos hall, List.dropWhile_append_of_pos hall]
    simp

theorem marker?_of_ne (h : c ≠ '\x7b') (t : List Char) : marker? (c :: t) = none := by
  refine Option.eq_none_iff_forall_ne_some.mpr fun (inner, rest) hm => ?_
  exact h (List.cons.inj (marker?_eq_some_iff.mp hm).1).1

theorem marker?_escape (s : List Char) :
    marker? (escape s) = (marker? s).map fun m => (escape m.1, escape m.2) := by
  have hopen : ('\x7b' : Char) = '\x7b' ∨ ('\x7b' : Char) = '\x7d' := .inl rfl
  have hclose : ('\x7d' : Char) = '\x7b' ∨ ('\x7d' : Char) = '\x7d' := .inr rfl
  cases hm : marker? s with
  | some m =>
    obtain ⟨rfl, hne, hinner⟩ := marker?_eq_some_iff.mp hm
    refine marker?_eq_some_iff.mpr ⟨?_, fun h => hne (Json.escape_eq_nil h), ?_⟩
    · simp only [Json.escape_cons_brace hopen, Json.escape_append, Json.escape_cons_brace hclose]
    · exact fun h => hinner ((Json.brace_mem_escape hclose).mp h)
  | none =>
    refine Option.eq_none_iff_forall_ne_some.mpr fun (inner, rest) h => ?_
    obtain ⟨heq, hne, hinner⟩ := marker?_eq_some_iff.mp h
    -- The four braces are braces of `s`, so there is a marker in `s` too.
    obtain ⟨_, s₁, rfl, hnil, h₁⟩ := Json.exists_of_escape_eq hopen (i := []) List.not_mem_nil heq
    obtain rfl := Json.escape_eq_nil hnil.symm
    obtain ⟨_, s₂, rfl, hnil, h₂⟩ := Json.exists_of_escape_eq hopen (i := []) List.not_mem_nil h₁.symm
    obtain rfl := Json.escape_eq_nil hnil.symm
    obtain ⟨s₃, s₄, rfl, rfl, h₄⟩ := Json.exists_of_escape_eq hclose hinner h₂.symm
    obtain ⟨_, s₅, rfl, hnil, -⟩ := Json.exists_of_escape_eq hclose (i := []) List.not_mem_nil h₄.symm
    obtain rfl := Json.escape_eq_nil hnil.symm
    have hsome : marker? ('\x7b' :: '\x7b' :: (s₃ ++ '\x7d' :: '\x7d' :: s₅)) = some (s₃, s₅) := by
      refine marker?_eq_some_iff.mpr ⟨rfl, fun h => hne (by rw [h]; rfl), fun h => ?_⟩
      exact hinner ((Json.brace_mem_escape hclose).mpr h)
    cases hm.symm.trans hsome

theorem pieces_nil : pieces [] = [] := by
  rw [pieces]

theorem pieces_of_marker (h : marker? s = some (inner, rest)) : pieces s = .marker inner :: pieces rest := by
  cases s with
  | nil => cases h
  | cons c t =>
    rw [pieces]
    split
    · next h' =>
      cases h.symm.trans h'
      rfl
    · next h' => cases h.symm.trans h'

theorem pieces_of_plain (h : marker? (c :: t) = none) : pieces (c :: t) = .plain c :: pieces t := by
  rw [pieces]
  split
  · next h' => cases h.symm.trans h'
  · rfl

theorem pieces_append_of_not_mem (h : '\x7b' ∉ s) (t : List Char) :
    pieces (s ++ t) = s.map .plain ++ pieces t := by
  induction s with
  | nil => rfl
  | cons c s ih =>
    obtain ⟨hc, hs⟩ := not_or.mp (mt List.mem_cons.mpr h)
    rw [List.cons_append, pieces_of_plain (marker?_of_ne (Ne.symm hc) _), ih hs]
    rfl

/-- The pieces that a piece of a text becomes when the text is escaped. -/
def Piece.escape : Piece → List Piece
  | .plain c => (escapeChar c).map .plain
  | .marker inner => [.marker (Json.escape inner)]

theorem pieces_escape (s : List Char) : pieces (escape s) = (pieces s).flatMap Piece.escape := by
  fun_induction pieces s with
  | case1 => exact pieces_nil
  | case2 c t inner rest h ih =>
    have hm : marker? (escape (c :: t)) = some (escape inner, escape rest) := by
      rw [marker?_escape, h, Option.map_some]
    rw [pieces_of_marker hm, ih]
    rfl
  | case3 c t h ih =>
    have hm : marker? (escape (c :: t)) = none := by
      rw [marker?_escape, h, Option.map_none]
    rw [Json.escape_cons] at hm ⊢
    rw [List.flatMap_cons, ← ih]
    -- No marker begins at `c`, and none within its escape, where an opening brace is only `c` itself.
    by_cases hc : c = '\x7b'
    · subst hc
      exact pieces_of_plain hm
    · exact pieces_append_of_not_mem (Json.brace_not_mem_escapeChar (.inl rfl) hc) _

/-- What a piece leaves when every marker gives way to a text. -/
def Piece.text (σ : List Char → List Char) : Piece → List Char
  | .plain c => [c]
  | .marker inner => σ inner

/-- A template with a text for each marker. -/
def substitute (σ : List Char → List Char) (template : List Char) : List Char :=
  (pieces template).flatMap (Piece.text σ)

theorem flatMap_text_plain (σ : List Char → List Char) (s : List Char) :
    (s.map Piece.plain).flatMap (Piece.text σ) = s := by
  rw [List.flatMap_map]
  exact List.flatMap_singleton' s

theorem fill_eq_of_forall {σ : List Char → List Char} {context : Json}
    (h : ∀ inner, .marker inner ∈ pieces s → Piece.fill context (.marker inner) = .ok (σ inner)) :
    fill context s = .ok (substitute σ s) := by
  have hmap (ps : List Piece) (hps : ∀ inner, .marker inner ∈ ps →
      Piece.fill context (.marker inner) = .ok (σ inner)) :
      ps.mapM (Piece.fill context) = .ok (ps.map (Piece.text σ)) := by
    induction ps with
    | nil => rfl
    | cons p ps ih =>
      have hp : Piece.fill context p = .ok (p.text σ) := by
        cases p with
        | plain c => rfl
        | marker inner => exact hps inner List.mem_cons_self
      rw [List.mapM_cons, hp, ih fun inner hi => hps inner (List.mem_cons_of_mem _ hi)]
      rfl
  rw [fill, hmap _ h, substitute, List.flatMap_def]
  rfl

/-- Texts that stand for themselves inside quotes may take the place of markers there. -/
theorem spells_substitute {σ : List Char → List Char} (hσ : ∀ inner, (σ inner).all Json.isHarmless = true)
    (s : List Char) : Json.Spells (substitute σ (escape s)) (substitute (σ ∘ escape) s) := by
  unfold substitute
  rw [pieces_escape, List.flatMap_assoc]
  refine Json.Spells.flatMap fun p _ => ?_
  cases p with
  | plain c =>
    rw [Piece.escape, flatMap_text_plain]
    exact Json.spells_escapeChar c
  | marker inner =>
    simpa [Piece.escape, Piece.text] using Json.spells_harmless (hσ (escape inner))

end Template

end Conductor
