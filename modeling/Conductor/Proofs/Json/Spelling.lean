import Conductor.Json.Render

/-! JSON texts in which keys and texts are spelled in some way of their own, and the values that are read
from them. -/

namespace Conductor.Json

/-- How the characters, the keys and the texts of a value are put down. -/
structure Spelling (α : Type) where
  mark : Char → α
  key : String → List α
  text : String → List α

variable {α β : Type}

def Spelling.quoted (w : Spelling α) (s : List α) : List α := w.mark '"' :: s ++ [w.mark '"']

mutual

/-- The JSON text of a value, character by character but for what stands inside quotes. -/
def spell (w : Spelling α) : Json → List α
  | .str s => w.quoted (w.text s)
  | .arr [] => [w.mark '[', w.mark ']']
  | .arr (item :: items) => w.mark '[' :: spell w item ++ spellItems w items
  | .obj [] => [w.mark '\x7b', w.mark '\x7d']
  | .obj ((key, value) :: fields) =>
    w.mark '\x7b' :: w.quoted (w.key key) ++ [w.mark ':', w.mark ' '] ++ spell w value ++ spellFields w fields
  | .null => render .null |>.map w.mark
  | .bool b => render (.bool b) |>.map w.mark
  | .int n => render (.int n) |>.map w.mark
  | .float x => render (.float x) |>.map w.mark

def spellItems (w : Spelling α) : List Json → List α
  | [] => [w.mark ']']
  | item :: items => w.mark ',' :: w.mark ' ' :: spell w item ++ spellItems w items

def spellFields (w : Spelling α) : List (String × Json) → List α
  | [] => [w.mark '\x7d']
  | (key, value) :: fields =>
    w.mark ',' :: w.mark ' ' :: w.quoted (w.key key) ++ [w.mark ':', w.mark ' '] ++ spell w value ++
      spellFields w fields

end

/-- The spelling of `render`. -/
def Spelling.escaped : Spelling Char := ⟨id, fun s => escape s.toList, fun s => escape s.toList⟩

mutual

theorem spell_escaped : (v : Json) → v.spell .escaped = v.render
  | .null | .bool _ | .int _ | .float _ => List.map_id _
  | .str _ => rfl
  | .arr [] => rfl
  | .obj [] => rfl
  | .arr (item :: items) => by
    rw [spell, render, spell_escaped item, spellItems_escaped items]
    rfl
  | .obj ((key, value) :: fields) => by
    rw [spell, render, spell_escaped value, spellFields_escaped fields]
    rfl

theorem spellItems_escaped : (items : List Json) → spellItems .escaped items = renderItems items
  | [] => rfl
  | item :: items => by
    rw [spellItems, renderItems, spell_escaped item, spellItems_escaped items]
    rfl

theorem spellFields_escaped : (fields : List (String × Json)) →
    spellFields .escaped fields = renderFields fields
  | [] => rfl
  | (key, value) :: fields => by
    rw [spellFields, renderFields, spell_escaped value, spellFields_escaped fields]
    rfl

end

/-- A spelling in which every element is spelled out further. -/
def Spelling.flatMap (w : Spelling α) (mark : Char → β) (f : α → List β) : Spelling β :=
  ⟨mark, fun s => (w.key s).flatMap f, fun s => (w.text s).flatMap f⟩

section FlatMap

variable {w : Spelling α} {mark : Char → β} {f : α → List β} (hf : ∀ c, f (w.mark c) = [mark c])

include hf

theorem flatMap_map_mark (s : List Char) : (s.map w.mark).flatMap f = s.map mark := by
  rw [List.flatMap_map]
  simp only [hf]
  exact List.map_eq_flatMap.symm

theorem flatMap_quoted (s : List α) :
    (w.quoted s).flatMap f = (w.flatMap mark f).quoted (s.flatMap f) := by
  simp only [Spelling.quoted, List.cons_append, List.flatMap_cons, List.flatMap_append, List.flatMap_nil, hf]
  rfl

mutual

theorem flatMap_spell : (v : Json) → (v.spell w).flatMap f = v.spell (w.flatMap mark f)
  | .null | .bool _ | .int _ | .float _ => flatMap_map_mark hf _
  | .str s => flatMap_quoted hf _
  | .arr [] => flatMap_map_mark hf ['[', ']']
  | .obj [] => flatMap_map_mark hf ['\x7b', '\x7d']
  | .arr (item :: items) => by
    simp only [spell, List.cons_append, List.flatMap_cons, List.flatMap_append, hf, flatMap_spell item,
      flatMap_spellItems items]
    rfl
  | .obj ((key, value) :: fields) => by
    simp only [spell, List.cons_append, List.flatMap_cons, List.flatMap_append, List.flatMap_nil, hf,
      flatMap_quoted hf, flatMap_spell value, flatMap_spellFields fields]
    rfl

theorem flatMap_spellItems : (items : List Json) →
    (spellItems w items).flatMap f = spellItems (w.flatMap mark f) items
  | [] => flatMap_map_mark hf [']']
  | item :: items => by
    simp only [spellItems, List.cons_append, List.flatMap_cons, List.flatMap_append, hf, flatMap_spell item,
      flatMap_spellItems items]
    rfl

theorem flatMap_spellFields : (fields : List (String × Json)) →
    (spellFields w fields).flatMap f = spellFields (w.flatMap mark f) fields
  | [] => flatMap_map_mark hf ['\x7d']
  | (key, value) :: fields => by
    simp only [spellFields, List.cons_append, List.flatMap_cons, List.flatMap_append, List.flatMap_nil, hf,
      flatMap_quoted hf, flatMap_spell value, flatMap_spellFields fields]
    rfl

end

end FlatMap

end Conductor.Json
