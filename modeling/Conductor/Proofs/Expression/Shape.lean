import Conductor.Proofs.Expression.Cut
import Conductor.Proofs.Json.Reading

/-! What filling the markers of a value leaves of its structure. -/

namespace Conductor

namespace Json

mutual

/-- The value with its texts blanked: its keys, the lengths of its lists and its other leaves. -/
def shape : Json → Json
  | .str _ => .str ""
  | .arr items => .arr (shapeItems items)
  | .obj fields => .obj (shapeFields fields)
  | v => v

def shapeItems : List Json → List Json
  | [] => []
  | v :: items => shape v :: shapeItems items

def shapeFields : List (String × Json) → List (String × Json)
  | [] => []
  | (key, v) :: fields => (key, shape v) :: shapeFields fields

end

theorem keys_mapTextsFields (key text : String → String) (fields : List (String × Json)) :
    Table.keys (mapTextsFields key text fields) = (Table.keys fields).map key := by
  induction fields with
  | nil => rfl
  | cons e fields ih => exact congrArg (key e.1 :: ·) ih

mutual

/-- Only texts are replaced, so the shape stays. -/
theorem shape_mapTexts (text : String → String) : (depth : Nat) → (v : Json) → v.readable depth = true →
    (v.mapTexts id text).shape = v.shape
  | _, .null, _ | _, .bool _, _ | _, .int _, _ | _, .float _, _ | _, .str _, _ => rfl
  | depth, .arr items, h => by
    have hitems := (Bool.and_eq_true_iff.mp h).2
    exact congrArg Json.arr (shapeItems_mapTextsItems text (depth + 1) items hitems)
  | depth, .obj fields, h => by
    obtain ⟨hobject, hfields⟩ := Bool.and_eq_true_iff.mp h
    have hnodup : (Table.keys (mapTextsFields id text fields)).Nodup := by
      rw [keys_mapTextsFields, List.map_id]
      exact of_decide_eq_true (Bool.and_eq_true_iff.mp hobject).2
    rw [mapTexts, Table.ofList_of_nodup hnodup]
    exact congrArg Json.obj (shapeFields_mapTextsFields text (depth + 1) fields hfields)

theorem shapeItems_mapTextsItems (text : String → String) : (depth : Nat) → (items : List Json) →
    readableItems depth items = true → shapeItems (mapTextsItems id text items) = shapeItems items
  | _, [], _ => rfl
  | depth, v :: items, h => by
    obtain ⟨hv, hitems⟩ := Bool.and_eq_true_iff.mp h
    rw [mapTextsItems, shapeItems, shapeItems, shape_mapTexts text depth v hv,
      shapeItems_mapTextsItems text depth items hitems]

theorem shapeFields_mapTextsFields (text : String → String) : (depth : Nat) →
    (fields : List (String × Json)) → readableFields depth fields = true →
    shapeFields (mapTextsFields id text fields) = shapeFields fields
  | _, [], _ => rfl
  | depth, (_, v) :: fields, h => by
    obtain ⟨hv, hfields⟩ := Bool.and_eq_true_iff.mp h
    rw [mapTextsFields, shapeFields, shapeFields, shape_mapTexts text depth v hv,
      shapeFields_mapTextsFields text depth fields hfields]
    rfl

end

end Json

namespace Template

open Json (escape Spelling)

/-- Keys and punctuation as they are, each text cut on its own. -/
def textwise : Spelling Piece :=
  ⟨.plain, fun s => (escape s.toList).map .plain, fun s => pieces (escape s.toList)⟩

/-- No key of the value holds a marker, and every marker of its JSON text lies inside of one text. -/
def Confined (v : Json) : Prop := pieces v.render = v.spell textwise

instance (v : Json) : Decidable (Confined v) := inferInstanceAs (Decidable (_ = _))

/-- A marker can be filled, with what stands for itself inside quotes. -/
def Piece.isHarmless (context : Json) : Piece → Bool
  | .plain _ => true
  | .marker inner =>
    match Piece.fill context (.marker inner) with
    | .ok text => text.all Json.isHarmless
    | .error _ => false

/-- So it is with all markers of a value. -/
def harmless (context v : Json) : Bool := (pieces v.render).all (Piece.isHarmless context)

variable {context v : Json}

/-- The texts for the markers of a value, and nothing for what is no marker of it. -/
theorem exists_texts (h : harmless context v = true) :
    ∃ σ : List Char → List Char, (∀ inner, (σ inner).all Json.isHarmless = true) ∧
      ∀ inner, .marker inner ∈ pieces v.render → Piece.fill context (.marker inner) = .ok (σ inner) := by
  have hall (inner : List Char) : ∃ text : List Char, text.all Json.isHarmless = true ∧
      (.marker inner ∈ pieces v.render → Piece.fill context (.marker inner) = .ok text) := by
    by_cases hm : .marker inner ∈ pieces v.render
    · have hpiece := List.all_eq_true.mp h _ hm
      rw [Piece.isHarmless] at hpiece
      split at hpiece
      · next text hfill => exact ⟨text, hpiece, fun _ => hfill⟩
      · cases hpiece
    · exact ⟨[], rfl, fun hm' => absurd hm' hm⟩
  choose σ hσ hfill using hall
  exact ⟨σ, hσ, hfill⟩

theorem reads_textwise {σ : List Char → List Char} (hσ : ∀ inner, (σ inner).all Json.isHarmless = true) :
    (textwise.flatMap id (Piece.text σ)).Reads id
      fun s => String.ofList (substitute (σ ∘ escape) s.toList) where
  mark := rfl
  key s := by
    change Json.Spells (((escape s.toList).map Piece.plain).flatMap (Piece.text σ)) s.toList
    rw [flatMap_text_plain]
    exact Json.spells_escape s.toList
  text s := by
    rw [String.toList_ofList]
    exact spells_substitute hσ s.toList

/-- Where the spelling of a value in pieces is read back, so is the value. -/
theorem fillValue_of_spell {σ : List Char → List Char} {w : Spelling Piece} {key text : String → String}
    (hv : v.readable 0 = true) (hcut : pieces v.render = v.spell w) (hmark : w.mark = .plain)
    (hfill : ∀ inner, .marker inner ∈ pieces v.render → Piece.fill context (.marker inner) = .ok (σ inner))
    (hw : (w.flatMap id (Piece.text σ)).Reads key text) :
    fillValue context v = .ok (v.mapTexts key text) := by
  have hplain (c : Char) : Piece.text σ (w.mark c) = [id c] := by
    rw [hmark]
    rfl
  have htext : fill context v.render = .ok (v.spell (w.flatMap id (Piece.text σ))) := by
    rw [fill_eq_of_forall hfill, substitute, hcut]
    exact congrArg Except.ok (Json.flatMap_spell hplain v)
  rw [fillValue, htext]
  simp only [Json.parse_spell hw hv]

/-- Where all markers are filled with harmless texts, the value is filled text by text. -/
theorem fillValue_eq_mapTexts (hv : v.readable 0 = true) (hcut : Confined v) (h : harmless context v = true) :
    ∃ σ : List Char → List Char, fillValue context v =
      .ok (v.mapTexts id fun s => String.ofList (substitute (σ ∘ escape) s.toList)) := by
  obtain ⟨σ, hσ, hfill⟩ := exists_texts h
  exact ⟨σ, fillValue_of_spell hv hcut rfl hfill (reads_textwise hσ)⟩

/-- Contexts whose displays are harmless cannot change the structure of a value. -/
theorem fillValue_shape {context' : Json} (hv : v.readable 0 = true) (hcut : Confined v)
    (h : harmless context v = true) (h' : harmless context' v = true) :
    ∃ w w', fillValue context v = .ok w ∧ fillValue context' v = .ok w' ∧
      w.shape = v.shape ∧ w'.shape = v.shape := by
  obtain ⟨σ, hfill⟩ := fillValue_eq_mapTexts hv hcut h
  obtain ⟨σ', hfill'⟩ := fillValue_eq_mapTexts hv hcut h'
  exact ⟨_, _, hfill, hfill', Json.shape_mapTexts _ 0 v hv, Json.shape_mapTexts _ 0 v hv⟩

/-- Two markers beside quotes of the text itself, and a list of other leaves. -/
def letter : Json := .obj [
  ("text", .str "\x7b\x7bname\x7d\x7d: \"\x7b\x7b n \x7d\x7d\""),
  ("list", .arr [.int (-7), .float 0.1, .null])]

theorem fillValue_shape_letter :
    letter.readable 0 = true ∧ Confined letter ∧
    harmless (.obj [("name", .str "é"), ("n", .int 3)]) letter = true ∧ harmless (.obj []) letter = true ∧
    ∃ w w', fillValue (.obj [("name", .str "é"), ("n", .int 3)]) letter = .ok w ∧
      fillValue (.obj []) letter = .ok w' ∧ w.shape = letter.shape ∧ w'.shape = letter.shape := by
  have hv : letter.readable 0 = true := by decide +kernel
  have hcut : Confined letter := by decide +kernel
  have h : harmless (.obj [("name", .str "é"), ("n", .int 3)]) letter = true := by decide +kernel
  have h' : harmless (.obj []) letter = true := by decide +kernel
  exact ⟨hv, hcut, h, h', fillValue_shape hv hcut h h'⟩

def echo : Json := .obj [("text", .str "\x7b\x7bx\x7d\x7d")]

/-- A quote in a context ends the text that it is filled into: what follows is no JSON any more, or more
structure. -/
theorem fillValue_quote :
    echo.readable 0 = true ∧ Confined echo ∧
    fillValue (.obj [("x", .str "a\"b")]) echo =
      .error (.unreadable "\x7b\"text\": \"a\"b\"\x7d".toList ⟨.comma, "b\"\x7d".toList⟩) ∧
    fillValue (.obj [("x", .str "\", \"admin\": \"")]) echo =
      .ok (.obj [("text", .str ""), ("admin", .str "")]) := by
  refine ⟨by decide +kernel, by decide +kernel, ?_, ?_⟩
  · cbv
  · cbv

end Template

end Conductor
