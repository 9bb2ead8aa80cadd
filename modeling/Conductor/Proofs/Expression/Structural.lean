import Conductor.Proofs.Expression.Rendering
import Conductor.Proofs.Expression.Shape
import Conductor.Proofs.Expression.Tokens
import Conductor.Proofs.Json.Readable

/-! Filling a value by way of its JSON text against filling it text by text. The two agree where every
marker lies inside of one text and neither it nor what is put in its place needs an escape. -/

namespace Conductor

namespace Template

open Json (escape Token)

variable {context : Json}

mutual

/-- The value with its texts filled one by one, keys included. Of keys that become equal the last value
counts, at the first one's place. -/
def fillTexts (context : Json) : Json → Except Fault Json
  | .str s => (fillText context s).map .str
  | .arr items => (fillItems context items).map .arr
  | .obj fields => (fillFields context fields).map fun fields => .obj (Table.ofList fields)
  | v => .ok v

def fillItems (context : Json) : List Json → Except Fault (List Json)
  | [] => .ok []
  | v :: items => do
    let v ← fillTexts context v
    let items ← fillItems context items
    return v :: items

def fillFields (context : Json) : List (String × Json) → Except Fault (List (String × Json))
  | [] => .ok []
  | (key, v) :: fields => do
    let key ← fillText context key
    let v ← fillTexts context v
    let fields ← fillFields context fields
    return (key, v) :: fields

end

section Each

variable {f : String → String}

mutual

theorem fillTexts_eq_mapTexts : (v : Json) → (∀ s, v.Holds s → fillText context s = .ok (f s)) →
    fillTexts context v = .ok (v.mapTexts f f)
  | .null, _ | .bool _, _ | .int _, _ | .float _, _ => rfl
  | .str s, h => by
    rw [fillTexts, h s Json.holds_str]
    rfl
  | .arr items, h => by
    have hitems := fillItems_eq_mapTexts items fun v hv s hs => h s (.arr hv hs)
    rw [fillTexts, hitems]
    rfl
  | .obj fields, h => by
    have hfields := fillFields_eq_mapTexts fields fun e he s hs => h s (.obj he hs)
    rw [fillTexts, hfields]
    rfl

theorem fillItems_eq_mapTexts : (items : List Json) →
    (∀ v ∈ items, ∀ s, v.Holds s → fillText context s = .ok (f s)) →
    fillItems context items = .ok (Json.mapTextsItems f f items)
  | [], _ => rfl
  | v :: items, h => by
    obtain ⟨hv, hitems⟩ := List.forall_mem_cons.mp h
    rw [fillItems, fillTexts_eq_mapTexts v hv, fillItems_eq_mapTexts items hitems]
    rfl

theorem fillFields_eq_mapTexts : (fields : List (String × Json)) →
    (∀ e ∈ fields, ∀ s, s = e.1 ∨ e.2.Holds s → fillText context s = .ok (f s)) →
    fillFields context fields = .ok (Json.mapTextsFields f f fields)
  | [], _ => rfl
  | (key, v) :: fields, h => by
    obtain ⟨hfield, hfields⟩ := List.forall_mem_cons.mp h
    have hvalue := fillTexts_eq_mapTexts v fun s hs => hfield s (.inr hs)
    rw [fillFields, hfield key (.inl rfl), hvalue, fillFields_eq_mapTexts fields hfields]
    rfl

end

end Each

/-- What a piece was cut from. -/
def Piece.source : Piece → List Char
  | .plain c => [c]
  | .marker inner => Part.source (.marker inner)

/-- How much of a template pieces take. -/
def width (ps : List Piece) : Nat := (ps.flatMap Piece.source).length

/-- The part of a JSON text from `start` to `stop` lies inside of one of its texts, between the quotes. -/
def Inside (ts : List Token) (start stop : Nat) : Prop :=
  ∃ before s after, ts = before ++ .text s :: after ∧ (before.flatMap Token.source).length ≤ start ∧
    stop ≤ (before.flatMap Token.source).length + (escape s.toList).length

/-- Every marker that is found in the JSON text of the value lies inside of one text. -/
def Enclosed (v : Json) : Prop :=
  ∀ before inner after, pieces v.render = before ++ .marker inner :: after →
    Inside v.tokens (width before) (width (before ++ [.marker inner]))

/-- A printable ASCII character but the quote and the backslash. -/
def isPlain (c : Char) : Bool := 32 ≤ c.toNat && c.toNat < 127 && c ≠ '"' && c ≠ '\\'

def Piece.isPlain : Piece → Bool
  | .plain _ => true
  | .marker inner => inner.all Template.isPlain

/-- Neither the markers of a value nor what they show touch the structure of its JSON text. -/
structure Safe (context v : Json) : Prop where
  enclosed : Enclosed v
  plain : (pieces v.render).all Piece.isPlain = true
  harmless : harmless context v = true

section Enclosure

variable {s x y : List Char} {t : Token} {ts : List Token} {start stop : Nat}

theorem flatMap_source_pieces (s : List Char) : (pieces s).flatMap Piece.source = s := by
  fun_induction pieces s with
  | case1 => rfl
  | case2 c t inner rest h ih =>
    rw [List.flatMap_cons, ih, (marker?_eq_some_iff.mp h).1]
    simp [Piece.source, Part.source]
  | case3 c t h ih =>
    rw [List.flatMap_cons, ih]
    rfl

theorem width_pieces (s : List Char) : width (pieces s) = s.length := by
  rw [width, flatMap_source_pieces]

theorem width_append (ps qs : List Piece) : width (ps ++ qs) = width ps + width qs := by
  rw [width, List.flatMap_append, List.length_append]
  rfl

/-- What lies inside of a text and begins within the first token lies inside of that one. -/
theorem Inside.first (h : Inside (t :: ts) start stop) (hstart : start < t.source.length) :
    stop ≤ t.source.length := by
  obtain ⟨before, s, after, heq, hbefore, hstop⟩ := h
  cases before with
  | nil =>
    obtain ⟨rfl, -⟩ := List.cons.inj heq
    simpa [Token.source] using hstop
  | cons t' before =>
    obtain ⟨rfl, -⟩ := List.cons.inj heq
    rw [List.flatMap_cons, List.length_append] at hbefore
    omega

/-- What begins after the first token lies inside of a later one. -/
theorem Inside.rest (h : Inside (t :: ts) (t.source.length + start) (t.source.length + stop))
    (hlt : start < stop) : Inside ts start stop := by
  obtain ⟨before, s, after, heq, hbefore, hstop⟩ := h
  cases before with
  | nil =>
    obtain ⟨rfl, -⟩ := List.cons.inj heq
    simp only [Token.source, List.flatMap_nil, List.length_nil] at hstop
    omega
  | cons t' before =>
    obtain ⟨rfl, rfl⟩ := List.cons.inj heq
    rw [List.flatMap_cons, List.length_append] at hbefore hstop
    exact ⟨before, s, after, rfl, by omega, by omega⟩

theorem Inside.cons (h : Inside ts start stop) (t : Token) :
    Inside (t :: ts) (t.source.length + start) (t.source.length + stop) := by
  obtain ⟨before, s, after, rfl, hbefore, hstop⟩ := h
  refine ⟨t :: before, s, after, rfl, ?_, ?_⟩
  all_goals
    rw [List.flatMap_cons, List.length_append]
    omega

/-- No marker reaches over the end of the first text. -/
def Apart (x y : List Char) : Prop :=
  ∀ before inner after, pieces (x ++ y) = before ++ .marker inner :: after →
    width before < x.length → width (before ++ [.marker inner]) ≤ x.length

theorem Apart.tail {p : Piece} {x' : List Char} (h : Apart x y) (hp : pieces (x ++ y) = p :: pieces (x' ++ y))
    (hx : x.length = width [p] + x'.length) : Apart x' y := by
  intro before inner after heq hlt
  have hle := h (p :: before) inner after (by rw [hp, heq]; rfl)
  rw [← List.singleton_append, List.append_assoc, width_append, width_append, hx] at hle
  have hle := hle (by omega)
  omega

/-- A text that no marker leaves is cut on its own. -/
theorem Apart.pieces_append (h : Apart x y) : pieces (x ++ y) = pieces x ++ pieces y := by
  fun_induction pieces x with
  | case1 => rfl
  | case2 c t inner rest hm ih =>
    obtain ⟨hx, hinner⟩ := marker?_eq_some_iff.mp hm
    have hmarker : marker? (c :: t ++ y) = some (inner, rest ++ y) := by
      refine marker?_eq_some_iff.mpr ⟨?_, hinner⟩
      simp [hx]
    have hpieces : pieces (c :: t ++ y) = .marker inner :: pieces (rest ++ y) := pieces_of_marker hmarker
    have hwidth : (c :: t).length = width [.marker inner] + rest.length := by
      rw [hx]
      simp [width, Piece.source, Part.source]
      omega
    rw [hpieces, ih (h.tail hpieces hwidth)]
    rfl
  | case3 c t hm ih =>
    -- A marker here would end within the text, so it would be one of the text.
    have hmarker : marker? (c :: t ++ y) = none := by
      rw [Option.eq_none_iff_forall_ne_some]
      rintro ⟨inner, rest⟩ hsome
      obtain ⟨heq, hinner⟩ := marker?_eq_some_iff.mp hsome
      have hle := h [] inner (pieces rest) (pieces_of_marker hsome) (Nat.succ_pos _)
      have hlength : (Part.source (.marker inner)).length ≤ (c :: t).length := by
        simpa [width, Piece.source] using hle
      have hsource : Part.source (.marker inner) <+: c :: t ++ y := by
        refine ⟨rest, ?_⟩
        rw [heq]
        simp [Part.source]
      obtain ⟨r, hr⟩ := List.prefix_of_prefix_length_le hsource (List.prefix_append _ y) hlength
      have hsome' : marker? (c :: t) = some (inner, r) := by
        refine marker?_eq_some_iff.mpr ⟨?_, hinner⟩
        rw [← hr]
        simp [Part.source]
      cases hm.symm.trans hsome'
    have hpieces : pieces (c :: t ++ y) = .plain c :: pieces (t ++ y) := pieces_of_plain hmarker
    have hwidth : (c :: t).length = width [.plain c] + t.length := Nat.add_comm t.length 1
    rw [hpieces, ih (h.tail hpieces hwidth)]
    rfl

/-- A token cut on its own. -/
def cut : Token → List Piece
  | .mark c => [.plain c]
  | .text s => pieces (escape s.toList)

theorem width_cut (t : Token) : width (cut t) = t.source.length := by
  cases t with
  | mark c => rfl
  | text s => exact width_pieces _

theorem marker?_singleton (c : Char) : marker? [c] = none := by
  rw [Option.eq_none_iff_forall_ne_some]
  rintro ⟨inner, rest⟩ h
  cases (List.cons.inj (marker?_eq_some_iff.mp h).1).2

theorem pieces_token (t : Token) : pieces t.source = cut t := by
  cases t with
  | mark c =>
    have hplain : pieces [c] = .plain c :: pieces [] := pieces_of_plain (marker?_singleton c)
    rwa [pieces_nil] at hplain
  | text s => rfl

theorem pieces_of_inside (h : ∀ before inner after,
      pieces (ts.flatMap Token.source) = before ++ .marker inner :: after →
        Inside ts (width before) (width (before ++ [.marker inner]))) :
    pieces (ts.flatMap Token.source) = ts.flatMap cut := by
  -- Induction on the tokens: no marker leaves the first one, so what follows it is cut as if it stood alone.
  induction ts with
  | nil => exact pieces_nil
  | cons t ts ih =>
    rw [List.flatMap_cons] at h ⊢
    have happart : Apart t.source (ts.flatMap Token.source) := fun before inner after heq hlt =>
      (h before inner after heq).first hlt
    rw [happart.pieces_append, pieces_token] at h ⊢
    rw [List.flatMap_cons, ih fun before inner after heq => ?_]
    have hinside := h (cut t ++ before) inner after (by rw [heq, List.append_assoc])
    rw [List.append_assoc, width_append, width_append, width_cut] at hinside
    refine hinside.rest ?_
    rw [width_append]
    exact Nat.lt_add_of_pos_right (Nat.succ_pos _)

/-- The first token that holds a marker is a text. -/
theorem inside_of_cut {before after : List Piece} {inner : List Char}
    (h : cut t = before ++ .marker inner :: after) (ts : List Token) :
    Inside (t :: ts) (width before) (width (before ++ [.marker inner])) := by
  cases t with
  | mark c =>
    have hm : .marker inner ∈ cut (.mark c) := h ▸ List.mem_append_right _ List.mem_cons_self
    cases List.mem_singleton.mp hm
  | text s =>
    refine ⟨[], s, ts, rfl, Nat.zero_le _, ?_⟩
    have hwidth : (escape s.toList).length = width (before ++ .marker inner :: after) := by
      rw [← h, width_cut]
      rfl
    rw [List.append_cons, width_append] at hwidth
    rw [List.flatMap_nil, List.length_nil]
    omega

theorem inside_of_flatMap_cut {before after : List Piece} {inner : List Char}
    (h : ts.flatMap cut = before ++ .marker inner :: after) :
    Inside ts (width before) (width (before ++ [.marker inner])) := by
  induction ts generalizing before with
  | nil => cases before <;> cases h
  | cons t ts ih =>
    have hlater {rest : List Piece} (hrest : ts.flatMap cut = rest ++ .marker inner :: after) :
        Inside (t :: ts) (width (cut t ++ rest)) (width (cut t ++ rest ++ [.marker inner])) := by
      rw [List.append_assoc, width_append, width_append, width_cut]
      exact (ih hrest).cons t
    rw [List.flatMap_cons] at h
    rcases List.append_eq_append_iff.mp h with ⟨rest, rfl, hrest⟩ | ⟨part, hpart, hrest⟩
    · exact hlater hrest
    · cases part with
      | nil =>
        rw [List.append_nil] at hpart
        have hnil : ts.flatMap cut = [] ++ .marker inner :: after := hrest.symm
        have hinside := hlater hnil
        rwa [List.append_nil, hpart] at hinside
      | cons p part =>
        obtain ⟨rfl, -⟩ := List.cons.inj hrest
        exact inside_of_cut hpart ts

theorem enclosed_iff {v : Json} : Enclosed v ↔ pieces v.render = v.tokens.flatMap cut := by
  rw [Enclosed, ← Json.flatMap_source_tokens]
  refine ⟨pieces_of_inside, fun h before inner after heq => ?_⟩
  exact inside_of_flatMap_cut (h.symm.trans heq)

instance (v : Json) : Decidable (Enclosed v) := decidable_of_iff _ enclosed_iff.symm

end Enclosure

section Filling

variable {v : Json} {σ : List Char → List Char}

/-- Plain characters are those that stand for themselves in every escaped text. -/
theorem escape_of_plain {inner : List Char} (h : (escape inner).all isPlain = true) : escape inner = inner := by
  induction inner with
  | nil => rfl
  | cons c inner ih =>
    rw [Json.escape_cons, List.all_append, Bool.and_eq_true] at h
    obtain ⟨hc, hinner⟩ := h
    have hslash : '\\' ∉ Json.escapeChar c := by
      intro hm
      cases List.all_eq_true.mp hc _ hm
    have hself : Json.escapeChar c = [c] := by
      unfold Json.escapeChar at hslash ⊢
      split_ifs at hslash ⊢
      all_goals first | rfl | exact absurd List.mem_cons_self hslash
    rw [Json.escape_cons, hself, ih hinner]
    rfl

/-- A text with its markers filled. -/
def filledBy (σ : List Char → List Char) (s : String) : String :=
  String.ofList (substitute (σ ∘ escape) s.toList)

theorem reads_cut (hσ : ∀ inner, (σ inner).all Json.isHarmless = true) :
    ((Json.Spelling.tokens.flatMap .plain cut).flatMap id (Piece.text σ)).Reads (filledBy σ) (filledBy σ) := by
  have hspells (s : String) :
      Json.Spells (([Token.text s].flatMap cut).flatMap (Piece.text σ)) (filledBy σ s).toList := by
    rw [List.flatMap_singleton, filledBy, String.toList_ofList]
    exact spells_substitute hσ s.toList
  exact ⟨rfl, hspells, hspells⟩

/-- A text is filled on its own as it is inside of the JSON text of the value. -/
theorem fillText_of_holds (hsafe : Safe context v)
    (hfill : ∀ inner, .marker inner ∈ pieces v.render → Piece.fill context (.marker inner) = .ok (σ inner))
    {s : String} (hs : v.Holds s) : fillText context s = .ok (filledBy σ s) := by
  have hmem {inner : List Char} (hm : .marker inner ∈ pieces s.toList) :
      .marker (escape inner) ∈ pieces v.render := by
    rw [enclosed_iff.mp hsafe.enclosed]
    refine List.mem_flatMap.mpr ⟨.text s, hs, ?_⟩
    rw [cut, pieces_escape]
    exact List.mem_flatMap.mpr ⟨.marker inner, hm, List.mem_singleton_self _⟩
  have htext : fill context s.toList = .ok (substitute (σ ∘ escape) s.toList) := by
    -- The marker stands escaped in the JSON text; as that holds nothing but plain characters, it is the same.
    refine fill_eq_of_forall fun inner hm => ?_
    have hself := escape_of_plain (List.all_eq_true.mp hsafe.plain _ (hmem hm))
    have hinner := hfill _ (hmem hm)
    rw [Function.comp, hself]
    rwa [hself] at hinner
  rw [fillText, htext]
  rfl

-- Both sides are the value with every text filled by the same `σ`: one is read back from its spelling, the
-- other goes down the value.
theorem fillValue_of_safe (hv : v.readable 0 = true) (hsafe : Safe context v) :
    ∃ w, fillValue context v = .ok w ∧ fillTexts context v = .ok w := by
  obtain ⟨σ, hσ, hfill⟩ := exists_texts hsafe.harmless
  have hcut : pieces v.render = v.spell (Json.Spelling.tokens.flatMap .plain cut) := by
    rw [enclosed_iff.mp hsafe.enclosed]
    exact Json.flatMap_spell (fun _ => rfl) v
  refine ⟨v.mapTexts (filledBy σ) (filledBy σ), ?_, ?_⟩
  · exact fillValue_of_spell hv hcut rfl hfill (reads_cut hσ)
  · exact fillTexts_eq_mapTexts v fun s hs => fillText_of_holds hsafe hfill hs

theorem fillValue_of_unopened (hv : v.readable 0 = true)
    (h : ∀ s, v.Holds s → ¬ Json.opening <:+: s.toList) (context : Json) : fillValue context v = .ok v := by
  have hrender := Json.not_infix_render v h
  have hunmarked : Unmarked v.render := by
    intro before inner after heq
    refine absurd ⟨before, inner ++ ['\x7d', '\x7d'] ++ after, ?_⟩ hrender
    rw [heq]
    simp [Json.opening, Part.source]
  rw [fillValue, fill_of_unmarked hunmarked]
  simp only [Json.parse_render hv]

end Filling

/-- Filling a value that was read from a JSON text is filling each of its texts, where markers and what they
show are safe inside of quotes. A value without markers stays as it is. -/
theorem fillValue_eq_fillTexts {text : List Char} {v : Json} (hv : Json.parse text = .ok v) :
    (∀ context, Safe context v → ∃ w, fillValue context v = .ok w ∧ fillTexts context v = .ok w) ∧
    ((∀ s, v.Holds s → ¬ Json.opening <:+: s.toList) → ∀ context, fillValue context v = .ok v) := by
  have hreadable := Json.readable_of_parse hv
  exact ⟨fun _ => fillValue_of_safe hreadable, fillValue_of_unopened hreadable⟩

/-- A key that is filled becomes another key of the value. -/
def doubled : Json := .obj [
  ("to", .int 1), ("n", .arr [.null]), ("\x7b\x7bk\x7d\x7d", .str "\x7b\x7b x \x7d\x7d\n")]

def names : Json := .obj [("k", .str "to"), ("x", .str "é")]

theorem fillValue_eq_fillTexts_doubled :
    Json.parse doubled.render = .ok doubled ∧ Safe names doubled ∧
    fillValue names doubled = .ok (.obj [("to", .str "é\n"), ("n", .arr [.null])]) := by
  have hreadable : doubled.readable 0 = true := by decide +kernel
  have hv := Json.parse_render hreadable
  have hsafe : Safe names doubled := by
    have hplain : (pieces doubled.render).all Piece.isPlain = true := by decide +kernel
    exact ⟨by decide +kernel, hplain, by decide +kernel⟩
  refine ⟨hv, hsafe, ?_⟩
  obtain ⟨w, hfill, htexts⟩ := (fillValue_eq_fillTexts hv).1 names hsafe
  have hw : fillTexts names doubled = .ok (.obj [("to", .str "é\n"), ("n", .arr [.null])]) := by
    cbv
  rw [hfill, Except.ok.inj (htexts.symm.trans hw)]

end Template

end Conductor
