import Conductor.Proofs.Expression.Cut
import Conductor.Proofs.Expression.Position
import Conductor.Proofs.Fallible

/-! Templates that are put together from texts and markers. Filling one puts the display of a value in the
place of each marker and looks at nothing twice. -/

namespace Conductor

/-- The value that a path is found to lead to, if it leads anywhere and can be read. -/
def Path.found? (data : Json) (path : List Char) : Option Json :=
  match Path.resolve? data path with
  | .ok found => found
  | .error _ => none

namespace Template

inductive Part where
  | text (s : List Char)
  | marker (inner : List Char)
deriving Repr, DecidableEq

namespace Part

/-- How the part stands in a template. -/
def source : Part → List Char
  | .text s => s
  | .marker inner => '\x7b' :: '\x7b' :: (inner ++ ['\x7d', '\x7d'])

/-- A text opens no marker, and a marker ends where it is closed. -/
def Proper : Part → Prop
  | .text s => '\x7b' ∉ s
  | .marker inner => inner ≠ [] ∧ '\x7d' ∉ inner

instance : DecidablePred Proper
  | .text s => inferInstanceAs (Decidable ('\x7b' ∉ s))
  | .marker inner => inferInstanceAs (Decidable (inner ≠ [] ∧ '\x7d' ∉ inner))

/-- What the part shows in a context. -/
def shown (context : Json) : Part → List Char
  | .text s => s
  | .marker inner => displayOrEmpty (Path.found? context (Text.trim inner))

def pieces : Part → List Piece
  | .text s => s.map .plain
  | .marker inner => [.marker inner]

end Part

variable {context : Json} {s inner : List Char} {parts : List Part}

theorem pieces_source (h : ∀ part ∈ parts, part.Proper) :
    pieces (parts.flatMap Part.source) = parts.flatMap Part.pieces := by
  induction parts with
  | nil => exact pieces_nil
  | cons part parts ih =>
    obtain ⟨hpart, hparts⟩ := List.forall_mem_cons.mp h
    rw [List.flatMap_cons, List.flatMap_cons, ← ih hparts]
    cases part with
    | text s => exact pieces_append_of_not_mem hpart _
    | marker inner =>
      have hmarker : marker? (Part.source (.marker inner) ++ parts.flatMap Part.source) =
          some (inner, parts.flatMap Part.source) := by
        refine marker?_eq_some_iff.mpr ⟨?_, hpart.1, hpart.2⟩
        simp only [Part.source, List.cons_append, List.append_assoc, List.nil_append]
      exact pieces_of_marker hmarker

theorem mem_pieces_source_iff (h : ∀ part ∈ parts, part.Proper) :
    .marker inner ∈ pieces (parts.flatMap Part.source) ↔ .marker inner ∈ parts := by
  rw [pieces_source h, List.mem_flatMap]
  constructor
  · rintro ⟨part, hpart, hm⟩
    cases part with
    | text s =>
      obtain ⟨_, _, hc⟩ := List.mem_map.mp hm
      cases hc
    | marker i =>
      cases List.mem_singleton.mp hm
      exact hpart
  · exact fun hm => ⟨_, hm, List.mem_singleton_self _⟩

theorem substitute_source (h : ∀ part ∈ parts, part.Proper) (context : Json) :
    substitute (fun inner => displayOrEmpty (Path.found? context (Text.trim inner)))
      (parts.flatMap Part.source) = parts.flatMap (Part.shown context) := by
  rw [substitute, pieces_source h, List.flatMap_assoc]
  refine List.flatMap_congr fun part _ => ?_
  cases part with
  | text s => exact flatMap_text_plain _ s
  | marker inner => exact List.append_nil _

/-- A template with a marker that fails fails as one of its markers does. -/
theorem exists_fill_error {f : Fault} (hm : .marker inner ∈ pieces s)
    (h : Piece.fill context (.marker inner) = .error f) :
    ∃ inner' f', .marker inner' ∈ pieces s ∧ Piece.fill context (.marker inner') = .error f' ∧
      fill context s = .error f' := by
  obtain ⟨piece, f', hpiece, hfill, hall⟩ := exists_mapM_error hm h
  cases piece with
  | plain c => cases hfill
  | marker i =>
    refine ⟨i, f', hpiece, hfill, ?_⟩
    rw [fill, hall]
    rfl

theorem fill_marker_eq_error_iff {f : Fault} : Piece.fill context (.marker inner) = .error f ↔
    Path.resolve? context (Text.trim inner) = .error f := by
  rw [Piece.fill]
  cases Path.resolve? context (Text.trim inner) with
  | error f' => simp [Except.map]
  | ok found => simp [Except.map]

theorem fill_marker_of_not_stuck (h : ∀ digits, ¬ Path.Stuck context (Text.trim inner) digits) :
    Piece.fill context (.marker inner) = .ok (displayOrEmpty (Path.found? context (Text.trim inner))) := by
  rw [Piece.fill, Path.found?]
  cases hfound : Path.resolve? context (Text.trim inner) with
  | error f =>
    obtain ⟨digits, hstuck, -⟩ := Path.resolve?_eq_error_iff.mp hfound
    exact absurd hstuck (h digits)
  | ok found => rfl

/-- No marker stands anywhere in the text. -/
def Unmarked (s : List Char) : Prop :=
  ∀ before inner after, s = before ++ Part.source (.marker inner) ++ after → inner = [] ∨ '\x7d' ∈ inner

theorem pieces_of_unmarked (h : Unmarked s) : pieces s = s.map .plain := by
  induction s with
  | nil => exact pieces_nil
  | cons c t ih =>
    have hmarker : marker? (c :: t) = none := by
      rw [Option.eq_none_iff_forall_ne_some]
      rintro ⟨inner, rest⟩ hm
      obtain ⟨heq, hne, hinner⟩ := marker?_eq_some_iff.mp hm
      have hsource : c :: t = [] ++ Part.source (.marker inner) ++ rest := by
        rw [heq]
        simp only [Part.source, List.nil_append, List.cons_append, List.append_assoc]
      exact (h [] inner rest hsource).elim hne hinner
    have ht : Unmarked t := fun before inner after heq => h (c :: before) inner after (by rw [heq]; rfl)
    rw [pieces_of_plain hmarker, ih ht]
    rfl

theorem fill_of_unmarked (h : Unmarked s) (context : Json) : fill context s = .ok s := by
  have hpieces := pieces_of_unmarked h
  have hnone (inner : List Char) : .marker inner ∉ pieces s := by
    intro hm
    rw [hpieces] at hm
    obtain ⟨_, _, hc⟩ := List.mem_map.mp hm
    cases hc
  have hfill : fill context s = .ok (substitute id s) :=
    fill_eq_of_forall fun inner hm => absurd hm (hnone inner)
  rw [hfill, substitute, hpieces, flatMap_text_plain]

/-- Texts stay and markers give way to displays, part by part, unless a marker is stuck in the context. A text
without markers stays as it is. -/
theorem fillText_parts (h : ∀ part ∈ parts, part.Proper) (context : Json) :
    ((∀ inner, .marker inner ∈ parts → ∀ digits, ¬ Path.Stuck context (Text.trim inner) digits) →
      fillText context (String.ofList (parts.flatMap Part.source)) =
        .ok (String.ofList (parts.flatMap (Part.shown context)))) ∧
    (∀ inner digits, .marker inner ∈ parts → Path.Stuck context (Text.trim inner) digits →
      ∃ digits', fillText context (String.ofList (parts.flatMap Part.source)) =
        .error (.longNumeral digits')) ∧
    ∀ s, Unmarked s → fillText context (String.ofList s) = .ok (String.ofList s) := by
  refine ⟨fun hfree => ?_, fun inner digits hm hstuck => ?_, fun s hs => ?_⟩
  · have hfill : ∀ inner, .marker inner ∈ pieces (parts.flatMap Part.source) →
        Piece.fill context (.marker inner) =
          .ok (displayOrEmpty (Path.found? context (Text.trim inner))) := by
      intro inner hm
      exact fill_marker_of_not_stuck (hfree inner ((mem_pieces_source_iff h).mp hm))
    rw [fillText, String.toList_ofList, fill_eq_of_forall hfill, substitute_source h]
    rfl
  · have hfails := fill_marker_eq_error_iff.mpr (Path.resolve?_eq_error_iff.mpr ⟨digits, hstuck, rfl⟩)
    obtain ⟨i, f, -, hi, hfill⟩ := exists_fill_error ((mem_pieces_source_iff h).mpr hm) hfails
    obtain ⟨digits', -, rfl⟩ := Path.resolve?_eq_error_iff.mp (fill_marker_eq_error_iff.mp hi)
    refine ⟨digits', ?_⟩
    rw [fillText, String.toList_ofList, hfill]
    rfl
  · rw [fillText, String.toList_ofList, fill_of_unmarked hs]
    rfl

/-- Braces around the markers and inside of one. -/
def braces : List Part :=
  [.text ['\x7d', 'a'], .marker " x ".toList, .text ['\x7d'], .marker ['\x7b', 'y'], .marker ['z']]

def braced : Json := .obj [("x", .str "\x7b\x7by\x7d\x7d"), ("\x7by", .null)]

/-- A display that looks like a marker stays. -/
theorem fillText_parts_braces :
    (∀ part ∈ braces, part.Proper) ∧
    (∀ inner, .marker inner ∈ braces → ∀ digits, ¬ Path.Stuck braced (Text.trim inner) digits) ∧
    fillText braced (String.ofList (braces.flatMap Part.source)) =
      .ok (String.ofList "\x7da\x7b\x7by\x7d\x7d\x7dnull".toList) := by
  have h : ∀ part ∈ braces, part.Proper := by decide
  have hfree : ∀ inner, .marker inner ∈ braces →
      ∀ digits, ¬ Path.Stuck braced (Text.trim inner) digits := by
    intro inner hm
    simp only [braces, List.mem_cons, List.not_mem_nil, reduceCtorEq, Part.marker.injEq, or_false,
      false_or] at hm
    rcases hm with rfl | rfl | rfl
    · have hx : Path.resolve? braced (Text.trim " x ".toList) = .ok (some (.str "\x7b\x7by\x7d\x7d")) := rfl
      exact Path.not_stuck_of_ok hx
    · have hy : Path.resolve? braced (Text.trim ['\x7b', 'y']) = .ok (some .null) := rfl
      exact Path.not_stuck_of_ok hy
    · have hz : Path.resolve? braced (Text.trim ['z']) = .ok none := rfl
      exact Path.not_stuck_of_ok hz
  refine ⟨h, hfree, ?_⟩
  rw [(fillText_parts h braced).1 hfree]
  rfl

def longPath : List Char := "items".toList ++ '.' :: Path.ones

theorem trim_longPath : Text.trim longPath = longPath :=
  Path.trim_append_ones rfl "tems.".toList

/-- A marker for an item that a list does not have shows as nothing, but not if its index is too long to be
read. -/
theorem fillText_long_index :
    Part.Proper (.marker longPath) ∧
    fillText (.obj [("items", .arr [])]) (String.ofList (Part.source (.marker longPath))) =
      .error (.longNumeral 4301) := by
  have hproper : Part.Proper (.marker longPath) := by
    refine ⟨List.cons_ne_nil _ _, fun hm => ?_⟩
    rcases List.mem_append.mp hm with hm | hm
    · revert hm
      decide
    · rcases List.mem_cons.mp hm with hm | hm
      · cases hm
      · cases List.eq_of_mem_replicate hm
  have hpieces : pieces (Part.source (.marker longPath)) = [.marker longPath] := by
    have hsource := pieces_source (List.forall_mem_singleton.mpr hproper)
    rwa [List.flatMap_singleton, List.flatMap_singleton] at hsource
  have hfill : Piece.fill (.obj [("items", .arr [])]) (.marker longPath) = .error (.longNumeral 4301) := by
    refine fill_marker_eq_error_iff.mpr ?_
    have hitems : Path.resolve? (.obj [("items", .arr [])]) "items".toList = .ok (some (.arr [])) := rfl
    rw [trim_longPath, longPath, Path.resolve?_append_cons_of_some hitems, Path.resolve?_arr_ones]
  refine ⟨hproper, ?_⟩
  rw [fillText, String.toList_ofList, fill, hpieces, List.mapM_cons, hfill]
  rfl

end Template

end Conductor
