import Conductor.Expression.Template
import Conductor.Proofs.Decimal.Canonical
import Conductor.Proofs.Text.Parts

/-! Paths and positions. A path that resolves spells the steps down to one position, and no other path
spells them. A lookup fails only at a list, at a numeral that is too long to be read. -/

namespace Conductor.Path

open Decimal (natDigits maxDigits)

/-- One step down into a value. -/
inductive Step where
  | key (name : String)
  | index (i : Nat)
deriving Repr, DecidableEq

namespace Step

/-- How a path spells the step. -/
def segment : Step → List Char
  | .key name => name.toList
  | .index i => natDigits i

/-- A path can hold the step: its key has no point in it, or its index can be read. -/
def Spellable : Step → Prop
  | .key name => '.' ∉ name.toList
  | .index i => (natDigits i).length ≤ maxDigits

/-- The value one step below another. -/
def below? : Step → Json → Option Json
  | .key name, .obj fields => Table.get? fields name
  | .index i, .arr items => items[i]?
  | _, _ => none

end Step

/-- The value at a position, which is given by the steps down to it. -/
def follow? : List Step → Json → Option Json
  | [], v => some v
  | step :: steps, v => (step.below? v).bind (follow? steps)

/-- The path to a position. -/
def spell (steps : List Step) : List Char := Text.join ['.'] (steps.map Step.segment)

/-- The lookup of segments goes down from a value by certain steps and ends at another value. -/
inductive Leads : Json → List (List Char) → List Step → Json → Prop
  | here (v : Json) : Leads v [] [] v
  | key {fields : List (String × Json)} {segment : List Char} {v w : Json} {segments : List (List Char)}
    {steps : List Step} (h : Table.get? fields (String.ofList segment) = some v)
    (rest : Leads v segments steps w) :
    Leads (.obj fields) (segment :: segments) (.key (String.ofList segment) :: steps) w
  | index {items : List Json} {segment : List Char} {i : Nat} {v w : Json} {segments : List (List Char)}
    {steps : List Step} (hi : index? segment = .ok (some i)) (h : items[i]? = some v)
    (rest : Leads v segments steps w) :
    Leads (.arr items) (segment :: segments) (.index i :: steps) w

/-- On its way down a path meets a list with a numeral of more digits than can be read. -/
def Stuck (data : Json) (path : List Char) (digits : Nat) : Prop :=
  ∃ (steps : List Step) (items : List Json) (n : Nat) (rest : List (List Char)),
    segments path = steps.map Step.segment ++ natDigits n :: rest ∧ (∀ step ∈ steps, step.Spellable) ∧
      follow? steps data = some (.arr items) ∧ (natDigits n).length = digits ∧ maxDigits < digits

section Index

variable {segment : List Char} {i : Nat} {f : Fault}

theorem isIndex_iff : isIndex segment = true ↔ ∃ n, segment = natDigits n := by
  constructor
  · intro h
    cases segment with
    | nil => cases h
    | cons c s =>
      rcases Bool.or_eq_true_iff.mp h with hzero | hdigits
      · exact ⟨0, of_decide_eq_true hzero⟩
      · obtain ⟨hc, hall⟩ := Bool.and_eq_true_iff.mp hdigits
        have hhead : (c :: s).head? ≠ some '0' := fun heq => of_decide_eq_true hc (Option.some.inj heq)
        exact ⟨_, (Decimal.natDigits_ofDigitChars (List.cons_ne_nil c s) (List.all_eq_true.mp hall)
          (.inr hhead)).symm⟩
  · rintro ⟨n, rfl⟩
    obtain ⟨c, s, hcons⟩ := List.exists_cons_of_ne_nil (Decimal.natDigits_ne_nil n)
    by_cases hn : n = 0
    · subst hn
      rfl
    · have hhead := Decimal.head?_natDigits_ne hn
      have hall := List.all_eq_true.mpr (Decimal.isDigit_natDigits n)
      rw [hcons] at hhead hall ⊢
      have hc : c ≠ '0' := fun heq => hhead (congrArg some heq)
      exact Bool.or_eq_true_iff.mpr (.inr (Bool.and_eq_true_iff.mpr ⟨decide_eq_true hc, hall⟩))

theorem index?_natDigits (n : Nat) : index? (natDigits n) =
    if maxDigits < (natDigits n).length then .error (.longNumeral (natDigits n).length)
    else .ok (some n) := by
  have hread := Decimal.takeDigits_eq (Decimal.isDigit_natDigits n) 0 0
  rw [Decimal.ofDigitChars_natDigits] at hread
  rw [index?, isIndex_iff.mpr ⟨n, rfl⟩, hread]
  rfl

theorem index?_of_forall_ne (h : ∀ n, segment ≠ natDigits n) : index? segment = .ok none := by
  have hnot : isIndex segment = false :=
    Bool.eq_false_iff.mpr fun hindex => absurd (isIndex_iff.mp hindex) (not_exists.mpr h)
  rw [index?, hnot]
  rfl

theorem index?_eq_some_iff :
    index? segment = .ok (some i) ↔ segment = natDigits i ∧ segment.length ≤ maxDigits := by
  constructor
  · intro h
    by_cases hn : ∃ n, segment = natDigits n
    · obtain ⟨n, rfl⟩ := hn
      rw [index?_natDigits] at h
      split at h
      · cases h
      · next hle =>
        cases h
        exact ⟨rfl, Nat.not_lt.mp hle⟩
    · rw [index?_of_forall_ne (not_exists.mp hn)] at h
      cases h
  · rintro ⟨rfl, hle⟩
    rw [index?_natDigits, if_neg (Nat.not_lt.mpr hle)]

theorem index?_eq_error_iff : index? segment = .error f ↔
    ∃ n, segment = natDigits n ∧ maxDigits < (natDigits n).length ∧
      f = .longNumeral (natDigits n).length := by
  constructor
  · intro h
    by_cases hn : ∃ n, segment = natDigits n
    · obtain ⟨n, rfl⟩ := hn
      rw [index?_natDigits] at h
      split at h
      · next hlt => exact ⟨n, rfl, hlt, (Except.error.inj h).symm⟩
      · cases h
    · rw [index?_of_forall_ne (not_exists.mp hn)] at h
      cases h
  · rintro ⟨n, rfl, hlt, rfl⟩
    rw [index?_natDigits, if_pos hlt]

end Index

section Child

variable {fields : List (String × Json)} {items : List Json} {segment : List Char} {v w : Json} {f : Fault}

/-- The numerals of a list are those of its indexes. -/
theorem child?_arr_eq_some_iff : child? (.arr items) segment = .ok (some v) ↔
    ∃ i, segment = natDigits i ∧ segment.length ≤ maxDigits ∧ items[i]? = some v := by
  rw [child?]
  constructor
  · intro h
    cases hindex : index? segment with
    | error f =>
      rw [hindex] at h
      cases h
    | ok r =>
      rw [hindex] at h
      obtain ⟨i, rfl, hv⟩ := Option.bind_eq_some_iff.mp (Except.ok.inj h)
      obtain ⟨hi, hle⟩ := index?_eq_some_iff.mp hindex
      exact ⟨i, hi, hle, hv⟩
  · rintro ⟨i, hi, hle, hv⟩
    rw [index?_eq_some_iff.mpr ⟨hi, hle⟩]
    exact congrArg Except.ok hv

theorem child?_eq_some_iff : child? v segment = .ok (some w) ↔
    (∃ fields, v = .obj fields ∧ Table.get? fields (String.ofList segment) = some w) ∨
      ∃ items i, v = .arr items ∧ index? segment = .ok (some i) ∧ items[i]? = some w := by
  cases v with
  | obj fields => simp [child?]
  | arr items =>
    rw [child?_arr_eq_some_iff]
    constructor
    · rintro ⟨i, hi, hle, hw⟩
      exact .inr ⟨items, i, rfl, index?_eq_some_iff.mpr ⟨hi, hle⟩, hw⟩
    · rintro (⟨_, h, -⟩ | ⟨_, i, h, hi, hw⟩)
      · cases h
      · cases h
        obtain ⟨hi, hle⟩ := index?_eq_some_iff.mp hi
        exact ⟨i, hi, hle, hw⟩
  | null | bool _ | int _ | float _ | str _ => simp [child?]

theorem child?_eq_error_iff : child? v segment = .error f ↔
    ∃ items, v = .arr items ∧ index? segment = .error f := by
  cases v with
  | arr items =>
    rw [child?]
    cases index? segment with
    | error f' => simp [Except.map]
    | ok r => simp [Except.map]
  | obj fields => simp [child?]
  | null | bool _ | int _ | float _ | str _ => simp [child?]

end Child

section Walk

variable {data v w : Json} {segments rest : List (List Char)} {steps : List Step} {f : Fault}

theorem walk?_append (v : Json) (segments rest : List (List Char)) :
    walk? v (segments ++ rest) = (walk? v segments).bind fun r => r.elim (.ok none) (walk? · rest) := by
  induction segments generalizing v with
  | nil => rfl
  | cons segment segments ih =>
    rw [List.cons_append, walk?, walk?]
    cases child? v segment with
    | error f => rfl
    | ok r =>
      cases r with
      | none => rfl
      | some w => exact ih w

theorem Leads.walk? (h : Leads v segments steps w) : walk? v segments = .ok (some w) := by
  induction h with
  | here v => rfl
  | key h _ ih =>
    rw [Path.walk?, child?_eq_some_iff.mpr (.inl ⟨_, rfl, h⟩)]
    exact ih
  | index hi h _ ih =>
    rw [Path.walk?, child?_eq_some_iff.mpr (.inr ⟨_, _, rfl, hi, h⟩)]
    exact ih

theorem exists_leads (h : walk? v segments = .ok (some w)) : ∃ steps, Leads v segments steps w := by
  induction segments generalizing v with
  | nil =>
    cases h
    exact ⟨[], .here _⟩
  | cons segment segments ih =>
    rw [walk?] at h
    split at h
    · cases h
    · cases h
    · next x hchild =>
      obtain ⟨steps, hleads⟩ := ih h
      rcases child?_eq_some_iff.mp hchild with ⟨fields, rfl, hx⟩ | ⟨items, i, rfl, hi, hx⟩
      · exact ⟨_, .key hx hleads⟩
      · exact ⟨_, .index hi hx hleads⟩

/-- What is walked down is a position, and its steps are the segments. -/
theorem Leads.position (h : Leads v segments steps w) (hpoint : ∀ s ∈ segments, '.' ∉ s) :
    segments = steps.map Step.segment ∧ (∀ step ∈ steps, step.Spellable) ∧ follow? steps v = some w := by
  induction h with
  | here v => exact ⟨rfl, fun _ hs => absurd hs List.not_mem_nil, rfl⟩
  | @key fields segment v w segments steps hv _ ih =>
    obtain ⟨hsegment, hsegments⟩ := List.forall_mem_cons.mp hpoint
    obtain ⟨hsteps, hspellable, hfollow⟩ := ih hsegments
    refine ⟨?_, List.forall_mem_cons.mpr ⟨?_, hspellable⟩, ?_⟩
    · rw [List.map_cons, ← hsteps, Step.segment, String.toList_ofList]
    · rwa [Step.Spellable, String.toList_ofList]
    · rw [follow?, Step.below?, hv]
      exact hfollow
  | @index items segment i v w segments steps hi hv _ ih =>
    obtain ⟨hsteps, hspellable, hfollow⟩ := ih (List.forall_mem_cons.mp hpoint).2
    obtain ⟨rfl, hle⟩ := index?_eq_some_iff.mp hi
    refine ⟨?_, List.forall_mem_cons.mpr ⟨hle, hspellable⟩, ?_⟩
    · rw [List.map_cons, ← hsteps, Step.segment]
    · rw [follow?, Step.below?, hv]
      exact hfollow

theorem leads_of_follow? (hspellable : ∀ step ∈ steps, step.Spellable) (h : follow? steps v = some w) :
    Leads v (steps.map Step.segment) steps w := by
  induction steps generalizing v with
  | nil =>
    cases h
    exact .here _
  | cons step steps ih =>
    obtain ⟨hstep, hsteps⟩ := List.forall_mem_cons.mp hspellable
    obtain ⟨x, hx, hfollow⟩ := Option.bind_eq_some_iff.mp h
    have hrest := ih hsteps hfollow
    cases step with
    | key name =>
      cases v with
      | obj fields =>
        have hkey : Table.get? fields (String.ofList name.toList) = some x := by
          rw [String.ofList_toList]
          exact hx
        have hleads := Leads.key hkey hrest
        rwa [String.ofList_toList] at hleads
      | null | bool _ | int _ | float _ | str _ | arr _ => cases hx
    | index i =>
      cases v with
      | arr items => exact .index (index?_eq_some_iff.mpr ⟨rfl, hstep⟩) hx hrest
      | null | bool _ | int _ | float _ | str _ | obj _ => cases hx

/-- A walk goes the same steps however often it is walked. -/
theorem Leads.unique {steps' : List Step} {w' : Json} (h : Leads v segments steps w)
    (h' : Leads v segments steps' w') : steps = steps' ∧ w = w' := by
  induction h generalizing steps' w' with
  | here v =>
    cases h'
    exact ⟨rfl, rfl⟩
  | key hv _ ih =>
    cases h' with
    | key hv' rest' =>
      cases hv.symm.trans hv'
      obtain ⟨rfl, rfl⟩ := ih rest'
      exact ⟨rfl, rfl⟩
  | index hi hv _ ih =>
    cases h' with
    | index hi' hv' rest' =>
      cases hi.symm.trans hi'
      cases hv.symm.trans hv'
      obtain ⟨rfl, rfl⟩ := ih rest'
      exact ⟨rfl, rfl⟩

/-- A walk fails at the first numeral that is too long, if it meets a list with it. -/
theorem walk?_eq_error_iff : walk? v segments = .error f ↔
    ∃ before steps items segment after, segments = before ++ segment :: after ∧
      Leads v before steps (.arr items) ∧ index? segment = .error f := by
  constructor
  · intro h
    induction segments generalizing v with
    | nil => cases h
    | cons segment segments ih =>
      rw [walk?] at h
      split at h
      · next f' hchild =>
        cases h
        obtain ⟨items, rfl, hindex⟩ := child?_eq_error_iff.mp hchild
        exact ⟨[], [], items, segment, segments, rfl, .here _, hindex⟩
      · cases h
      · next x hchild =>
        obtain ⟨before, steps, items, s, after, rfl, hleads, hindex⟩ := ih h
        rcases child?_eq_some_iff.mp hchild with ⟨fields, rfl, hx⟩ | ⟨items', i, rfl, hi, hx⟩
        · exact ⟨segment :: before, _, items, s, after, rfl, .key hx hleads, hindex⟩
        · exact ⟨segment :: before, _, items, s, after, rfl, .index hi hx hleads, hindex⟩
  · rintro ⟨before, steps, items, segment, after, rfl, hleads, hindex⟩
    have hchild : child? (.arr items) segment = .error f := child?_eq_error_iff.mpr ⟨items, rfl, hindex⟩
    rw [walk?_append, hleads.walk?]
    change Path.walk? (.arr items) (segment :: after) = .error f
    rw [Path.walk?, hchild]

end Walk

section Resolve

variable {data v : Json} {path : List Char} {steps : List Step} {f : Fault}

theorem point_not_mem_segments (path : List Char) : ∀ s ∈ segments path, '.' ∉ s := by
  intro s hs hpoint
  cases Text.not_mem_of_mem_split hs '.' hpoint

theorem Step.Spellable.point_not_mem {step : Step} (h : step.Spellable) : '.' ∉ step.segment := by
  cases step with
  | key name => exact h
  | index i =>
    intro hpoint
    cases Decimal.isDigit_natDigits i '.' hpoint

/-- A path has the segments of a row of steps exactly if it spells them. -/
theorem segments_eq_iff (hspellable : ∀ step ∈ steps, step.Spellable) :
    segments path = steps.map Step.segment ↔ steps ≠ [] ∧ path = spell steps := by
  constructor
  · intro h
    refine ⟨?_, ?_⟩
    · rintro rfl
      exact Text.split_ne_nil _ _ h
    · rw [spell, ← h]
      exact (Text.join_split '.' path).symm
  · rintro ⟨hne, rfl⟩
    refine Text.split_join (fun h => hne (List.map_eq_nil_iff.mp h)) fun s hs => ?_
    obtain ⟨step, hstep, rfl⟩ := List.mem_map.mp hs
    exact (hspellable step hstep).point_not_mem

theorem leads_segments_iff : Leads data (segments path) steps v ↔
    steps ≠ [] ∧ (∀ step ∈ steps, step.Spellable) ∧ follow? steps data = some v ∧ path = spell steps := by
  constructor
  · intro h
    obtain ⟨hsegments, hspellable, hfollow⟩ := h.position (point_not_mem_segments path)
    obtain ⟨hne, hpath⟩ := (segments_eq_iff hspellable).mp hsegments
    exact ⟨hne, hspellable, hfollow, hpath⟩
  · rintro ⟨hne, hspellable, hfollow, hpath⟩
    rw [(segments_eq_iff hspellable).mpr ⟨hne, hpath⟩]
    exact leads_of_follow? hspellable hfollow

theorem resolve?_eq_some_iff :
    resolve? data path = .ok (some v) ↔ ∃ steps, Leads data (segments path) steps v :=
  ⟨exists_leads, fun ⟨_, h⟩ => h.walk?⟩

theorem resolve?_eq_error_iff :
    resolve? data path = .error f ↔ ∃ digits, Stuck data path digits ∧ f = .longNumeral digits := by
  rw [resolve?, walk?_eq_error_iff]
  constructor
  · rintro ⟨before, steps, items, segment, after, hsegments, hleads, hindex⟩
    obtain ⟨n, rfl, hlt, rfl⟩ := index?_eq_error_iff.mp hindex
    have hpoint : ∀ s ∈ before, '.' ∉ s := fun s hs =>
      point_not_mem_segments path s (hsegments ▸ List.mem_append_left _ hs)
    obtain ⟨rfl, hspellable, hfollow⟩ := hleads.position hpoint
    exact ⟨_, ⟨steps, items, n, after, hsegments, hspellable, hfollow, rfl, hlt⟩, rfl⟩
  · rintro ⟨_, ⟨steps, items, n, rest, hsegments, hspellable, hfollow, rfl, hlt⟩, rfl⟩
    exact ⟨_, steps, items, _, rest, hsegments, leads_of_follow? hspellable hfollow,
      index?_eq_error_iff.mpr ⟨n, rfl, hlt, rfl⟩⟩

theorem not_stuck_of_ok {found : Option Json} (h : resolve? data path = .ok found) (digits : Nat) :
    ¬ Stuck data path digits := by
  intro hstuck
  cases h.symm.trans (resolve?_eq_error_iff.mpr ⟨digits, hstuck, rfl⟩)

theorem resolve?_append_cons (data : Json) (p q : List Char) : resolve? data (p ++ '.' :: q) =
    (resolve? data p).bind fun found => found.elim (.ok none) (resolve? · q) := by
  have hsegments : segments (p ++ '.' :: q) = segments p ++ segments q :=
    Text.split_append_cons (· == '.') p q (beq_self_eq_true '.')
  rw [resolve?, hsegments, walk?_append]
  rfl

theorem resolve?_append_cons_of_some {p : List Char} (h : resolve? data p = .ok (some v)) (q : List Char) :
    resolve? data (p ++ '.' :: q) = resolve? v q := by
  rw [resolve?_append_cons, h]
  rfl

end Resolve

/-- Paths address the positions of a value one to one, segment after segment. What resolves to null shows as
`null` and what does not resolve as nothing. Only a numeral that is too long for a list is a failure. -/
theorem resolve?_positions (data : Json) :
    (∀ path v, resolve? data path = .ok (some v) ↔ ∃ steps, Leads data (segments path) steps v) ∧
    (∀ path steps v, Leads data (segments path) steps v ↔
      steps ≠ [] ∧ (∀ step ∈ steps, step.Spellable) ∧ follow? steps data = some v ∧ path = spell steps) ∧
    (∀ path path' steps steps' v v', Leads data (segments path) steps v →
      Leads data (segments path') steps' v' → (path = path' ↔ steps = steps')) ∧
    (∀ items segment v, child? (.arr items) segment = .ok (some v) ↔
      ∃ i, segment = natDigits i ∧ segment.length ≤ maxDigits ∧ items[i]? = some v) ∧
    (∀ v segment w, child? v segment = .ok (some w) →
      (∃ fields, v = .obj fields) ∨ ∃ items, v = .arr items) ∧
    (∀ p q, resolve? data (p ++ '.' :: q) =
      (resolve? data p).bind fun found => found.elim (.ok none) (resolve? · q)) ∧
    (∀ path, resolve? data path = .ok (some .null) →
      (resolve? data path).map displayOrEmpty = .ok "null".toList) ∧
    (∀ path, resolve? data path = .ok none → (resolve? data path).map displayOrEmpty = .ok []) ∧
    ∀ path f, resolve? data path = .error f ↔ ∃ digits, Stuck data path digits ∧ f = .longNumeral digits := by
  refine ⟨fun _ _ => resolve?_eq_some_iff, fun _ _ _ => leads_segments_iff, ?_,
    fun _ _ _ => child?_arr_eq_some_iff, ?_, resolve?_append_cons data, ?_, ?_,
    fun _ _ => resolve?_eq_error_iff⟩
  · intro path path' steps steps' v v' h h'
    constructor
    · rintro rfl
      exact (h.unique h').1
    · rintro rfl
      rw [(leads_segments_iff.mp h).2.2.2, (leads_segments_iff.mp h').2.2.2]
  · intro v segment w h
    rcases child?_eq_some_iff.mp h with ⟨fields, rfl, -⟩ | ⟨items, i, rfl, -, -⟩
    · exact .inl ⟨fields, rfl⟩
    · exact .inr ⟨items, rfl⟩
  · intro path h
    rw [h]
    rfl
  · intro path h
    rw [h]
    rfl

/-- Ones, one more of them than can be read. -/
def ones : List Char := List.replicate 4301 '1'

theorem index?_ones : index? ones = .error (.longNumeral 4301) := by
  have hdigits : ∀ c ∈ ones, c.isDigit = true := by
    intro c hc
    rw [List.eq_of_mem_replicate hc]
    rfl
  have hhead : ones.head? ≠ some '0' := by
    rw [ones, List.replicate_succ, List.head?_cons]
    decide
  have hne : ones ≠ [] := List.cons_ne_nil '1' _
  have hnumeral := Decimal.natDigits_ofDigitChars hne hdigits (.inr hhead)
  have hlength : ones.length = 4301 := List.length_replicate
  refine index?_eq_error_iff.mpr ⟨_, hnumeral.symm, ?_, ?_⟩
  · rw [hnumeral, hlength]
    decide
  · rw [hnumeral, hlength]

theorem segments_ones : segments ones = [ones] := by
  refine Text.split_of_forall fun c hc => ?_
  rw [List.eq_of_mem_replicate hc]
  rfl

theorem trim_append_ones {c : Char} (hc : Text.isBlank c = false) (s : List Char) :
    Text.trim (c :: (s ++ ones)) = c :: (s ++ ones) := by
  have hlast : s ++ ones = (s ++ List.replicate 4300 '1') ++ ['1'] := by
    rw [ones, List.replicate_succ', List.append_assoc]
  rw [hlast]
  exact Text.trimBy_between hc rfl _

theorem resolve?_arr_ones (items : List Json) : resolve? (.arr items) ones = .error (.longNumeral 4301) := by
  rw [resolve?, segments_ones]
  exact walk?_eq_error_iff.mpr ⟨[], [], _, ones, [], rfl, .here _, index?_ones⟩

/-- That a list is too short for an index is a failure if the index is too long to be read. -/
theorem resolve?_long_index :
    resolve? (.arr [.int 1, .int 2]) ones = .error (.longNumeral 4301) :=
  resolve?_arr_ones _

end Conductor.Path
