import Conductor.Expression.Condition
import Conductor.Proofs.Text.Parts

/-! Comparisons, and those with a literal in quotes. Operators are looked for in the whole text, in the
literal as well, so that such a comparison means what it says exactly if the literal holds no operator that
is looked for before its own. -/

namespace Conductor

namespace Operator

/-- A character of an operator. -/
def isSign (c : Char) : Bool := c == '=' || c == '!' || c == '<' || c == '>'

/-- The operators that are looked for before another one. -/
def earlier (op : Operator) : List Operator := all.takeWhile (· ≠ op)

/-- The literal holds no operator that is looked for earlier. -/
def Spares (op : Operator) (literal : List Char) : Prop := ∀ o ∈ op.earlier, ¬ o.symbol <:+: literal

instance (op : Operator) (literal : List Char) : Decidable (op.Spares literal) :=
  inferInstanceAs (Decidable (∀ o ∈ op.earlier, ¬ o.symbol <:+: literal))

/-- The operator cuts the text: none that is looked for earlier occurs in it, and these are the sides of its
own first occurrence. -/
structure Cuts (op : Operator) (s left right : List Char) : Prop where
  spared : op.Spares s
  split : s = left ++ op.symbol ++ right
  first : ∀ left' right', s = left' ++ op.symbol ++ right' → left.length ≤ left'.length

/-- A comparison of the numbers that a value and a literal stand for. -/
def ordered (holds : Float → Float → Bool) (left : Option Json) (literal : List Char) : Except Fault Bool :=
  match Condition.number? left with
  | none => .error .integerTooLarge
  | some x => .ok (holds x (Condition.numberOfText literal))

/-- What a comparison means: the display of what a path leads to is the literal or is not, or the number
of the one compares with that of the other. -/
def verdict (op : Operator) (left : Option Json) (literal : List Char) : Except Fault Bool :=
  match op with
  | .strictEq | .eq => .ok (displayOrEmpty left = literal)
  | .strictNe | .ne => .ok (displayOrEmpty left ≠ literal)
  | .ge => ordered (fun x y => x ≥ y) left literal
  | .le => ordered (fun x y => x ≤ y) left literal
  | .gt => ordered (fun x y => x > y) left literal
  | .lt => ordered (fun x y => x < y) left literal

variable {op o : Operator} {c : Char} {s : List Char}

theorem isSign_of_mem_symbol (h : c ∈ op.symbol) : isSign c = true := by
  have hall : op.symbol.all isSign = true := by cases op <;> rfl
  exact List.all_eq_true.mp hall c h

theorem symbol_ne_nil (o : Operator) : o.symbol ≠ [] := by
  cases o <;> exact List.cons_ne_nil _ _

theorem not_infix_symbol (h : ∀ c ∈ s, isSign c = false) (o : Operator) : ¬ o.symbol <:+: s := by
  intro hs
  obtain ⟨c, cs, hcs⟩ := List.exists_cons_of_ne_nil o.symbol_ne_nil
  have hc : c ∈ o.symbol := hcs ▸ List.mem_cons_self
  cases (h c (hs.subset hc)).symm.trans (isSign_of_mem_symbol hc)

theorem exists_all_eq (op : Operator) : ∃ later, all = op.earlier ++ op :: later := by
  cases op <;> exact ⟨_, rfl⟩

theorem cuts_iff {left right : List Char} :
    op.Cuts s left right ↔ op.Spares s ∧ Text.cut? op.symbol s = some (left, right) := by
  rw [Text.cut?_eq_some_iff]
  exact ⟨fun ⟨spared, split, first⟩ => ⟨spared, split, first⟩,
    fun ⟨spared, split, first⟩ => ⟨spared, split, first⟩⟩

/-- The order keeps an operator from being found inside of a longer one. -/
theorem not_infix_symbol_of_mem_earlier (h : o ∈ op.earlier) : ¬ o.symbol <:+: op.symbol := by
  have hall : ∀ o ∈ op.earlier, ¬ o.symbol <:+: op.symbol := by cases op <;> decide
  exact hall o h

end Operator

namespace Condition

open Operator (isSign)

variable {p l : List Char} {op : Operator}

/-- A path, an operator and a literal in single quotes. -/
def spelled (p : List Char) (op : Operator) (l : List Char) : List Char :=
  p ++ ' ' :: (op.symbol ++ ' ' :: '\'' :: (l ++ ['\'']))

theorem holds_comparison (context : Json) (op : Operator) (path literal : List Char) :
    (comparison op path literal).holds context =
      (Path.resolve? context path).bind fun left => op.verdict left literal := by
  simp only [holds]
  cases Path.resolve? context path with
  | error f => cases op <;> rfl
  | ok left =>
    cases op with
    | strictEq | eq => simp [Except.bind, Operator.verdict, beq_eq_decide]
    | strictNe | ne => simp [Except.bind, Operator.verdict, bne, beq_eq_decide]
    | ge | le | gt | lt => rfl

/-- What a text is cut at is the operator of its comparison. -/
theorem ofText_eq_comparison_iff {s path literal : List Char} :
    ofText s = .comparison op path literal ↔ ∃ left right, op.Cuts s left right ∧
      path = Text.trim left ∧ literal = stripQuotes (Text.trim right) := by
  constructor
  · intro h
    unfold ofText at h
    split at h
    · next o left right hfound =>
      cases h
      obtain ⟨before, o₁, after, hall, ho₁, hnone⟩ := List.findSome?_eq_some_iff.mp hfound
      obtain ⟨r, hcut, heq⟩ := Option.map_eq_some_iff.mp ho₁
      cases heq
      -- What is looked for in vain is all that is looked for earlier.
      have hbefore : before = op.earlier := by
        have hother (x : Operator) (hx : x ∈ before) : decide (x ≠ op) = true := by
          refine decide_eq_true fun hx' => ?_
          have hx := hnone x hx
          rw [hx', ho₁] at hx
          cases hx
        rw [Operator.earlier, hall, List.takeWhile_append_of_pos hother,
          List.takeWhile_cons_of_neg (by simp), List.append_nil]
      refine ⟨left, right, Operator.cuts_iff.mpr ⟨fun x hx => ?_, hcut⟩, rfl, rfl⟩
      exact Text.cut?_eq_none_iff.mp (Option.map_eq_none_iff.mp (hnone x (hbefore ▸ hx)))
    · cases h
  · rintro ⟨left, right, hcuts, rfl, rfl⟩
    obtain ⟨hspared, hcut⟩ := Operator.cuts_iff.mp hcuts
    obtain ⟨later, hall⟩ := op.exists_all_eq
    have hearlier : op.earlier.findSome? (fun o => (Text.cut? o.symbol s).map fun r => (o, r)) = none := by
      refine List.findSome?_eq_none_iff.mpr fun o ho => ?_
      rw [Text.cut?_eq_none_iff.mpr (hspared o ho)]
      rfl
    have hfound : Operator.all.findSome? (fun o => (Text.cut? o.symbol s).map fun r => (o, r)) =
        some (op, left, right) := by
      rw [hall, List.findSome?_append, hearlier, Option.none_or, List.findSome?_cons, hcut]
      rfl
    unfold ofText
    rw [hfound]

/-- A text without a sign of an operator is a path. -/
theorem ofText_of_forall_not_sign {s : List Char} (h : ∀ c ∈ s, isSign c = false) :
    ofText s = .bare (Text.trim s) := by
  have hnone : Operator.all.findSome? (fun o => (Text.cut? o.symbol s).map fun r => (o, r)) = none := by
    refine List.findSome?_eq_none_iff.mpr fun o _ => ?_
    rw [Text.cut?_eq_none_iff.mpr (Operator.not_infix_symbol h o)]
    rfl
  unfold ofText
  rw [hnone]

theorem not_mem_of_isSign (hp : ∀ c ∈ p, isSign c = false) {c : Char} (hc : isSign c = true) :
    c ∉ p ++ [' '] := by
  intro hm
  rcases List.mem_append.mp hm with hm | hm
  · cases (hp c hm).symm.trans hc
  · cases List.mem_singleton.mp hm
    cases hc

/-- An operator occurs in the path, in the operator or in the literal; blanks and quotes keep them apart. -/
theorem infix_spelled_iff (hp : ∀ c ∈ p, isSign c = false) (o : Operator) :
    o.symbol <:+: spelled p op l ↔ o.symbol <:+: op.symbol ∨ o.symbol <:+: l := by
  have hout (d : Char) (hd : isSign d = false) : d ∉ o.symbol := by
    intro hm
    cases hd.symm.trans (Operator.isSign_of_mem_symbol hm)
  have hquote : o.symbol <:+: '\'' :: (l ++ ['\'']) ↔ o.symbol <:+: l := by
    have hfirst := Text.infix_append_cons_iff (a := []) (b := l ++ ['\'']) (hout '\'' rfl)
    have hlast := Text.infix_append_cons_iff (a := l) (b := []) (hout '\'' rfl)
    rw [List.nil_append] at hfirst
    rw [hfirst, hlast, List.infix_nil]
    simp only [o.symbol_ne_nil, or_false, false_or]
  unfold spelled
  rw [Text.infix_append_cons_iff (hout ' ' rfl), Text.infix_append_cons_iff (hout ' ' rfl), hquote]
  exact or_iff_right (Operator.not_infix_symbol hp o)

theorem cut?_spelled (hp : ∀ c ∈ p, isSign c = false) (op : Operator) (l : List Char) :
    Text.cut? op.symbol (spelled p op l) = some (p ++ [' '], ' ' :: '\'' :: (l ++ ['\''])) := by
  obtain ⟨c, cs, hcs⟩ := List.exists_cons_of_ne_nil op.symbol_ne_nil
  have hmem : c ∈ op.symbol := hcs ▸ List.mem_cons_self
  have hc : isSign c = true := Operator.isSign_of_mem_symbol hmem
  have hcut := Text.cut?_append (not_mem_of_isSign hp hc) cs (' ' :: '\'' :: (l ++ ['\'']))
  rw [← hcs] at hcut
  rw [← hcut, spelled, List.append_assoc]
  rfl

theorem trim_left (p : List Char) : Text.trim (p ++ [' ']) = Text.trim p :=
  Text.trimBy_append_of_pos (List.forall_mem_singleton.mpr rfl) p

theorem stripQuotes_quoted (l : List Char) : stripQuotes ('\'' :: (l ++ ['\''])) = l := by
  simp [stripQuotes, isQuote]

theorem stripQuotes_trim (l : List Char) :
    stripQuotes (Text.trim (' ' :: '\'' :: (l ++ ['\'']))) = l := by
  have htrim : Text.trim (' ' :: '\'' :: (l ++ ['\''])) = '\'' :: (l ++ ['\'']) := by
    rw [Text.trim, Text.trimBy_cons_of_pos rfl, Text.trimBy_between rfl rfl]
  rw [htrim, stripQuotes_quoted]

/-- The whole text is cut at its operator exactly if the literal is spared. -/
theorem ofText_spelled_iff (hp : ∀ c ∈ p, isSign c = false) (op : Operator) (l : List Char) :
    ofText (spelled p op l) = .comparison op (Text.trim p) l ↔ op.Spares l := by
  have hoccurs (o : Operator) (ho : o ∈ op.earlier) :
      o.symbol <:+: spelled p op l ↔ o.symbol <:+: l := by
    rw [infix_spelled_iff hp]
    exact or_iff_right (Operator.not_infix_symbol_of_mem_earlier ho)
  constructor
  · intro h o ho hl
    obtain ⟨left, right, hcuts, -, -⟩ := ofText_eq_comparison_iff.mp h
    exact hcuts.spared o ho ((hoccurs o ho).mpr hl)
  · intro h
    refine ofText_eq_comparison_iff.mpr
      ⟨_, _, Operator.cuts_iff.mpr ⟨fun o ho hs => ?_, cut?_spelled hp op l⟩, ?_, ?_⟩
    · exact h o ho ((hoccurs o ho).mp hs)
    · exact (trim_left p).symm
    · exact (stripQuotes_trim l).symm

end Condition

open Condition (spelled)

/-- A comparison that spares its literal means what it says. Else it is another comparison. -/
theorem evaluate_spelled {p : List Char} (hp : ∀ c ∈ p, Operator.isSign c = false) (op : Operator)
    (l : List Char) (context : Json) :
    (Condition.ofText (spelled p op l) = .comparison op (Text.trim p) l ↔ op.Spares l) ∧
    (op.Spares l → evaluate context (String.ofList (spelled p op l)) =
      (Path.resolve? context (Text.trim p)).bind fun left => op.verdict left l) ∧
    (Operator.ne.Spares l →
      evaluate context (String.ofList (spelled p .ne l)) =
        (evaluate context (String.ofList (spelled p .eq l))).map not ∧
      evaluate context (String.ofList (spelled p .strictEq l)) =
        evaluate context (String.ofList (spelled p .eq l))) := by
  have hverdict (o : Operator) (ho : o.Spares l) : evaluate context (String.ofList (spelled p o l)) =
      (Path.resolve? context (Text.trim p)).bind fun left => o.verdict left l := by
    rw [evaluate, String.toList_ofList, (Condition.ofText_spelled_iff hp o l).mpr ho,
      Condition.holds_comparison]
  refine ⟨Condition.ofText_spelled_iff hp op l, hverdict op, fun hne => ?_⟩
  -- What is looked for before the other two is looked for before `!=`.
  have heq : Operator.eq.Spares l := by
    intro o ho
    have hsub : Operator.eq.earlier ⊆ Operator.ne.earlier := by decide
    exact hne o (hsub ho)
  have hstrict : Operator.strictEq.Spares l := fun o ho => absurd ho List.not_mem_nil
  rw [hverdict .ne hne, hverdict .eq heq, hverdict .strictEq hstrict]
  refine ⟨?_, rfl⟩
  cases Path.resolve? context (Text.trim p) with
  | error f => rfl
  | ok left => simp [Except.bind, Except.map, Operator.verdict]

/-- Behind `!==` a literal may hold any operator but `===`. -/
theorem evaluate_spelled_strictNe :
    (∀ c ∈ " job.note".toList, Operator.isSign c = false) ∧ Operator.strictNe.Spares "a==b <= c".toList ∧
    evaluate (.obj [("job", .obj [("note", .str "a==b")])])
      (String.ofList (spelled " job.note".toList .strictNe "a==b <= c".toList)) = .ok true := by
  have hp : ∀ c ∈ " job.note".toList, Operator.isSign c = false := by
    have hall : " job.note".toList.all (fun c => !Operator.isSign c) = true := rfl
    intro c hc
    simpa using List.all_eq_true.mp hall c hc
  have hl : Operator.strictNe.Spares "a==b <= c".toList := by decide +kernel
  refine ⟨hp, hl, ?_⟩
  rw [(evaluate_spelled hp .strictNe _ _).2.1 hl]
  rfl

/-- Of a text that is not `a==b` it is neither true that it is nor that it is not: `==` in the literal is
found before `!=`, and what is left of it is no path. -/
theorem evaluate_unspared :
    ¬ Operator.ne.Spares "a==b".toList ∧
    evaluate (.obj [("x", .str "foo")]) "x != 'a==b'" = .ok false ∧
    evaluate (.obj [("x", .str "foo")]) "x == 'a==b'" = .ok false := by
  refine ⟨by decide +kernel, ?_, ?_⟩
  · rfl
  · rfl

end Conductor
