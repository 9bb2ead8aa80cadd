import Conductor.Text.Split
import Mathlib.Data.List.Infix
import Mathlib.Data.List.TakeWhile

/-! Where a text occurs in another, what is left of a text that is trimmed, and texts that are split and
joined again. -/

namespace Conductor.Text

variable {p : Char → Bool} {a b s pat rest : List Char} {c : Char}

section Occurrence

theorem isPrefixOf?_eq_none_iff : List.isPrefixOf? pat s = none ↔ ¬ pat <+: s := by
  rw [Option.eq_none_iff_forall_ne_some]
  constructor
  · rintro h ⟨rest, hrest⟩
    exact h rest (List.isPrefixOf?_eq_some_iff_append_eq.mpr hrest)
  · intro h rest hrest
    exact h ⟨rest, List.isPrefixOf?_eq_some_iff_append_eq.mp hrest⟩

theorem cut?_eq_none_iff : cut? pat s = none ↔ ¬ pat <:+: s := by
  induction s with
  | nil =>
    rw [cut?, List.infix_nil]
    split <;> simp_all
  | cons c s ih =>
    rw [List.infix_cons_iff, not_or, ← isPrefixOf?_eq_none_iff, ← ih, cut?]
    cases List.isPrefixOf? pat (c :: s) with
    | none => simp
    | some rest => simp

/-- A text is cut where `pat` begins for the first time. -/
theorem first_of_cut? (h : cut? pat s = some (a, b)) :
    s = a ++ pat ++ b ∧ ∀ a' b', s = a' ++ pat ++ b' → a.length ≤ a'.length := by
  induction s generalizing a with
  | nil =>
    rw [cut?] at h
    split at h
    · next hpat =>
      cases h
      subst hpat
      exact ⟨rfl, fun _ _ _ => Nat.zero_le _⟩
    · cases h
  | cons c s ih =>
    rw [cut?] at h
    split at h
    · next rest hpat =>
      cases h
      exact ⟨(List.isPrefixOf?_eq_some_iff_append_eq.mp hpat).symm, fun _ _ _ => Nat.zero_le _⟩
    · next hpat =>
      obtain ⟨⟨a₁, b₁⟩, hcut, heq⟩ := Option.map_eq_some_iff.mp h
      cases heq
      obtain ⟨rfl, hfirst⟩ := ih hcut
      refine ⟨rfl, fun a' b' hs => ?_⟩
      cases a' with
      | nil =>
        have hpre : pat <+: c :: (a₁ ++ pat ++ b₁) := ⟨b', hs.symm⟩
        exact absurd hpre (isPrefixOf?_eq_none_iff.mp hpat)
      | cons x a' => exact Nat.succ_le_succ (hfirst a' b' (List.cons.inj hs).2)

theorem cut?_eq_some_iff : cut? pat s = some (a, b) ↔
    s = a ++ pat ++ b ∧ ∀ a' b', s = a' ++ pat ++ b' → a.length ≤ a'.length := by
  refine ⟨first_of_cut?, fun ⟨hs, hleast⟩ => ?_⟩
  cases hcut : cut? pat s with
  | none => exact absurd ⟨a, b, hs.symm⟩ (cut?_eq_none_iff.mp hcut)
  | some r =>
    obtain ⟨hs', hleast'⟩ := first_of_cut? (a := r.1) (b := r.2) hcut
    have hlength : r.1.length = a.length := Nat.le_antisymm (hleast' a b hs) (hleast r.1 r.2 hs')
    rw [hs', List.append_assoc, List.append_assoc] at hs
    obtain ⟨ha, hrest⟩ := List.append_inj hs hlength
    rw [← ha, ← List.append_cancel_left hrest]

theorem occurs_self (s : List Char) : occurs s s = true := by
  rw [occurs, Option.isSome_iff_ne_none, ne_eq, cut?_eq_none_iff, not_not]

/-- A text is cut where `pat` begins, if its first character does not come before. -/
theorem cut?_append (h : c ∉ a) (pat b : List Char) : cut? (c :: pat) (a ++ (c :: pat ++ b)) = some (a, b) := by
  induction a with
  | nil =>
    have hpat : List.isPrefixOf? (c :: pat) (c :: (pat ++ b)) = some b :=
      List.isPrefixOf?_eq_some_iff_append_eq.mpr rfl
    change cut? (c :: pat) (c :: (pat ++ b)) = some ([], b)
    rw [cut?, hpat]
  | cons x a ih =>
    obtain ⟨hx, ha⟩ := not_or.mp (mt List.mem_cons.mpr h)
    have hpat : List.isPrefixOf? (c :: pat) (x :: (a ++ (c :: pat ++ b))) = none :=
      isPrefixOf?_eq_none_iff.mpr fun hp => hx (List.cons_prefix_cons.mp hp).1
    rw [List.cons_append, cut?, hpat, ih ha]
    rfl

theorem prefix_of_prefix_append_cons (hc : c ∉ pat) (h : pat <+: a ++ c :: b) : pat <+: a := by
  rcases Nat.le_total pat.length a.length with hle | hle
  · exact List.prefix_of_prefix_length_le h (List.prefix_append a (c :: b)) hle
  · -- A longer beginning would hold the separator.
    obtain ⟨t, rfl⟩ := List.prefix_of_prefix_length_le (List.prefix_append a (c :: b)) h hle
    cases t with
    | nil => exact (List.append_nil a).symm ▸ List.prefix_rfl
    | cons x t =>
      have hx : x = c := (List.cons_prefix_cons.mp ((List.prefix_append_right_inj a).mp h)).1
      exact absurd (List.mem_append_right a (hx ▸ List.mem_cons_self)) hc

/-- What holds no separator occurs on one of its sides. -/
theorem infix_append_cons_iff (hc : c ∉ pat) : pat <:+: a ++ c :: b ↔ pat <:+: a ∨ pat <:+: b := by
  refine ⟨fun h => ?_, ?_⟩
  · induction a with
    | nil =>
      rcases List.infix_cons_iff.mp h with h | h
      · exact .inl (prefix_of_prefix_append_cons (a := []) hc h).isInfix
      · exact .inr h
    | cons x a ih =>
      rcases List.infix_cons_iff.mp h with h | h
      · exact .inl (prefix_of_prefix_append_cons (a := x :: a) hc h).isInfix
      · exact (ih h).imp_left fun ha => List.infix_cons_iff.mpr (.inr ha)
  · rintro (h | h)
    · exact h.trans (List.prefix_append a _).isInfix
    · exact h.trans ((List.suffix_cons c b).trans (List.suffix_append a _)).isInfix

end Occurrence

section Trimming

theorem trimBy_cons_of_pos (hc : p c = true) (s : List Char) : trimBy p (c :: s) = trimBy p s := by
  rw [trimBy, List.dropWhile_cons_of_pos hc]
  rfl

theorem trimBy_append_of_pos (hb : ∀ c ∈ b, p c = true) (a : List Char) :
    trimBy p (a ++ b) = trimBy p a := by
  have hreverse : ∀ c ∈ b.reverse, p c = true := fun c hc => hb c (List.mem_reverse.mp hc)
  unfold trimBy
  rw [List.dropWhile_append]
  split
  · next h =>
    rw [List.isEmpty_iff.mp h, List.dropWhile_eq_nil_iff.mpr hb]
  · rw [List.reverse_append, List.dropWhile_append_of_pos hreverse]

theorem trimBy_between {c d : Char} (hc : p c = false) (hd : p d = false) (s : List Char) :
    trimBy p (c :: (s ++ [d])) = c :: (s ++ [d]) := by
  have hlast : (c :: (s ++ [d])).reverse = d :: (c :: s).reverse := by simp
  unfold trimBy
  rw [List.dropWhile_cons_of_neg (Bool.eq_false_iff.mp hc), hlast,
    List.dropWhile_cons_of_neg (Bool.eq_false_iff.mp hd), ← hlast, List.reverse_reverse]

end Trimming

section Splitting

theorem not_mem_of_mem_split (h : rest ∈ split p s) : ∀ c ∈ rest, p c = false := by
  induction s generalizing rest with
  | nil =>
    obtain rfl := List.mem_singleton.mp h
    exact fun _ hc => absurd hc List.not_mem_nil
  | cons c s ih =>
    obtain ⟨piece, pieces, hsplit⟩ := List.exists_cons_of_ne_nil (split_ne_nil p s)
    unfold split at h
    split at h
    · rcases List.mem_cons.mp h with rfl | h
      · exact fun _ hc => absurd hc List.not_mem_nil
      · exact ih h
    · next hc =>
      rw [hsplit] at h ih
      rcases List.mem_cons.mp h with rfl | h
      · exact List.forall_mem_cons.mpr ⟨Bool.eq_false_iff.mpr hc, ih List.mem_cons_self⟩
      · exact ih (List.mem_cons_of_mem _ h)

theorem mem_of_mem_split (h : rest ∈ split p s) (hc : c ∈ rest) : c ∈ s := by
  induction s generalizing rest with
  | nil =>
    obtain rfl := List.mem_singleton.mp h
    exact hc
  | cons x s ih =>
    obtain ⟨piece, pieces, hsplit⟩ := List.exists_cons_of_ne_nil (split_ne_nil p s)
    unfold split at h
    rw [hsplit] at h ih
    split at h
    · rcases List.mem_cons.mp h with rfl | h
      · cases hc
      · exact List.mem_cons_of_mem _ (ih h hc)
    · rcases List.mem_cons.mp h with rfl | h
      · rcases List.mem_cons.mp hc with rfl | hc
        · exact List.mem_cons_self
        · exact List.mem_cons_of_mem _ (ih List.mem_cons_self hc)
      · exact List.mem_cons_of_mem _ (ih (List.mem_cons_of_mem _ h) hc)

theorem split_of_forall (h : ∀ c ∈ s, p c = false) : split p s = [s] := by
  induction s with
  | nil => rfl
  | cons c s ih =>
    obtain ⟨hc, hs⟩ := List.forall_mem_cons.mp h
    rw [split, ih hs]
    simp [hc]

theorem join_split (c : Char) (s : List Char) : join [c] (split (· == c) s) = s := by
  induction s with
  | nil => rfl
  | cons x s ih =>
    obtain ⟨piece, pieces, hsplit⟩ := List.exists_cons_of_ne_nil (split_ne_nil (· == c) s)
    rw [hsplit] at ih
    unfold split
    split
    · next hx =>
      rw [hsplit]
      change c :: join [c] (piece :: pieces) = x :: s
      rw [ih, eq_of_beq hx]
    · rw [hsplit]
      -- The first piece grows by a character, whether others follow it or not.
      cases pieces with
      | nil => exact congrArg (x :: ·) ih
      | cons q qs => exact congrArg (x :: ·) ih

theorem join_cons_cons (c : Char) (s t : List Char) (ss : List (List Char)) :
    join [c] (s :: t :: ss) = s ++ c :: join [c] (t :: ss) := by
  simp [join]

theorem split_join {ss : List (List Char)} (hne : ss ≠ []) (h : ∀ s ∈ ss, c ∉ s) :
    split (· == c) (join [c] ss) = ss := by
  induction ss with
  | nil => exact absurd rfl hne
  | cons s ss ih =>
    obtain ⟨hs, hss⟩ := List.forall_mem_cons.mp h
    have hsplit : split (· == c) s = [s] :=
      split_of_forall fun x hx => beq_eq_false_iff_ne.mpr fun heq => hs (heq ▸ hx)
    cases ss with
    | nil => exact hsplit
    | cons t ts =>
      rw [join_cons_cons, split_append_cons (· == c) _ _ (beq_self_eq_true c), hsplit,
        ih (List.cons_ne_nil _ _) hss]
      rfl

end Splitting

end Conductor.Text
