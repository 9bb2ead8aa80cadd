import Conductor.Proofs.Text.Parts
import Conductor.Text.Word

/-! Texts cut into words, and words put together again with one blank between each two. -/

namespace Conductor.Text

variable {s w : List Char} {ws : List (List Char)} {c : Char}

/-- A blank ends the words before it. -/
theorem words_append_cons (hc : isBlank c = true) (a b : List Char) :
    words (a ++ c :: b) = words a ++ words b := by
  unfold words
  rw [split_append_cons isBlank a b hc, List.filter_append]

/-- A text without blanks is one word. -/
theorem words_of_forall (hne : s ≠ []) (h : ∀ c ∈ s, isBlank c = false) : words s = [s] := by
  rw [words, split_of_forall h]
  exact List.filter_cons_of_pos (by simpa using hne)

theorem not_blank_of_mem_words (h : w ∈ words s) : ∀ c ∈ w, isBlank c = false :=
  not_mem_of_mem_split (List.mem_filter.mp h).1

theorem mem_of_mem_words (h : w ∈ words s) (hc : c ∈ w) : c ∈ s :=
  mem_of_mem_split (List.mem_filter.mp h).1 hc

theorem forall_mem_join {P : Char → Prop} {sep : List Char} (hsep : ∀ c ∈ sep, P c)
    (h : ∀ w ∈ ws, ∀ c ∈ w, P c) : ∀ c ∈ join sep ws, P c := by
  induction ws with
  | nil => exact fun _ hc => absurd hc List.not_mem_nil
  | cons w ws ih =>
    obtain ⟨hw, hws⟩ := List.forall_mem_cons.mp h
    cases ws with
    | nil => exact hw
    | cons x xs =>
      intro c hc
      rcases List.mem_append.mp hc with hc | hc
      · exact (List.mem_append.mp hc).elim (hw c) (hsep c)
      · exact ih hws c hc

/-- The words of a text that was put together from words are these. -/
theorem words_join (hc : isBlank c = true) (hne : ∀ w ∈ ws, w ≠ [])
    (h : ∀ w ∈ ws, ∀ c ∈ w, isBlank c = false) : words (join [c] ws) = ws := by
  induction ws with
  | nil => rfl
  | cons w ws ih =>
    obtain ⟨hw, hws⟩ := List.forall_mem_cons.mp h
    obtain ⟨hnew, hnews⟩ := List.forall_mem_cons.mp hne
    have hone : words w = [w] := words_of_forall hnew hw
    cases ws with
    | nil => exact hone
    | cons x xs =>
      rw [join_cons_cons, words_append_cons hc, hone, ih hnews hws]
      rfl

/-- The code points of blanks, one by one, are none of word characters. -/
theorem not_isWord_blanks : ∀ i ∈ (28, 31) :: whiteIntervals, ∀ n ∈ List.range' i.1 (i.2 + 1 - i.1),
    isWord (Char.ofNat n) = false := by
  decide +kernel

theorem not_blank_of_isWord (h : isWord c = true) : isBlank c = false := by
  -- a blank would lie in one of the intervals, at one of the code points that were looked at
  have hout : ∀ i ∈ (28, 31) :: whiteIntervals, ¬ (i.1 ≤ c.toNat ∧ c.toNat ≤ i.2) := by
    rintro i hi ⟨hlow, hhigh⟩
    have hnot := not_isWord_blanks i hi c.toNat (List.mem_range'_1.mpr ⟨hlow, by omega⟩)
    rw [Char.ofNat_toNat, h] at hnot
    cases hnot
  obtain ⟨hseparator, hwhite⟩ := List.forall_mem_cons.mp hout
  rw [isBlank, Bool.or_eq_false_iff]
  constructor
  · simpa using hseparator
  · rw [isWhite, Intervals.contains, List.any_eq_false]
    intro i hi
    simpa using hwhite i hi

end Conductor.Text
