import Conductor.Matching.Keywords
import Conductor.Proofs.Text.Small
import Conductor.Proofs.Text.Words

/-! What the keywords of a text are: the keywords of its parts in turn, and words that are their own
keywords. -/

namespace Conductor.Matching

variable {text w : List Char} {ws : List (List Char)} {c : Char}

/-- A word that is a keyword as it stands: small, of word characters only, more than two of them, and not
among the stop words. -/
structure IsPlainWord (w : List Char) : Prop where
  long : 2 < w.length
  meant : w ∉ stopWords
  isWord : ∀ c ∈ w, Text.isWord c = true
  isSmall : ∀ c ∈ w, Text.IsSmall c

theorem isKeyword_iff : isKeyword w = true ↔ 2 < w.length ∧ w ∉ stopWords := by
  simp [isKeyword]

theorem isSmall_space : Text.IsSmall ' ' := by decide

theorem spaced_space : spaced ' ' = ' ' := by decide

theorem spaced_of_isWord (h : Text.isWord c = true) : spaced c = c :=
  if_pos (Bool.or_eq_true_iff.mpr (.inl h))

/-- What is left of a text outside of blanks are word characters of the text. -/
theorem of_spaced (h : Text.isBlank (spaced c) = false) : spaced c = c ∧ Text.isWord c = true := by
  unfold spaced at h ⊢
  split
  · next hc =>
    rw [if_pos hc] at h
    rw [h, Bool.or_false] at hc
    exact ⟨rfl, hc⟩
  · next hc =>
    rw [if_neg hc] at h
    exact absurd h (by decide)

theorem isPlainWord_of_mem_keywords (h : w ∈ keywords text) : IsPlainWord w := by
  obtain ⟨hword, hkeyword⟩ := List.mem_filter.mp h
  obtain ⟨hlong, hmeant⟩ := isKeyword_iff.mp hkeyword
  have hchar : ∀ c ∈ w, Text.isWord c = true ∧ Text.IsSmall c := by
    intro c hc
    -- the character is no blank, so it is one of the small text that was left as it is
    obtain ⟨x, hx, rfl⟩ := List.mem_map.mp (Text.mem_of_mem_words hword hc)
    obtain ⟨hspaced, hisWord⟩ := of_spaced (Text.not_blank_of_mem_words hword _ hc)
    rw [hspaced]
    exact ⟨hisWord, Text.isSmall_of_mem_lower hx⟩
  exact ⟨hlong, hmeant, fun c hc => (hchar c hc).1, fun c hc => (hchar c hc).2⟩

theorem isSmall_of_mem_keywords (h : w ∈ keywords text) : ∀ c ∈ w, Text.IsSmall c :=
  (isPlainWord_of_mem_keywords h).isSmall

theorem lower_keyword (h : w ∈ keywords text) : Text.lower w = w :=
  Text.lower_of_isSmall (isSmall_of_mem_keywords h)

/-- A space between two texts keeps their keywords apart. -/
theorem keywords_append_space (a b : List Char) :
    keywords (a ++ ' ' :: b) = keywords a ++ keywords b := by
  have hlower : Text.lower (a ++ ' ' :: b) = Text.lower a ++ ' ' :: Text.lower b :=
    Text.lower_append_border (by decide) isSmall_space a b
  unfold keywords
  rw [hlower, List.map_append, List.map_cons, spaced_space, Text.words_append_cons (by decide),
    List.filter_append]

theorem keywords_join (h : ∀ w ∈ ws, IsPlainWord w) : keywords (Text.join [' '] ws) = ws := by
  have hsmall : ∀ c ∈ Text.join [' '] ws, Text.IsSmall c :=
    Text.forall_mem_join (List.forall_mem_singleton.mpr isSmall_space) fun w hw => (h w hw).isSmall
  have hspaced : ∀ c ∈ Text.join [' '] ws, spaced c = c :=
    Text.forall_mem_join (List.forall_mem_singleton.mpr spaced_space) fun w hw c hc =>
      spaced_of_isWord ((h w hw).isWord c hc)
  have hmap : (Text.join [' '] ws).map spaced = Text.join [' '] ws :=
    (List.map_congr_left hspaced).trans (List.map_id _)
  have hne : ∀ w ∈ ws, w ≠ [] := fun w hw => List.ne_nil_of_length_pos (Nat.zero_lt_of_lt (h w hw).long)
  have hwords : Text.words (Text.join [' '] ws) = ws :=
    Text.words_join (by decide) hne fun w hw c hc => Text.not_blank_of_isWord ((h w hw).isWord c hc)
  -- neither the small letters nor the blanks in place of punctuation change anything
  rw [keywords, Text.lower_of_isSmall hsmall, hmap, hwords]
  apply List.filter_eq_self.mpr
  intro w hw
  exact isKeyword_iff.mpr ⟨(h w hw).long, (h w hw).meant⟩

/-- The keywords of two texts with a space between them are those of the one and then those of the other.
Keywords are small words of more than two word characters that are no stop words, and just the lists of such
words are kept as they are when their words are written with spaces between them and keywords are read off
again: so are all keywords of a text, in order and as often as they occur. -/
theorem keywords_compose (a b : List Char) :
    keywords (a ++ ' ' :: b) = keywords a ++ keywords b ∧
      keywords (Text.join [' '] (keywords a)) = keywords a ∧
      (∀ w ∈ keywords a, 2 < w.length ∧ w ∉ stopWords ∧ ∀ c ∈ w, Text.isWord c = true) ∧
      ∀ ws, keywords (Text.join [' '] ws) = ws ↔ ∀ w ∈ ws, IsPlainWord w := by
  refine ⟨keywords_append_space a b, ?_, ?_, ?_⟩
  · exact keywords_join fun w hw => isPlainWord_of_mem_keywords hw
  · intro w hw
    have hplain : IsPlainWord w := isPlainWord_of_mem_keywords hw
    exact ⟨hplain.long, hplain.meant, hplain.isWord⟩
  · intro ws
    constructor
    · intro heq w hw
      exact isPlainWord_of_mem_keywords (heq ▸ hw)
    · exact keywords_join

example : keywords "Fix the API, then fix its docs!".toList =
    ["fix", "api", "then", "fix", "docs"].map String.toList := by
  decide +kernel

end Conductor.Matching
