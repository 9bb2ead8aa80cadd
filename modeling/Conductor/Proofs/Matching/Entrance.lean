import Conductor.Proofs.Matching.Suggestion

/-! Which tags a task text suggests, and in which order: the names of all groups that a keyword fits, and
the longer keywords, by the keyword that brings them in first. -/

namespace Conductor.Matching

variable {text tag k s t : List Char} {ks : List (List Char)}

/-- A keyword brings in the names of the groups that it is near, and itself if it is long enough. -/
def Brings (k tag : List Char) : Prop :=
  (∃ g ∈ synonyms, g.near k = true ∧ g.root = tag) ∨ k.length > 3 ∧ tag = k

instance (k tag : List Char) : Decidable (Brings k tag) := inferInstanceAs (Decidable (_ ∨ _))

/-- The place among the keywords of the first that brings a tag in. -/
def entrance (ks : List (List Char)) (tag : List Char) : Nat := ks.findIdx fun k => decide (Brings k tag)

theorem suggest_eq (text : List Char) :
    suggest text = gathered (fun _ => true) ((keywords text).flatMap tagsOf) := by
  rw [gathered, List.filter_true, suggest]

/-- What stands first among all that the keywords bring in was brought in first. -/
theorem entrance_le_of_idxOf_lt (h : (ks.flatMap tagsOf).idxOf s < (ks.flatMap tagsOf).idxOf t) :
    entrance ks s ≤ entrance ks t := by
  induction ks with
  | nil => exact absurd h (Nat.lt_irrefl _)
  | cons k ks ih =>
    unfold entrance at ih ⊢
    rw [List.flatMap_cons] at h
    by_cases hs : s ∈ tagsOf k
    · have hbrings : decide (Brings k s) = true := decide_eq_true (mem_tagsOf.mp hs)
      rw [List.findIdx_cons, hbrings]
      exact Nat.zero_le _
    · -- The keyword brings neither in: it would put `t` before `s`.
      rw [List.idxOf_append_of_notMem hs] at h
      have ht : t ∉ tagsOf k := by
        intro ht
        rw [List.idxOf_append_of_mem ht] at h
        have hlt := List.idxOf_lt_length_of_mem ht
        omega
      rw [List.idxOf_append_of_notMem ht] at h
      have hs' : decide (Brings k s) = false := decide_eq_false (mt mem_tagsOf.mpr hs)
      have ht' : decide (Brings k t) = false := decide_eq_false (mt mem_tagsOf.mpr ht)
      rw [List.findIdx_cons, List.findIdx_cons, hs', ht']
      exact Nat.succ_le_succ (ih (by omega))

theorem pairwise_suggest (text : List Char) :
    (suggest text).Pairwise fun s t => entrance (keywords text) s ≤ entrance (keywords text) t := by
  rw [suggest_eq]
  exact (pairwise_gathered _ _).imp entrance_le_of_idxOf_lt

/-- A keyword that fits the name of a group brings it in. -/
theorem brings_of_fits {g : Synonyms} (hg : g ∈ synonyms) (hk : Text.lower k = k)
    (hfits : fits g.root k = true) : Brings k g.root := by
  obtain ⟨h, hh, hroot, hterm⟩ := (fits_root_iff hg hk).mp hfits
  refine .inl ⟨h, hh, ?_, hroot⟩
  rcases hterm with hpart | htouches
  · exact List.any_eq_true.mpr ⟨h.root, List.mem_cons_self, Bool.or_eq_true_iff.mpr (.inl hpart)⟩
  · obtain ⟨term, hterm, hoccurs⟩ := List.any_eq_true.mp htouches
    exact List.any_eq_true.mpr ⟨term, hterm, Bool.or_eq_true_iff.mpr (.inr hoccurs)⟩

/-- No group is left out that a keyword fits, and no keyword of more than three characters. Nothing else is
suggested, nothing twice, and what an earlier keyword brings in comes earlier. -/
theorem suggest_complete (text : List Char) :
    (∀ g ∈ synonyms, ∀ k ∈ keywords text, fits g.root k = true → g.root ∈ suggest text) ∧
    (suggest text).Nodup ∧
    (∀ k ∈ keywords text, k.length > 3 → k ∈ suggest text) ∧
    (∀ tag ∈ suggest text, (∃ g ∈ synonyms, g.root = tag) ∨ tag ∈ keywords text ∧ tag.length > 3) ∧
    (∀ tag, tag ∈ suggest text ↔ ∃ k ∈ keywords text, Brings k tag) ∧
    (suggest text).Pairwise fun s t => entrance (keywords text) s ≤ entrance (keywords text) t := by
  have hmem (tag : List Char) : tag ∈ suggest text ↔ ∃ k ∈ keywords text, Brings k tag :=
    mem_suggest.trans (exists_congr fun k => and_congr_right fun _ => mem_tagsOf)
  refine ⟨fun g hg k hk hfits => ?_, ?_, fun k hk hlong => ?_, fun tag htag => ?_, hmem,
    pairwise_suggest text⟩
  · exact (hmem _).mpr ⟨k, hk, brings_of_fits hg (lower_keyword hk) hfits⟩
  · rw [suggest_eq]
    exact nodup_gathered _ _
  · exact (hmem k).mpr ⟨k, hk, .inr ⟨hlong, rfl⟩⟩
  · obtain ⟨k, hk, ⟨g, hg, -, hroot⟩ | ⟨hlong, rfl⟩⟩ := (hmem tag).mp htag
    · exact .inl ⟨g, hg, hroot⟩
    · exact .inr ⟨hk, hlong⟩

end Conductor.Matching
