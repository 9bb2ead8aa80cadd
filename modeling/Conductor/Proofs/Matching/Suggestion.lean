import Conductor.Proofs.Matching.Gathering
import Conductor.Proofs.Matching.Keywords

/-! Suggested tags and matched ones. Both go by one table of synonyms, but a fragment of a synonym
suggests a tag that it does not match. -/

namespace Conductor.Matching

variable {text tag k : List Char} {ks : List (List Char)}

theorem mem_suggest : tag ∈ suggest text ↔ ∃ k ∈ keywords text, tag ∈ tagsOf k := by
  rw [suggest, mem_foldl_addTag, List.mem_flatMap]
  exact or_iff_right List.not_mem_nil

/-- A keyword suggests the names of the groups that it is near, and itself if it is long enough. -/
theorem mem_tagsOf : tag ∈ tagsOf k ↔
    (∃ g ∈ synonyms, g.near k = true ∧ g.root = tag) ∨ k.length > 3 ∧ tag = k := by
  unfold tagsOf
  rw [List.mem_append, List.mem_map]
  simp only [List.mem_filter, and_assoc]
  split
  · next h => rw [List.mem_singleton, and_iff_right h]
  · next h => exact or_congr_right (iff_of_false List.not_mem_nil fun hk => h hk.1)

theorem mem_matched_singleton : tag ∈ matched ks [tag] ↔ ∃ k ∈ ks, fits tag k = true := by
  rw [mem_matched]
  exact and_iff_right (List.mem_singleton_self tag)

theorem fits_self (s : List Char) : fits s s = true := by
  rw [fits, Text.occurs_self, Bool.true_or, Bool.true_or]

section Groups

variable {g h : Synonyms}

theorem lower_root : ∀ g ∈ synonyms, Text.lower g.root = g.root := by decide +kernel

/-- No term of another group is part of the name of a group. -/
theorem root_of_touches : ∀ g ∈ synonyms, ∀ h ∈ synonyms, h.touches g.root = true → h.root = g.root := by
  decide +kernel

theorem touches_root (g : Synonyms) : g.touches g.root = true :=
  List.any_eq_true.mpr ⟨g.root, List.mem_cons_self, Text.occurs_self _⟩

theorem touches_of_occurs {s : List Char} (hs : Text.occurs g.root s = true) : g.touches s = true :=
  List.any_eq_true.mpr ⟨g.root, List.mem_cons_self, hs⟩

/-- The name of a group fits the keywords that are part of it or that contain a term of the group. -/
theorem fits_root_iff (hg : g ∈ synonyms) (hk : Text.lower k = k) : fits g.root k = true ↔
    ∃ h ∈ synonyms, h.root = g.root ∧ (Text.occurs k h.root = true ∨ h.touches k = true) := by
  unfold fits
  rw [lower_root g hg, hk, Bool.or_eq_true, Bool.or_eq_true, List.any_eq_true]
  constructor
  · rintro ((hpart | hwhole) | ⟨h, hh, htouches⟩)
    · exact ⟨g, hg, rfl, .inl hpart⟩
    · exact ⟨g, hg, rfl, .inr (touches_of_occurs hwhole)⟩
    · rw [Bool.and_eq_true] at htouches
      exact ⟨h, hh, root_of_touches g hg h hh htouches.1, .inr htouches.2⟩
  · rintro ⟨h, hh, hroot, hpart | htouches⟩
    · exact .inl (.inl (hroot ▸ hpart))
    · refine .inr ⟨h, hh, ?_⟩
      rw [Bool.and_eq_true]
      exact ⟨hroot ▸ touches_root h, htouches⟩

end Groups

/-- An agent that has just a suggested tag is matched if the tag is a keyword, or names a group of which a
keyword contains a term, or contains a keyword. -/
theorem mem_matched_iff (htag : tag ∈ suggest text) : tag ∈ matched (keywords text) [tag] ↔
    tag ∈ keywords text ∨ ∃ k ∈ keywords text, ∃ g ∈ synonyms, g.root = tag ∧
      (Text.occurs k g.root = true ∨ g.touches k = true) := by
  rw [mem_matched_singleton]
  constructor
  · rintro ⟨k, hk, hfits⟩
    obtain ⟨k', hk', htag⟩ := mem_suggest.mp htag
    rcases mem_tagsOf.mp htag with ⟨g, hg, -, rfl⟩ | ⟨-, rfl⟩
    · exact .inr ⟨k, hk, (fits_root_iff hg (lower_keyword hk)).mp hfits⟩
    · exact .inl hk'
  · rintro (hk | ⟨k, hk, g, hg, rfl, h⟩)
    · exact ⟨tag, hk, fits_self tag⟩
    · exact ⟨k, hk, (fits_root_iff hg (lower_keyword hk)).mpr ⟨g, hg, rfl, h⟩⟩

theorem mem_matched_iff_summary : "summarize".toList ∈ suggest "summary".toList ∧
    ("summarize".toList ∈ matched (keywords "summary".toList) ["summarize".toList] ↔
      "summarize".toList ∈ keywords "summary".toList ∨ ∃ k ∈ keywords "summary".toList,
        ∃ g ∈ synonyms, g.root = "summarize".toList ∧
          (Text.occurs k g.root = true ∨ g.touches k = true)) := by
  have htag : "summarize".toList ∈ suggest "summary".toList := by decide +kernel
  exact ⟨htag, mem_matched_iff htag⟩

/-- A fragment of a synonym suggests the name of its group without matching it. -/
theorem not_matched_fragment : "code".toList ∈ suggest "dev".toList ∧
    "code".toList ∉ matched (keywords "dev".toList) ["code".toList] := by
  decide +kernel

end Conductor.Matching
