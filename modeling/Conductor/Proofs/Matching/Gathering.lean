import Conductor.Matching.Capability
import Mathlib.Data.List.Nodup
import Mathlib.Data.List.Infix

/-! Tags that are gathered one after the other, those that a task suggests and those that are matched. Each is
written down where it comes up first, so that what follows can only add to the list, and what is repeated
changes nothing. -/

namespace Conductor.Matching

variable {tag t : List Char} {p : List Char → Bool} {ts us : List (List Char)}

theorem mem_addTag (tags : List (List Char)) (t : List Char) :
    tag ∈ addTag tags t ↔ tag ∈ tags ∨ tag = t := by
  unfold addTag
  split
  · next h =>
    have ht : t ∈ tags := List.contains_iff_mem.mp h
    exact ⟨.inl, fun h => h.elim id fun h => h ▸ ht⟩
  · rw [List.mem_append, List.mem_singleton]

theorem mem_foldl_addTag (ts tags : List (List Char)) :
    tag ∈ ts.foldl addTag tags ↔ tag ∈ tags ∨ tag ∈ ts := by
  induction ts generalizing tags with
  | nil => simp
  | cons t ts ih => rw [List.foldl_cons, ih, mem_addTag, List.mem_cons, or_assoc]

theorem addTag_of_mem {tags : List (List Char)} (h : t ∈ tags) : addTag tags t = tags :=
  if_pos (List.contains_iff_mem.mpr h)

theorem addTag_of_not_mem {tags : List (List Char)} (h : t ∉ tags) : addTag tags t = tags ++ [t] :=
  if_neg (mt List.contains_iff_mem.mp h)

theorem prefix_foldl_addTag (ts tags : List (List Char)) : tags <+: ts.foldl addTag tags := by
  induction ts generalizing tags with
  | nil => exact List.prefix_rfl
  | cons t ts ih =>
    refine List.IsPrefix.trans ?_ (ih (addTag tags t))
    unfold addTag
    split
    · exact List.prefix_rfl
    · exact List.prefix_append tags [t]

/-- The tags of a list that pass a test, each of them once. -/
def gathered (p : List Char → Bool) (ts : List (List Char)) : List (List Char) :=
  (ts.filter p).foldl addTag []

theorem mem_gathered : tag ∈ gathered p ts ↔ tag ∈ ts ∧ p tag = true := by
  rw [gathered, mem_foldl_addTag, List.mem_filter]
  exact or_iff_right List.not_mem_nil

theorem gathered_append (ts us : List (List Char)) :
    gathered p (ts ++ us) = (us.filter p).foldl addTag (gathered p ts) := by
  rw [gathered, List.filter_append, List.foldl_append]
  rfl

theorem prefix_gathered_append (ts us : List (List Char)) : gathered p ts <+: gathered p (ts ++ us) := by
  rw [gathered_append]
  exact prefix_foldl_addTag _ _

/-- A tag that came up before adds nothing. -/
theorem gathered_append_singleton (h : t ∈ ts) : gathered p (ts ++ [t]) = gathered p ts := by
  rw [gathered_append]
  by_cases ht : p t = true
  · rw [List.filter_cons_of_pos ht]
    exact addTag_of_mem (mem_gathered.mpr ⟨h, ht⟩)
  · rw [List.filter_cons_of_neg ht]
    rfl

theorem gathered_append_cons (h : t ∈ ts) (us : List (List Char)) :
    gathered p (ts ++ t :: us) = gathered p (ts ++ us) := by
  rw [List.append_cons, gathered_append, gathered_append_singleton h, ← gathered_append]

/-- Tags are in the order in which they first come up. -/
theorem pairwise_gathered (p : List Char → Bool) (ts : List (List Char)) :
    (gathered p ts).Pairwise fun s t => ts.idxOf s < ts.idxOf t := by
  induction ts using List.reverseRecOn with
  | nil => exact List.Pairwise.nil
  | append_singleton ts t ih =>
    have hold {s : List Char} (hs : s ∈ gathered p ts) : (ts ++ [t]).idxOf s = ts.idxOf s :=
      List.idxOf_append_of_mem (mem_gathered.mp hs).1
    have hkept : (gathered p ts).Pairwise fun s u => (ts ++ [t]).idxOf s < (ts ++ [t]).idxOf u := by
      refine ih.imp_of_mem fun hs hu hlt => ?_
      rwa [hold hs, hold hu]
    by_cases ht : t ∈ ts
    · rwa [gathered_append_singleton ht]
    · rw [gathered_append]
      by_cases hp : p t = true
      · have hnew : t ∉ gathered p ts := fun h => ht (mem_gathered.mp h).1
        rw [List.filter_cons_of_pos hp]
        change (addTag (gathered p ts) t).Pairwise _
        rw [addTag_of_not_mem hnew]
        refine List.pairwise_append.mpr ⟨hkept, List.pairwise_singleton _ _, fun s hs u hu => ?_⟩
        obtain rfl := List.mem_singleton.mp hu
        -- What came up before stands within the list, and the new tag behind it.
        rw [hold hs, List.idxOf_append_of_notMem ht]
        exact Nat.lt_add_right _ (List.idxOf_lt_length_of_mem (mem_gathered.mp hs).1)
      · rwa [List.filter_cons_of_neg hp]

theorem nodup_gathered (p : List Char → Bool) (ts : List (List Char)) : (gathered p ts).Nodup := by
  refine (pairwise_gathered p ts).imp fun hlt => ?_
  rintro rfl
  exact Nat.lt_irrefl _ hlt

/-- Leaving out repetitions and leaving out tags can be done in either order. -/
theorem gathered_eq (p : List Char → Bool) (ts : List (List Char)) : gathered p ts = ts.eraseDups.filter p := by
  induction ts using List.reverseRecOn with
  | nil => rfl
  | append_singleton ts t ih =>
    rw [List.eraseDups_append, List.filter_append, ← ih]
    by_cases ht : t ∈ ts
    · have hnone : [t].removeAll ts = [] := by simp [List.removeAll, ht]
      rw [gathered_append_singleton ht, hnone, List.eraseDups_nil, List.filter_nil, List.append_nil]
    · have hone : [t].removeAll ts = [t] := by simp [List.removeAll, ht]
      have hnew : t ∉ gathered p ts := fun h => ht (mem_gathered.mp h).1
      rw [gathered_append, hone]
      by_cases hp : p t = true
      · rw [List.filter_cons_of_pos hp]
        exact (addTag_of_not_mem hnew).trans (by simp [List.eraseDups_cons, hp])
      · rw [List.filter_cons_of_neg hp]
        simp [List.eraseDups_cons, hp]

/-- Which tags are gathered, and so how many, depends on the tags there are alone. -/
theorem length_gathered_congr (h : ∀ t, t ∈ ts ↔ t ∈ us) : (gathered p ts).length = (gathered p us).length := by
  have hperm : (gathered p ts).Perm (gathered p us) := by
    rw [List.perm_ext_iff_of_nodup (nodup_gathered p ts) (nodup_gathered p us)]
    intro t
    rw [mem_gathered, mem_gathered, h t]
  exact hperm.length_eq

section Matched

variable {ks ls cs : List (List Char)}

/-- A capability fits some of the keywords. -/
def suits (ks : List (List Char)) (c : List Char) : Bool := ks.any (fits c)

theorem matchedFrom_eq (ks found cs : List (List Char)) :
    matchedFrom ks found cs = (cs.filter (suits ks)).foldl addTag found := by
  induction cs generalizing found with
  | nil => rfl
  | cons c cs ih =>
    rw [matchedFrom, ih, ih]
    change (if found.contains c = true then _ else if suits ks c = true then _ else _) = _
    by_cases hsuits : suits ks c = true
    · rw [if_pos hsuits, List.filter_cons_of_pos hsuits, List.foldl_cons]
      by_cases hfound : c ∈ found
      · rw [if_pos (List.contains_iff_mem.mpr hfound), addTag_of_mem hfound]
      · rw [if_neg (mt List.contains_iff_mem.mp hfound), addTag_of_not_mem hfound]
    · rw [if_neg hsuits, List.filter_cons_of_neg hsuits, ite_self]

theorem matched_eq (ks cs : List (List Char)) : matched ks cs = gathered (suits ks) cs :=
  matchedFrom_eq ks [] cs

theorem mem_matched {c : List Char} : c ∈ matched ks cs ↔ c ∈ cs ∧ ∃ k ∈ ks, fits c k = true := by
  rw [matched_eq, mem_gathered, suits, List.any_eq_true]

theorem suits_perm (h : ks.Perm ls) : suits ls = suits ks := funext fun _ => h.symm.any_eq

theorem prefix_matched_append (ks cs ds : List (List Char)) : matched ks cs <+: matched ks (cs ++ ds) := by
  rw [matched_eq, matched_eq]
  exact prefix_gathered_append cs ds

end Matched

end Conductor.Matching
