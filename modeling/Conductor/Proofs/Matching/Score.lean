import Conductor.Proofs.Decimal.Quotient
import Conductor.Proofs.Matching.Gathering

/-! How well capabilities cover a task. Each capability that fits counts once, so that the score is a share of
the keywords which only grows with what an agent can do. -/

namespace Conductor.Matching

open Decimal (IsNearest isFinite rational nearest)

variable {count more number : ℕ}

/-- What a share stands for: no part of nothing, else a quotient that is cut at one. -/
def portion (count number : ℕ) : ℚ := if number = 0 then 0 else min (count / number) 1

/-- The share of the keywords that the matched capabilities make up. -/
def coverage (ks cs : List (List Char)) : ℚ := portion (matched ks cs).length ks.length

section Portion

theorem portion_nonneg (count number : ℕ) : 0 ≤ portion count number := by
  unfold portion
  split
  · exact le_rfl
  · exact le_min (by positivity) zero_le_one

theorem portion_le_one (count number : ℕ) : portion count number ≤ 1 := by
  unfold portion
  split
  · exact zero_le_one
  · exact min_le_right _ _

theorem portion_mono (h : count ≤ more) (number : ℕ) : portion count number ≤ portion more number := by
  unfold portion
  split
  · exact le_rfl
  · gcongr

theorem portion_lt (h : count < more) (hn : 0 < number) (hbelow : portion more number < 1) :
    portion count number < portion more number := by
  unfold portion at hbelow ⊢
  rw [if_neg hn.ne'] at hbelow
  rw [if_neg hn.ne', if_neg hn.ne']
  have hmore : (more / number : ℚ) < 1 := (min_lt_iff.mp hbelow).resolve_right (lt_irrefl _)
  rw [min_eq_left hmore.le]
  refine lt_of_le_of_lt (min_le_left _ _) ?_
  gcongr

theorem rational_zero : rational 0.0 = 0 := by decide +kernel

theorem rational_one : rational 1.0 = 1 := by decide +kernel

/-- Rounding and cutting at one can be done in either order. -/
theorem IsNearest.cut {x : Float} {q : ℚ} (h : IsNearest x q) :
    IsNearest (if 1.0 < x then 1.0 else x) (min q 1) := by
  have hone : isFinite 1.0 = true := rfl
  have hlt : 1.0 < x ↔ 1 < rational x := by rw [Decimal.lt_iff_rational hone h.finite, rational_one]
  by_cases hq : q ≤ 1
  · have hle : x ≤ 1.0 := h.le_of_le hone (rational_one ▸ hq)
    rw [Decimal.le_iff_rational h.finite hone, rational_one] at hle
    rwa [if_neg (mt hlt.mp (not_lt.mpr hle)), min_eq_left hq]
  · have hge : 1.0 ≤ x := h.ge_of_ge hone (rational_one ▸ (not_le.mp hq).le)
    rw [Decimal.le_iff_rational hone h.finite, rational_one] at hge
    rw [min_eq_right (not_le.mp hq).le]
    -- What is cut at one, or was rounded to it, stands for one.
    split
    · exact rational_one ▸ Decimal.isNearest_rational hone
    · next hnot =>
      have hsame : rational x = 1 := le_antisymm (not_lt.mp (mt hlt.mpr hnot)) hge
      exact hsame ▸ Decimal.isNearest_rational h.finite

/-- The computed share is the double nearest to the exact one. -/
theorem isNearest_share (count number : ℕ) : IsNearest (share count number) (portion count number) := by
  unfold share portion
  split
  · exact rational_zero ▸ Decimal.isNearest_rational rfl
  · next hnumber =>
    have hd : 0 < number := Nat.pos_of_ne_zero hnumber
    by_cases hbits : Decimal.nearestBits count number < Decimal.infinityBits
    · exact IsNearest.cut (Decimal.isNearest_nearest hd hbits)
    · -- What is too large for a double is more than one.
      have hlarge : 1.0 < nearest count number := by
        unfold nearest
        rw [Nat.min_eq_right (not_lt.mp hbits)]
        decide +kernel
      have hmore : (1 : ℚ) ≤ count / number := by
        rw [Decimal.nearestBits_lt_iff hd, not_lt] at hbits
        exact le_trans (Nat.one_le_cast.mpr Decimal.rangeEnd_pos) hbits
      dsimp only
      rw [if_pos hlarge, min_eq_right hmore]
      exact rational_one ▸ Decimal.isNearest_rational rfl

/-- More capabilities that fit never make a smaller share, not even by rounding. -/
theorem share_mono (h : count ≤ more) (number : ℕ) : share count number ≤ share more number := by
  have hcount := isNearest_share count number
  have hmore := isNearest_share more number
  have hself {x : Float} (hx : isFinite x = true) : x ≤ x := (Decimal.le_iff_rational hx hx).mpr le_rfl
  rcases Nat.eq_zero_or_pos number with rfl | hn
  · exact hself (x := 0.0) rfl
  · rcases h.eq_or_lt with rfl | hlt
    · exact hself hcount.finite
    · rcases (portion_le_one more number).eq_or_lt with hone | hbelow
      · -- A share of one is a double of its own, above which nothing is rounded.
        rw [hone, ← rational_one] at hmore
        refine hcount.le_of_le hmore.finite ?_
        rw [hmore.rational_eq rfl, rational_one]
        exact portion_le_one count number
      · exact hcount.le_of_lt hmore (portion_lt hlt hn hbelow)

end Portion

/-- The score depends on two counts alone. -/
theorem score_congr {ks ls cs ds : List (List Char)} (hcount : (matched ls ds).length = (matched ks cs).length)
    (hnumber : ls.length = ks.length) : score ls ds = score ks cs := by
  rw [score, hcount, hnumber]
  rfl

/-- Each capability that fits some keyword counts once, where it comes first. The score is the share of the
keywords that these make up, at most one, and is rounded as divisions are. What an agent can do besides adds to
the list and lowers no score; what is said again, and the order of the keywords, makes no difference. -/
theorem score_counts_once (ks cs : List (List Char)) :
    (matched ks cs).Nodup ∧
    (∀ c, c ∈ matched ks cs ↔ c ∈ cs ∧ ∃ k ∈ ks, fits c k = true) ∧
    ((matched ks cs).Pairwise fun c d => cs.idxOf c < cs.idxOf d) ∧
    (ks = [] → score ks cs = 0.0 ∧ coverage ks cs = 0) ∧
    (ks ≠ [] → coverage ks cs = min ((matched ks cs).length / ks.length : ℚ) 1) ∧
    IsNearest (score ks cs) (coverage ks cs) ∧
    0 ≤ coverage ks cs ∧ coverage ks cs ≤ 1 ∧ 0.0 ≤ score ks cs ∧ score ks cs ≤ 1.0 ∧
    (∀ ds, matched ks cs <+: matched ks (cs ++ ds) ∧ coverage ks cs ≤ coverage ks (cs ++ ds) ∧
      score ks cs ≤ score ks (cs ++ ds)) ∧
    (∀ before c after, cs = before ++ after → c ∈ before →
      matched ks (before ++ c :: after) = matched ks cs ∧ score ks (before ++ c :: after) = score ks cs) ∧
    (∀ ds, ds.eraseDups = cs.eraseDups → matched ks ds = matched ks cs ∧ score ks ds = score ks cs) ∧
    (∀ ds, (∀ c, c ∈ ds ↔ c ∈ cs) → score ks ds = score ks cs) ∧
    ∀ ls, ks.Perm ls → matched ls cs = matched ks cs ∧ score ls cs = score ks cs := by
  have hnearest : IsNearest (score ks cs) (coverage ks cs) := isNearest_share _ _
  have halike {ds ls : List (List Char)} (hsame : matched ls ds = matched ks cs)
      (hnumber : ls.length = ks.length) : matched ls ds = matched ks cs ∧ score ls ds = score ks cs :=
    ⟨hsame, score_congr (congrArg List.length hsame) hnumber⟩
  refine ⟨matched_eq ks cs ▸ nodup_gathered _ _, fun _ => mem_matched, matched_eq ks cs ▸ pairwise_gathered _ _,
    ?_, ?_, hnearest, portion_nonneg _ _, portion_le_one _ _, ?_, ?_, fun ds => ?_, ?_, ?_, ?_, ?_⟩
  · rintro rfl
    exact ⟨rfl, rfl⟩
  · intro hks
    exact if_neg (mt List.length_eq_zero_iff.mp hks)
  · exact hnearest.ge_of_ge rfl (rational_zero ▸ portion_nonneg _ _)
  · exact hnearest.le_of_le rfl (rational_one ▸ portion_le_one _ _)
  · have hgrows := prefix_matched_append ks cs ds
    exact ⟨hgrows, portion_mono hgrows.length_le _, share_mono hgrows.length_le _⟩
  · rintro before c after rfl hc
    refine halike ?_ rfl
    rw [matched_eq, matched_eq, gathered_append_cons hc]
  · intro ds hds
    refine halike ?_ rfl
    rw [matched_eq, matched_eq, gathered_eq, gathered_eq, hds]
  · intro ds hds
    refine score_congr ?_ rfl
    rw [matched_eq, matched_eq]
    exact length_gathered_congr hds
  · intro ls hperm
    refine halike ?_ hperm.length_eq.symm
    rw [matched_eq, matched_eq, suits_perm hperm]

end Conductor.Matching
