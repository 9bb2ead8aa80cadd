import Conductor.Proofs.Decimal.Order

/-! Positions arranged by a score, best first. There is one such arrangement, and it stays one when
positions are left out of it or moved apart. -/

namespace Conductor.Matching

open Decimal (value)

variable {n : ℕ} {score : Fin n → Float} {chosen : Fin n → Prop} {order other : List (Fin n)}

/-- Of two positions the one with the better score leads, and of equal scores the earlier one. -/
def Leads (score : Fin n → Float) (i j : Fin n) : Prop :=
  score j < score i ∨ (score i == score j) = true ∧ i < j

/-- The chosen positions, each of them once, the best score first. -/
structure Arranged (score : Fin n → Float) (chosen : Fin n → Prop) (order : List (Fin n)) : Prop where
  nodup : order.Nodup
  mem_iff : ∀ i, i ∈ order ↔ chosen i
  leads : order.Pairwise (Leads score)

theorem not_sublist_swap {α : Type} {a b : α} {l : List α} (h : l.Nodup) (hab : [a, b].Sublist l) :
    ¬ [b, a].Sublist l := by
  induction l with
  | nil => cases hab
  | cons x l ih =>
    intro hba
    obtain ⟨hx, hl⟩ := List.nodup_cons.mp h
    cases hab with
    | cons _ hab =>
      cases hba with
      | cons _ hba => exact ih hl hab hba
      | cons_cons _ _ => exact hx (hab.subset (by simp))
    | cons_cons _ hb =>
      cases hba with
      | cons _ hba => exact hx (hba.subset (by simp))
      | cons_cons _ _ => exact hx (hb.subset (by simp))

theorem pair_sublist_of_lt {l : List (Fin n)} {i j : Fin n} (h : l.Pairwise (· < ·)) (hi : i ∈ l)
    (hj : j ∈ l) (hij : i < j) : [i, j].Sublist l := by
  obtain ⟨before, after, rfl⟩ := List.append_of_mem hi
  have hafter : j ∈ after := by
    rcases List.mem_append.mp hj with hm | hm
    · exact absurd ((List.pairwise_append.mp h).2.2 j hm i List.mem_cons_self) (lt_asymm hij)
    · exact (List.mem_cons.mp hm).resolve_left hij.ne'
  exact ((List.singleton_sublist.mpr hafter).cons_cons i).trans (List.sublist_append_right _ _)

section Numbers

variable {i j : Fin n} (hi : (score i).isNaN = false) (hj : (score j).isNaN = false)
include hi hj

theorem leads_iff_value : Leads score i j ↔
    value (score j) < value (score i) ∨ value (score i) = value (score j) ∧ i < j := by
  rw [Leads, Decimal.lt_iff_value hj hi, Decimal.beq_iff_value hi hj]

theorem Leads.asymm (h : Leads score i j) : ¬ Leads score j i := by
  rw [leads_iff_value hi hj] at h
  rw [leads_iff_value hj hi]
  rintro (h' | ⟨heq, h'⟩)
  · rcases h with h | ⟨heq, -⟩
    · exact lt_asymm h h'
    · exact h'.ne heq
  · rcases h with h | ⟨-, h⟩
    · exact h.ne heq
    · exact lt_asymm h h'

end Numbers

namespace Arranged

/-- There is one arrangement only. -/
theorem eq (hnumber : ∀ i, chosen i → (score i).isNaN = false) (h : Arranged score chosen order)
    (h' : Arranged score chosen other) : order = other := by
  have hperm : order.Perm other :=
    (List.perm_ext_iff_of_nodup h.nodup h'.nodup).mpr fun i => (h.mem_iff i).trans (h'.mem_iff i).symm
  refine hperm.eq_of_pairwise (fun i j hi hj hij hji => ?_) h.leads h'.leads
  have hi' := hnumber i ((h.mem_iff i).mp hi)
  have hj' := hnumber j ((h'.mem_iff j).mp hj)
  exact absurd hji (hij.asymm hi' hj')

theorem filter (h : Arranged score chosen order) (p : Fin n → Bool) :
    Arranged score (fun i => chosen i ∧ p i = true) (order.filter p) where
  nodup := h.nodup.filter p
  mem_iff i := by rw [List.mem_filter, h.mem_iff]
  leads := h.leads.filter p

/-- Positions that move apart keep their arrangement. -/
theorem map {m : ℕ} {moved : Fin m → Float} (places : Fin n ↪o Fin m)
    (hmoved : ∀ i, moved (places i) = score i) (h : Arranged score chosen order) :
    Arranged moved (fun j => ∃ i, chosen i ∧ places i = j) (order.map places) where
  nodup := h.nodup.map places.injective
  mem_iff j := by simp only [List.mem_map, h.mem_iff]
  leads := by
    refine List.pairwise_map.mpr (h.leads.imp fun {i j} hij => ?_)
    rw [Leads, hmoved, hmoved, places.lt_iff_lt]
    exact hij

/-- Where all scores are equal, the arrangement is the order of positions. -/
theorem of_beq (chosen : Fin n → Bool)
    (heq : ∀ i j, chosen i = true → chosen j = true → (score i == score j) = true) :
    Arranged score (chosen · = true) ((List.finRange n).filter chosen) where
  nodup := (List.nodup_finRange n).filter chosen
  mem_iff i := by rw [List.mem_filter, and_iff_right (List.mem_finRange i)]
  leads := ((List.pairwise_lt_finRange n).filter chosen).imp_of_mem fun hi hj hij =>
    .inr ⟨heq _ _ (List.mem_filter.mp hi).2 (List.mem_filter.mp hj).2, hij⟩

variable (score) in
/-- Whether a position comes before another in a sort by the scores. -/
def reaches (i j : Fin n) : Bool := value (score j) ≤ value (score i)

theorem reaches_trans (i j k : Fin n) (hij : reaches score i j = true) (hjk : reaches score j k = true) :
    reaches score i k = true :=
  decide_eq_true ((of_decide_eq_true hjk).trans (of_decide_eq_true hij))

theorem reaches_total (i j : Fin n) : (reaches score i j || reaches score j i) = true := by
  rw [Bool.or_eq_true, reaches, reaches, decide_eq_true_iff, decide_eq_true_iff]
  exact le_total _ _

/-- A stable sort keeps equal scores in their order. -/
theorem lt_of_sublist_mergeSort {l : List (Fin n)} (hincreasing : l.Pairwise (· < ·)) {i j : Fin n}
    (hsub : [i, j].Sublist (l.mergeSort (reaches score))) (heq : value (score i) = value (score j)) :
    i < j := by
  have hperm := List.mergeSort_perm l (reaches score)
  have honce : (l.mergeSort (reaches score)).Nodup := hperm.nodup_iff.mpr (hincreasing.imp ne_of_lt)
  have hi : i ∈ l := hperm.mem_iff.mp (hsub.subset (by simp))
  have hj : j ∈ l := hperm.mem_iff.mp (hsub.subset (by simp))
  -- The two would otherwise stand in the sorted list in both orders.
  by_contra hnot
  have hne : j ≠ i := fun h => by
    subst h
    exact List.nodup_iff_sublist.mp honce j hsub
  have hswap : [j, i].Sublist l :=
    pair_sublist_of_lt hincreasing hj hi (lt_of_le_of_ne (not_lt.mp hnot) hne)
  have hkept : [j, i].Sublist (l.mergeSort (reaches score)) :=
    List.pair_sublist_mergeSort reaches_trans reaches_total (decide_eq_true heq.le) hswap
  exact not_sublist_swap honce hsub hkept

/-- A stable sort arranges the chosen positions. -/
theorem mergeSort (chosen : Fin n → Bool) (hnumber : ∀ i, chosen i = true → (score i).isNaN = false) :
    Arranged score (chosen · = true) (((List.finRange n).filter chosen).mergeSort (reaches score)) := by
  obtain ⟨l, hl⟩ : ∃ l, l = (List.finRange n).filter chosen := ⟨_, rfl⟩
  have hincreasing : l.Pairwise (· < ·) := hl ▸ (List.pairwise_lt_finRange n).filter chosen
  rw [← hl]
  have hmem (i : Fin n) : i ∈ l.mergeSort (reaches score) ↔ chosen i = true := by
    rw [List.mem_mergeSort, hl, List.mem_filter, and_iff_right (List.mem_finRange i)]
  have hsorted : (l.mergeSort (reaches score)).Pairwise fun i j => reaches score i j = true :=
    List.pairwise_mergeSort reaches_trans reaches_total l
  refine ⟨(List.mergeSort_perm l _).nodup_iff.mpr (hincreasing.imp ne_of_lt), hmem, ?_⟩
  refine List.pairwise_iff_forall_sublist.mpr fun {i j} hsub => ?_
  have hi := hnumber i ((hmem i).mp (hsub.subset (by simp)))
  have hj := hnumber j ((hmem j).mp (hsub.subset (by simp)))
  have hle : value (score j) ≤ value (score i) :=
    of_decide_eq_true (List.pairwise_iff_forall_sublist.mp hsorted hsub)
  rw [leads_iff_value hi hj]
  exact hle.lt_or_eq.imp_right fun heq => ⟨heq.symm, lt_of_sublist_mergeSort hincreasing hsub heq.symm⟩

theorem congr {chosen' : Fin n → Prop} (h : Arranged score chosen order)
    (heq : ∀ i, chosen i ↔ chosen' i) : Arranged score chosen' order :=
  ⟨h.nodup, fun i => (h.mem_iff i).trans (heq i), h.leads⟩

theorem length_le (h : Arranged score chosen order) : order.length ≤ n := by
  have hcard := h.nodup.length_le_card
  rwa [Fintype.card_fin] at hcard

end Arranged

/-- The position that is best by the scores: none only if there is nothing to choose. -/
def IsBest (score : Fin n → Float) (chosen : Fin n → Prop) : Option (Fin n) → Prop
  | none => ∀ i, ¬ chosen i
  | some i => chosen i ∧ ∀ j, chosen j → j ≠ i → Leads score i j

theorem Arranged.isBest (h : Arranged score chosen order) : IsBest score chosen order.head? := by
  match order with
  | [] => exact fun i hi => List.not_mem_nil ((h.mem_iff i).mpr hi)
  | i :: rest =>
    refine ⟨(h.mem_iff i).mp List.mem_cons_self, fun j hj hne => ?_⟩
    have hrest := (List.mem_cons.mp ((h.mem_iff j).mpr hj)).resolve_left hne
    exact (List.pairwise_cons.mp h.leads).1 j hrest

end Conductor.Matching
