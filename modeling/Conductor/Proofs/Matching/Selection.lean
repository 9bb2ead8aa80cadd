import Conductor.Proofs.Matching.Ranking

/-! A ranking of fewer agents is the ranking of all with the others left out. -/

namespace Conductor.Matching

variable {o : Options} {text : List Char} {agents part : List Agent} {limit : ℕ}

/-- A limit that all agents are within leaves the arrangement as it is. -/
theorem Results.exists_rank_eq_ok {results : Fin agents.length → Ranked}
    (h : Results o text agents results) (hscored : Scored o text agents) (hlimit : o.limit = .int limit)
    (hlength : agents.length ≤ limit) :
    ∃ order, Arranged (fun i => (results i).score) (fun i => isRanked o text (results i) = true) order ∧
      rank o text agents = .ok (order.map results) := by
  obtain ⟨order, harranged, hrank⟩ := h.exists_rank_eq hscored
  have hwithin : (order.map results).length ≤ limit := by
    rw [List.length_map]
    exact harranged.length_le.trans hlength
  refine ⟨order, harranged, ?_⟩
  rw [hrank, hlimit, upTo_natCast, List.take_of_length_le hwithin]

/-- Options that let fewer results pass give the ranking without the others. -/
theorem exists_rank_filter (o o' : Options) (hlimit : o.limit = .int limit) (hlimit' : o'.limit = .int limit)
    (hlength : agents.length ≤ limit) (h : Scored o text agents)
    (hleast : keywords text ≠ [] → ∃ n, Setting.number o'.minScore = .ok n)
    (hgiven : ∀ a, given o' text a = given o text a)
    (hcandidate : ∀ a, isCandidate o' a = true → isCandidate o a = true) (p : Ranked → Bool)
    (hranked : ∀ r, isCandidate o r.agent = true → r.score.isNaN = false →
      (isRanked o' text r = true ↔ isRanked o text r = true ∧ p r = true)) :
    ∃ rs, rank o text agents = .ok rs ∧ rank o' text agents = .ok (rs.filter p) := by
  have h' : Scored o' text agents := by
    refine ⟨hleast, fun a ha ha' => ?_⟩
    rw [hgiven]
    exact h.score a ha (hcandidate a ha')
  obtain ⟨results, hresults⟩ := h.exists_results
  have hresults' : Results o' text agents results :=
    ⟨hresults.agent, fun i hi => (hgiven _).trans (hresults.given i (hcandidate _ hi))⟩
  obtain ⟨order, harranged, hrank⟩ := hresults.exists_rank_eq_ok h hlimit hlength
  obtain ⟨order', harranged', hrank'⟩ := hresults'.exists_rank_eq_ok h' hlimit' hlength
  -- The arrangement of those that still pass is a part of the other one, for there is one only.
  have hfewer (i : Fin agents.length) : isRanked o' text (results i) = true ↔
      isRanked o text (results i) = true ∧ p (results i) = true := by
    constructor
    · intro hi
      have hcandidate := hcandidate _ (hresults'.isCandidate hi)
      exact (hranked _ (hresults.agent i ▸ hcandidate) (hresults.isNaN h hcandidate)).mp hi
    · intro hi
      have hcandidate := hresults.isCandidate hi.1
      exact (hranked _ (hresults.agent i ▸ hcandidate) (hresults.isNaN h hcandidate)).mpr hi
  have heq : order' = order.filter (p ∘ results) :=
    (harranged'.congr hfewer).eq (fun i hi => hresults.isNaN h (hresults.isCandidate hi.1))
      (harranged.filter (p ∘ results))
  refine ⟨_, hrank, ?_⟩
  rw [hrank', heq, List.filter_map]

/-- A ranking of some of the agents, in their order, is the ranking of all without the others. -/
theorem exists_rank_part (hlimit : o.limit = .int limit) (hlength : agents.length ≤ limit)
    (h : Scored o text agents) (places : Fin part.length ↪o Fin agents.length)
    (hplaces : ∀ i, part.get i = agents.get (places i)) :
    ∃ (results : Fin agents.length → Ranked) (order : List (Fin agents.length)),
      Results o text agents results ∧
      Arranged (fun i => (results i).score) (fun i => isRanked o text (results i) = true) order ∧
      rank o text agents = .ok (order.map results) ∧
      rank o text part = .ok ((order.filter fun j => ∃ i, places i = j).map results) := by
  obtain ⟨results, hresults⟩ := h.exists_results
  have hpart : Scored o text part := by
    refine ⟨h.least, fun a ha hcandidate => h.score a ?_ hcandidate⟩
    obtain ⟨i, rfl⟩ := List.mem_iff_get.mp ha
    rw [hplaces]
    exact List.get_mem agents _
  have hresults' : Results o text part (results ∘ places) := by
    refine ⟨fun i => (hresults.agent _).trans (hplaces i).symm, fun i hi => ?_⟩
    rw [hplaces] at hi ⊢
    exact hresults.given _ hi
  have hlength' : part.length ≤ limit := by
    have hcard := Fintype.card_le_of_embedding places.toEmbedding
    rw [Fintype.card_fin, Fintype.card_fin] at hcard
    exact hcard.trans hlength
  obtain ⟨order, harranged, hrank⟩ := hresults.exists_rank_eq_ok h hlimit hlength
  obtain ⟨order', harranged', hrank'⟩ := hresults'.exists_rank_eq_ok hpart hlimit hlength'
  -- Both are arrangements of the positions that come from the part.
  have hmap : Arranged (fun j => (results j).score) _ (order'.map places) :=
    harranged'.map places fun _ => rfl
  have hfilter := harranged.filter fun j => ∃ i, places i = j
  have heq : order'.map places = order.filter fun j => ∃ i, places i = j := by
    refine (hmap.congr fun j => ?_).eq (fun j hj => ?_) hfilter
    · rw [decide_eq_true_iff]
      constructor
      · rintro ⟨i, hi, rfl⟩
        exact ⟨hi, i, rfl⟩
      · rintro ⟨hi, i, rfl⟩
        exact ⟨i, hi, rfl⟩
    · exact hresults.isNaN h (hresults.isCandidate hj.1)
  refine ⟨results, order, hresults, harranged, hrank, ?_⟩
  rw [hrank', ← heq, List.map_map]

/-- The rank of an agent does not depend on agents that are left out: a ranking of some of the agents is the
ranking of all without the others, the ranking of those online is that of all without those who are not,
and a greater least score only removes the results below it. -/
theorem rank_selection (text : List Char) (hlimit : o.limit = .int limit)
    (hlength : agents.length ≤ limit) :
    (Scored o text agents → ∀ (part : List Agent) (places : Fin part.length ↪o Fin agents.length),
      (∀ i, part.get i = agents.get (places i)) →
      ∃ (results : Fin agents.length → Ranked) (order : List (Fin agents.length)),
        Results o text agents results ∧
        Arranged (fun i => (results i).score) (fun i => isRanked o text (results i) = true) order ∧
        rank o text agents = .ok (order.map results) ∧
        rank o text part = .ok ((order.filter fun j => ∃ i, places i = j).map results)) ∧
    (Scored { o with onlineOnly := false } text agents →
      ∃ rs, rank { o with onlineOnly := false } text agents = .ok rs ∧
        rank { o with onlineOnly := true } text agents =
          .ok (rs.filter fun r => r.agent.availability = .online)) ∧
    ∀ (low high : Json) (m n : Number), Setting.number low = .ok m → Setting.number high = .ok n →
      m.AtMost n → keywords text ≠ [] → Scored { o with minScore := low } text agents →
      ∃ rs, rank { o with minScore := low } text agents = .ok rs ∧
        rank { o with minScore := high } text agents = .ok (rs.filter fun r => !n.exceeds r.score) := by
  refine ⟨fun h part places hplaces => exists_rank_part hlimit hlength h places hplaces, fun h => ?_,
    fun low high m n hlow hhigh hle hne h => ?_⟩
  · refine exists_rank_filter { o with onlineOnly := false } { o with onlineOnly := true } hlimit hlimit
      hlength h h.least (fun _ => rfl) (fun _ _ => rfl) _ fun r _ _ => ?_
    rw [isRanked, isRanked, Bool.and_eq_true, Bool.and_eq_true]
    exact (and_congr_left' (and_iff_left rfl)).symm
  · refine exists_rank_filter { o with minScore := low } { o with minScore := high } hlimit hlimit
      hlength h (fun _ => ⟨n, hhigh⟩) (fun _ => rfl) (fun _ ha => ha) _ fun r _ hnumber => ?_
    rw [isRanked_iff hhigh hne, isRanked_iff hlow hne, Bool.not_eq_true']
    constructor
    · -- What is below the lower bound is below the higher one.
      rintro ⟨honline, hnot⟩
      refine ⟨⟨honline, ?_⟩, hnot⟩
      rw [← Bool.not_eq_true] at hnot ⊢
      exact mt (hle.exceeds hnumber) hnot
    · rintro ⟨⟨honline, -⟩, hnot⟩
      exact ⟨honline, hnot⟩

/-- The places of the second and of the last one of a team of four. -/
def secondAndLast : Fin 2 ↪o Fin team.length :=
  OrderEmbedding.ofStrictMono (![1, 3] : Fin 2 → Fin 4) (Fin.strictMono_iff_lt_succ.mpr (by decide))

theorem rank_selection_team :
    (∃ (results : Fin team.length → Ranked) (order : List (Fin team.length)),
      rank .default "write".toList team = .ok (order.map results) ∧
      rank .default "write".toList [team.get (secondAndLast 0), team.get (secondAndLast 1)] =
        .ok ((order.filter fun j => ∃ i, secondAndLast i = j).map results)) ∧
    (∃ rs, rank .default "write".toList team = .ok rs ∧
      rank { Options.default with onlineOnly := true } "write".toList team =
        .ok (rs.filter fun r => r.agent.availability = .online)) ∧
    ∃ rs, rank .default "write".toList team = .ok rs ∧
      rank { Options.default with minScore := .float 0.5 } "write".toList team =
        .ok (rs.filter fun r => !(Number.double 0.5).exceeds r.score) := by
  have hscored : Scored .default "write".toList team :=
    ⟨fun _ => ⟨.double 0.0, rfl⟩, fun a ha _ => exists_given_of_default rfl rfl _ (count_team a ha)⟩
  have hkeywords : keywords "write".toList ≠ [] := by decide +kernel
  have hle : (Number.double 0.0).AtMost (.double 0.5) :=
    ⟨rfl, rfl, (Decimal.le_iff_value rfl rfl).mp (by decide +kernel)⟩
  have hlength : team.length ≤ 10 := by decide
  have hlimit : Options.default.limit = .int (10 : ℕ) := rfl
  obtain ⟨hpart, honline, hleast⟩ := rank_selection "write".toList hlimit hlength
  obtain ⟨results, order, -, -, hrank, hrank'⟩ :=
    hpart hscored [team.get (secondAndLast 0), team.get (secondAndLast 1)] secondAndLast
      (Fin.forall_fin_two.mpr ⟨rfl, rfl⟩)
  exact ⟨⟨results, order, hrank, hrank'⟩, honline hscored,
    hleast (.float 0.0) (.float 0.5) (.double 0.0) (.double 0.5) rfl rfl hle hkeywords hscored⟩

end Conductor.Matching
