import Conductor.Proofs.Decimal.Double
import Conductor.Proofs.Matching.Arrangement
import Conductor.Proofs.Matching.Rating

/-! The ranking of agents for a task is the one arrangement of those that pass, within the limit. -/

namespace Conductor.Matching

variable {o : Options} {text : List Char} {agents : List Agent} {a : Agent} {r : Ranked}

/-- An agent whom the filter by availability lets through. -/
def isCandidate (o : Options) (a : Agent) : Bool := !o.onlineOnly || a.availability = .online

/-- A result that is not below the least score, at which only a task with keywords looks. -/
def isEnough (o : Options) (text : List Char) (r : Ranked) : Bool :=
  keywords text = [] || match Setting.number o.minScore with
    | .ok least => !least.exceeds r.score
    | .error _ => false

/-- A result that has a place in the ranking. -/
def isRanked (o : Options) (text : List Char) (r : Ranked) : Bool := isEnough o text r && isCandidate o r.agent

/-- Every candidate has a score, and the scores compare with each other and with the least one. -/
structure Scored (o : Options) (text : List Char) (agents : List Agent) : Prop where
  least : keywords text ≠ [] → ∃ n, Setting.number o.minScore = .ok n
  score : ∀ a ∈ agents, isCandidate o a = true → ∃ r, given o text a = .ok r ∧ r.score.isNaN = false

/-- The results of the candidates, each at the position of its agent. -/
structure Results (o : Options) (text : List Char) (agents : List Agent)
    (results : Fin agents.length → Ranked) : Prop where
  agent : ∀ i, (results i).agent = agents.get i
  given : ∀ i, isCandidate o (agents.get i) = true → given o text (agents.get i) = .ok (results i)

theorem isCandidate_iff : isCandidate o a = true ↔ (o.onlineOnly = true → a.availability = .online) := by
  rw [isCandidate, Bool.or_eq_true, Bool.not_eq_true', decide_eq_true_iff]
  cases o.onlineOnly <;> simp

theorem isEnough_of_nil (h : keywords text = []) (o : Options) (r : Ranked) : isEnough o text r = true := by
  rw [isEnough, decide_eq_true h, Bool.true_or]

theorem isEnough_of_ne_nil {least : Number} (hleast : Setting.number o.minScore = .ok least)
    (h : keywords text ≠ []) (r : Ranked) : isEnough o text r = !least.exceeds r.score := by
  rw [isEnough, decide_eq_false h, Bool.false_or, hleast]

section Limits

variable {α β : Type} {limit : Json} {l l' : List α}

theorem upTo_map (f : α → β) (limit : Json) (l : List α) :
    upTo limit (l.map f) = (upTo limit l).map (List.map f) := by
  unfold upTo firstItems
  match limit with
  | .null | .float _ | .str _ | .arr _ | .obj _ => rfl
  | .int n =>
    dsimp only [Except.map]
    split <;> simp
  | .bool b =>
    dsimp only [Except.map]
    split <;> simp

theorem subset_of_upTo (h : upTo limit l = .ok l') : l' ⊆ l := by
  have hfirst (n : Int) : firstItems n l ⊆ l := by
    unfold firstItems
    split <;> exact List.take_subset _ _
  unfold upTo at h
  match limit with
  | .null => cases h; exact List.Subset.refl l
  | .int n => cases h; exact hfirst n
  | .bool b => cases h; exact hfirst _
  | .float _ | .str _ | .arr _ | .obj _ => cases h

theorem upTo_natCast (limit : ℕ) (l : List α) : upTo (.int limit) l = .ok (l.take limit) := by
  change Except.ok (firstItems limit l) = _
  rw [firstItems, if_neg (by omega), Int.toNat_natCast]

end Limits

theorem filterMap_ite {α β : Type} (p : α → Bool) (f : α → β) (l : List α) :
    l.filterMap (fun a => if p a then some (f a) else none) = (l.filter p).map f := by
  rw [← List.filterMap_eq_map, List.filterMap_filter]
  rfl

/-- Results that compare are arranged as their positions are. -/
theorem arrange_map {n : ℕ} {results : Fin n → Ranked} {chosen : Fin n → Bool}
    (hnumber : ∀ i, chosen i = true → (results i).score.isNaN = false) :
    arrange (((List.finRange n).filter chosen).map results) =
      (((List.finRange n).filter chosen).mergeSort
        (Arranged.reaches fun i => (results i).score)).map results := by
  have hmem {i : Fin n} (hi : i ∈ (List.finRange n).filter chosen) : (results i).score.isNaN = false :=
    hnumber i (List.mem_filter.mp hi).2
  have hany : (((List.finRange n).filter chosen).map results).any (·.score.isNaN) = false := by
    rw [List.any_map, List.any_eq_false]
    intro i hi
    rw [Bool.not_eq_true]
    exact hmem hi
  rw [arrange, hany, if_neg Bool.false_ne_true]
  refine (List.map_mergeSort fun i hi j hj => ?_).symm
  exact decide_eq_decide.mpr (Decimal.le_iff_value (hmem hj) (hmem hi)).symm

theorem candidates_eq (o : Options) (agents : List Agent) : candidates o agents =
    ((List.finRange agents.length).filter fun i => isCandidate o (agents.get i)).map agents.get := by
  conv_lhs => rw [← List.map_get_finRange agents]
  exact List.filter_map

theorem rank_eq_of_ne_nil (h : keywords text ≠ []) : rank o text agents =
    (candidates o agents).mapM (rateFrom o (keywords text)) >>= fun rated =>
      upTo o.limit (arrange (rated.filterMap fun r => r)) := by
  unfold rank
  split
  · next hnil => exact absurd hnil h
  · rfl

/-- A rating is kept if it is enough. -/
theorem rateFrom_eq {least : Number} (hrate : rate o (keywords text) a = .ok r)
    (hleast : Setting.number o.minScore = .ok least) (h : keywords text ≠ []) :
    rateFrom o (keywords text) a = .ok (if isEnough o text r then some r else none) := by
  unfold rateFrom
  rw [hrate, hleast, isEnough_of_ne_nil hleast h]
  cases hexceeds : least.exceeds r.score with
  | false => exact congrArg Except.ok (if_neg (by rw [hexceeds]; decide))
  | true => exact congrArg Except.ok (if_pos hexceeds)

theorem Scored.exists_results (h : Scored o text agents) : ∃ results, Results o text agents results := by
  have hexists (i : Fin agents.length) : ∃ r : Ranked, r.agent = agents.get i ∧
      (isCandidate o (agents.get i) = true → given o text (agents.get i) = .ok r) := by
    by_cases hi : isCandidate o (agents.get i) = true
    · obtain ⟨r, hr, -⟩ := h.score _ (List.get_mem agents i) hi
      exact ⟨r, agent_of_given hr, fun _ => hr⟩
    · -- Who is no candidate is given nothing, and any result will do.
      exact ⟨⟨agents.get i, 0.0, [], 0.0, 0.0, ""⟩, rfl, fun hi' => absurd hi' hi⟩
  choose results hagent hgiven using hexists
  exact ⟨results, hagent, hgiven⟩

namespace Results

variable {results : Fin agents.length → Ranked}

theorem isCandidate (h : Results o text agents results) {i : Fin agents.length}
    (hi : isRanked o text (results i) = true) : Matching.isCandidate o (agents.get i) = true :=
  h.agent i ▸ (Bool.and_eq_true_iff.mp hi).2

theorem isNaN (h : Results o text agents results) (hscored : Scored o text agents) {i : Fin agents.length}
    (hi : Matching.isCandidate o (agents.get i) = true) : (results i).score.isNaN = false := by
  obtain ⟨r, hr, hnumber⟩ := hscored.score _ (List.get_mem agents i) hi
  cases (h.given i hi).symm.trans hr
  exact hnumber

/-- Without keywords the candidates come in their order. -/
theorem rank_of_nil (h : Results o text agents results) (hnil : keywords text = []) :
    rank o text agents = upTo o.limit (((List.finRange agents.length).filter fun i =>
      isRanked o text (results i)).map results) := by
  have hranked : (fun i => isRanked o text (results i)) =
      fun i => Matching.isCandidate o (agents.get i) := by
    funext i
    rw [isRanked, isEnough_of_nil hnil, Bool.true_and, h.agent]
  unfold rank
  rw [hnil, hranked]
  dsimp only
  -- The limit is applied to the agents here, so who is past it is given nothing.
  rw [candidates_eq, upTo_map, upTo_map]
  cases hl : upTo o.limit _ with
  | error f => rfl
  | ok l =>
    change (l.map agents.get).mapM (unrated o) = .ok (l.map results)
    rw [List.mapM_map, ← List.filterMap_eq_map]
    refine mapM_eq_filterMap fun i hi => ⟨results i, ?_, rfl⟩
    have hcandidate := (List.mem_filter.mp (subset_of_upTo hl hi)).2
    exact (given_of_nil hnil o _).symm.trans (h.given i hcandidate)

/-- With keywords those that are enough are arranged. -/
theorem rank_of_ne_nil (h : Results o text agents results) {least : Number}
    (hleast : Setting.number o.minScore = .ok least) (hne : keywords text ≠ []) :
    rank o text agents = upTo o.limit (arrange (((List.finRange agents.length).filter fun i =>
      isRanked o text (results i)).map results)) := by
  have hrates : (candidates o agents).mapM (rateFrom o (keywords text)) =
      .ok (((List.finRange agents.length).filter fun i => Matching.isCandidate o (agents.get i)).map
        fun i => if isEnough o text (results i) then some (results i) else none) := by
    rw [candidates_eq, List.mapM_map, ← List.filterMap_eq_map]
    refine mapM_eq_filterMap fun i hi => ⟨_, ?_, rfl⟩
    have hrate := h.given i (List.mem_filter.mp hi).2
    rw [given_of_ne_nil hne] at hrate
    exact rateFrom_eq hrate hleast hne
  have hranked : (fun i => isRanked o text (results i)) =
      fun i => isEnough o text (results i) && Matching.isCandidate o (agents.get i) := by
    funext i
    rw [isRanked, h.agent]
  rw [rank_eq_of_ne_nil hne, hrates, hranked]
  change upTo o.limit (arrange _) = _
  rw [List.filterMap_map, ← List.filter_filter]
  exact congrArg (fun l => upTo o.limit (arrange l)) (filterMap_ite _ _ _)

/-- A ranking is the arrangement of the results that have a place in it, within the limit. -/
theorem exists_rank_eq (h : Results o text agents results) (hscored : Scored o text agents) :
    ∃ order, Arranged (fun i => (results i).score) (fun i => isRanked o text (results i) = true) order ∧
      rank o text agents = upTo o.limit (order.map results) := by
  by_cases hnil : keywords text = []
  · have hzero (i : Fin agents.length) (hi : isRanked o text (results i) = true) :
        (results i).score = 0.0 :=
      (unrated_spec ((given_of_nil hnil o _).symm.trans (h.given i (h.isCandidate hi)))).2
    refine ⟨_, Arranged.of_beq _ fun i j hi hj => ?_, h.rank_of_nil hnil⟩
    rw [hzero i hi, hzero j hj]
    exact Decimal.beq_self_of_isFinite rfl
  · obtain ⟨least, hleast⟩ := hscored.least hnil
    have hnumber (i : Fin agents.length) (hi : isRanked o text (results i) = true) :
        (results i).score.isNaN = false := h.isNaN hscored (h.isCandidate hi)
    refine ⟨_, Arranged.mergeSort _ hnumber, ?_⟩
    rw [h.rank_of_ne_nil hleast hnil, arrange_map hnumber]

end Results

/-- Options that are numbers, with a limit that counts from the start. -/
structure Options.Numeric (o : Options) (limit : ℕ) (least : Number) : Prop where
  limit : o.limit = .int limit
  least : Setting.number o.minScore = .ok least
  availability : IsWeight o.availabilityWeight
  experience : IsWeight o.experienceWeight

/-- A result that passes the filter by availability and the least score. -/
def Passes (o : Options) (least : Number) (r : Ranked) : Prop :=
  (o.onlineOnly = true → r.agent.availability = .online) ∧ least.exceeds r.score = false

theorem isRanked_iff {least : Number} (hleast : Setting.number o.minScore = .ok least)
    (hne : keywords text ≠ []) : isRanked o text r = true ↔ Passes o least r := by
  rw [isRanked, isEnough_of_ne_nil hleast hne, Bool.and_eq_true, isCandidate_iff, Bool.not_eq_true', and_comm]
  rfl

/-- The ratings of all agents for a task with keywords, and the one arrangement of those that pass. -/
structure Ranking (o : Options) (least : Number) (text : List Char) (agents : List Agent)
    (rated : Fin agents.length → Ranked) (order : List (Fin agents.length)) : Prop where
  rate_eq : ∀ i, rate o (keywords text) (agents.get i) = .ok (rated i)
  agent : ∀ i, (rated i).agent = agents.get i
  score : ∀ i, (rated i).score = score (keywords text) (capabilities (agents.get i)) +
    (rated i).availabilityBonus + (rated i).experienceBonus
  arranged_iff : ∀ other, Arranged (fun i => (rated i).score) (fun i => Passes o least (rated i)) other ↔
    other = order

theorem exists_ranking {limit : ℕ} {least : Number} (ho : o.Numeric limit least)
    (hcounts : ∀ a ∈ agents, a.tasksCompleted.natAbs < Number.beyondDoubles) (hne : keywords text ≠ [])
    (hnumber : ∀ a ∈ candidates o agents, ∀ r, rate o (keywords text) a = .ok r → r.score.isNaN = false) :
    ∃ rated order, Ranking o least text agents rated order ∧
      rank o text agents = .ok ((order.take limit).map rated) := by
  have hexists (a : Agent) (ha : a ∈ agents) : ∃ r, rate o (keywords text) a = .ok r :=
    exists_rate ho.availability ho.experience (hcounts a ha) _
  have hscored : Scored o text agents := by
    refine ⟨fun _ => ⟨least, ho.least⟩, fun a ha hcandidate => ?_⟩
    obtain ⟨r, hr⟩ := hexists a ha
    exact ⟨r, (given_of_ne_nil hne o a).trans hr, hnumber a (List.mem_filter.mpr ⟨ha, hcandidate⟩) r hr⟩
  choose rated hrated using fun i => hexists _ (List.get_mem agents i)
  have hgiven (i : Fin agents.length) : given o text (agents.get i) = .ok (rated i) :=
    (given_of_ne_nil hne o _).trans (hrated i)
  have hresults : Results o text agents rated := ⟨fun i => agent_of_given (hgiven i), fun i _ => hgiven i⟩
  obtain ⟨order, harranged, hrank⟩ := hresults.exists_rank_eq hscored
  have hpasses : Arranged (fun i => (rated i).score) (fun i => Passes o least (rated i)) order :=
    harranged.congr fun i => isRanked_iff ho.least hne
  refine ⟨rated, order, ⟨hrated, hresults.agent, fun i => ?_, fun other => ⟨fun h => ?_, ?_⟩⟩, ?_⟩
  · obtain ⟨w, x, -, -, hr⟩ := rate_eq_ok (hrated i)
    rw [hr]
  · refine h.eq (fun i hi => ?_) hpasses
    exact hresults.isNaN hscored (hresults.isCandidate ((isRanked_iff ho.least hne).mpr hi))
  · rintro rfl
    exact hpasses
  · rw [hrank, ho.limit, upTo_natCast, List.map_take]

theorem exists_rank_of_nil {limit : ℕ} (hlimit : o.limit = .int limit) (hw : IsWeight o.availabilityWeight)
    (hnil : keywords text = []) (agents : List Agent) :
    ∃ results, rank o text agents = .ok results ∧
      results.map Ranked.agent = (candidates o agents).take limit ∧ ∀ r ∈ results, r.score = 0.0 := by
  choose results hunrated using fun i => exists_unrated hw (agents.get i)
  have hagent (i : Fin agents.length) : (results i).agent = agents.get i := (unrated_spec (hunrated i)).1
  have hresults : Results o text agents results :=
    ⟨hagent, fun i _ => (given_of_nil hnil o _).trans (hunrated i)⟩
  refine ⟨_, (hresults.rank_of_nil hnil).trans (hlimit ▸ upTo_natCast limit _), ?_, fun r hr => ?_⟩
  · simp only [isRanked, isEnough_of_nil hnil, Bool.true_and, hagent]
    rw [List.map_take, List.map_map, candidates_eq]
    exact congrArg (List.take limit) (List.map_congr_left fun i _ => hagent i)
  · obtain ⟨i, -, rfl⟩ := List.mem_map.mp (List.mem_of_mem_take hr)
    exact (unrated_spec (hunrated i)).2

/-- The best agent is looked for among those whose score is not below zero. -/
theorem isEnough_forBest (onlineOnly : Bool)
    (hr : given { Options.forBest with onlineOnly } text a = .ok r) :
    isEnough { Options.forBest with onlineOnly } text r = true ↔ ¬ r.score < 0.0 := by
  by_cases hnil : keywords text = []
  · rw [given_of_nil hnil] at hr
    rw [isEnough_of_nil hnil, (unrated_spec hr).2]
    decide +kernel
  · have hleast : Setting.number { Options.forBest with onlineOnly }.minScore = .ok (.double 0.0) := rfl
    rw [isEnough_of_ne_nil hleast hnil, Bool.not_eq_true']
    exact decide_eq_false_iff_not

theorem exists_best (onlineOnly : Bool) (text : List Char)
    (hcounts : ∀ a ∈ agents, a.tasksCompleted.natAbs < Number.beyondDoubles) :
    ∃ (results : Fin agents.length → Ranked) (best : Option (Fin agents.length)),
      (∀ i, given { Options.forBest with onlineOnly } text (agents.get i) = .ok (results i)) ∧
      IsBest (fun i => (results i).score)
        (fun i => (onlineOnly = true → (agents.get i).availability = .online) ∧
          ¬ (results i).score < 0.0) best ∧
      best? { Options.forBest with onlineOnly } text agents = .ok (best.map results) := by
  have hexists (a : Agent) (ha : a ∈ agents) :
      ∃ r, given { Options.forBest with onlineOnly } text a = .ok r ∧ r.score.isNaN = false :=
    exists_given_of_default rfl rfl text (hcounts a ha)
  have hscored : Scored { Options.forBest with onlineOnly } text agents :=
    ⟨fun _ => ⟨.double 0.0, rfl⟩, fun a ha _ => hexists a ha⟩
  choose results hgiven hnumber using fun i => hexists _ (List.get_mem agents i)
  have hresults : Results { Options.forBest with onlineOnly } text agents results :=
    ⟨fun i => agent_of_given (hgiven i), fun i _ => hgiven i⟩
  obtain ⟨order, harranged, hrank⟩ := hresults.exists_rank_eq hscored
  refine ⟨results, order.head?, hgiven, (harranged.congr fun i => ?_).isBest, ?_⟩
  · rw [isRanked, Bool.and_eq_true, isCandidate_iff, isEnough_forBest onlineOnly (hgiven i), and_comm,
      hresults.agent]
  · have hlimit : rank { Options.forBest with onlineOnly } text agents = .ok ((order.map results).take 1) :=
      hrank.trans (upTo_natCast 1 _)
    rw [best?, hlimit]
    cases order <;> rfl

/-- The agents for a task with keywords are all those that pass, each of them as often as it is given, best
first and in their order where scores are equal, up to the limit. Without keywords they are the first
candidates. The best agent is the earliest of those with the greatest score. -/
theorem rank_and_best (text : List Char) (agents : List Agent)
    (hcounts : ∀ a ∈ agents, a.tasksCompleted.natAbs < Number.beyondDoubles) :
    (∀ (o : Options) (limit : ℕ) (least : Number), o.Numeric limit least → keywords text ≠ [] →
      (∀ a ∈ candidates o agents, ∀ r, rate o (keywords text) a = .ok r → r.score.isNaN = false) →
      ∃ rated order, Ranking o least text agents rated order ∧
        rank o text agents = .ok ((order.take limit).map rated)) ∧
    (∀ (o : Options) (limit : ℕ), o.limit = .int limit → IsWeight o.availabilityWeight → keywords text = [] →
      ∃ results, rank o text agents = .ok results ∧
        results.map Ranked.agent = (candidates o agents).take limit ∧ ∀ r ∈ results, r.score = 0.0) ∧
    ∀ onlineOnly : Bool, ∃ (results : Fin agents.length → Ranked) (best : Option (Fin agents.length)),
      (∀ i, given { Options.forBest with onlineOnly } text (agents.get i) = .ok (results i)) ∧
      IsBest (fun i => (results i).score)
        (fun i => (onlineOnly = true → (agents.get i).availability = .online) ∧
          ¬ (results i).score < 0.0) best ∧
      best? { Options.forBest with onlineOnly } text agents = .ok (best.map results) :=
  ⟨fun _ _ _ ho hne hnumber => exists_ranking ho hcounts hne hnumber,
    fun _ _ hlimit hw hnil => exists_rank_of_nil hlimit hw hnil agents,
    fun onlineOnly => exists_best onlineOnly text hcounts⟩

/-- Two agents with equal scores, one of them listed twice, and one who is offline. -/
def team : List Agent := [
  ⟨"ada", "Ada", ["writing"], .online, 0, none, none⟩, ⟨"bob", "Bob", ["writing"], .online, 0, none, none⟩,
  ⟨"ada", "Ada", ["writing"], .online, 0, none, none⟩, ⟨"cyd", "Cyd", ["coding"], .offline, 40, none, none⟩]

theorem count_team : ∀ a ∈ team, a.tasksCompleted.natAbs < Number.beyondDoubles := by decide +kernel

theorem rank_and_best_team :
    (∃ rated order, Ranking .default (.double 0.0) "write".toList team rated order ∧
      rank .default "write".toList team = .ok ((order.take 10).map rated)) ∧
    (∃ results, rank .default [] team = .ok results ∧
      results.map Ranked.agent = (candidates .default team).take 10 ∧ ∀ r ∈ results, r.score = 0.0) ∧
    ∃ (results : Fin team.length → Ranked) (best : Option (Fin team.length)),
      (∀ i, given { Options.forBest with onlineOnly := true } "write".toList (team.get i) =
        .ok (results i)) ∧
      IsBest (fun i => (results i).score)
        (fun i => (true = true → (team.get i).availability = .online) ∧ ¬ (results i).score < 0.0) best ∧
      best? { Options.forBest with onlineOnly := true } "write".toList team = .ok (best.map results) := by
  have hnumeric : Options.default.Numeric 10 (.double 0.0) := ⟨rfl, rfl, ⟨0.1, rfl⟩, ⟨0.05, rfl⟩⟩
  have hkeywords : keywords "write".toList ≠ [] := by decide +kernel
  have hnumber : ∀ a ∈ candidates .default team, ∀ r, rate .default (keywords "write".toList) a = .ok r →
      r.score.isNaN = false := by
    intro a ha r hr
    obtain ⟨r', hr', hnumber⟩ : ∃ r, given .default "write".toList a = .ok r ∧ r.score.isNaN = false :=
      exists_given_of_default rfl rfl _ (count_team a (List.mem_filter.mp ha).1)
    rw [given_of_ne_nil hkeywords] at hr'
    cases hr.symm.trans hr'
    exact hnumber
  exact ⟨(rank_and_best "write".toList team count_team).1 .default 10 (.double 0.0) hnumeric hkeywords hnumber,
    (rank_and_best [] team count_team).2.1 .default 10 rfl ⟨0.1, rfl⟩ rfl,
    (rank_and_best "write".toList team count_team).2.2 true⟩

end Conductor.Matching
