import Conductor.Text.Lower

/-! Small letters stay as they are: the small form of a text is its own small form. Where a text has a border,
such as a space, the small forms of its two sides do not hang on each other. -/

namespace Conductor.Text

variable {c d : Char} {s : List Char}

/-- A character that its small form does not change. -/
def IsSmall (c : Char) : Prop := lowerChar c = [c] ∧ c ≠ '\u03a3'

instance (c : Char) : Decidable (IsSmall c) := inferInstanceAs (Decidable (_ ∧ _))

/-- A run of capitals: the first, the last, the step, and what leads to the small letter. -/
abbrev Run := Nat × Nat × Nat × Int

/-- The capital at a code point belongs to a run. -/
def Run.Covers (r : Run) (n : Nat) : Prop := r.1 ≤ n ∧ n ≤ r.2.1 ∧ (n - r.1) % r.2.2.1 = 0

/-- All capitals, those of ASCII and the one that becomes two characters among them. -/
def capitalRuns : List Run := (65, 90, 1, 32) :: (304, 304, 1, 0) :: wideCapitals

/-- The small letter that a run leads to. -/
def Run.small (r : Run) (n : Nat) : Nat := ((n : Int) + r.2.2.2).toNat

/-- The small letters of a run, which lie between two code points, are no capitals of another run: they lie
on one side of it, or are always between two of its capitals. -/
def Run.apart (low high : Nat) (even : Bool) (r : Run) : Bool :=
  Nat.blt high r.1 || Nat.blt r.2.1 low ||
    (Nat.beq r.2.2.1 2 && even && !Nat.beq (low % 2) (r.1 % 2))

/-- The capitals of a run are an even number of places apart. -/
def Run.isEven (r : Run) : Bool := Nat.beq r.1 r.2.1 || Nat.beq (r.2.2.1 % 2) 0

theorem apart_wideCapitals : ∀ r ∈ wideCapitals, ∀ q ∈ capitalRuns,
    Run.apart (Run.small r r.1) (Run.small r r.2.1) (Run.isEven r) q = true := by
  decide +kernel

theorem nonneg_wideCapitals : ∀ r ∈ wideCapitals, 0 ≤ (r.1 : Int) + r.2.2.2 := by
  decide +kernel

theorem isSmall_toLower_of_ascii : ∀ n < 128, IsSmall (Char.ofNat n).toLower := by
  decide +kernel

theorem covers_iff {r : Run} {n : Nat} :
    (r.1 ≤ n && n ≤ r.2.1 && (n - r.1) % r.2.2.1 == 0) = true ↔ Run.Covers r n := by
  rw [Bool.and_eq_true, Bool.and_eq_true, decide_eq_true_iff, decide_eq_true_iff, beq_iff_eq, and_assoc]
  rfl

theorem isSmall_of_not_covers (h : ∀ r ∈ capitalRuns, ¬ Run.Covers r c.toNat) : IsSmall c := by
  have hwide : ∀ r ∈ wideCapitals, ¬ Run.Covers r c.toNat := fun r hr =>
    h r (List.mem_cons_of_mem _ (List.mem_cons_of_mem _ hr))
  have hascii : ¬ (65 ≤ c.toNat ∧ c.toNat ≤ 90) := fun hc =>
    h (65, 90, 1, 32) List.mem_cons_self ⟨hc.1, hc.2, Nat.mod_one _⟩
  have hdotted : c ≠ '\u0130' := by
    rintro rfl
    exact h (304, 304, 1, 0) (List.mem_cons_of_mem _ List.mem_cons_self)
      ⟨Nat.le_refl 304, Nat.le_refl 304, rfl⟩
  have hsigma : c ≠ '\u03a3' := by
    rintro rfl
    exact hwide (931, 939, 1, 32) (by decide) ⟨by decide, by decide, rfl⟩
  refine ⟨?_, hsigma⟩
  unfold lowerChar
  by_cases hc : c.toNat < 128
  · have hlower : c.toLower = c := dif_neg fun hc => hascii ⟨hc.1, hc.2⟩
    rw [if_pos hc, hlower]
  · have hnone : wideCapitals.find? (fun r => r.1 ≤ c.toNat && c.toNat ≤ r.2.1 &&
        (c.toNat - r.1) % r.2.2.1 == 0) = none :=
      List.find?_eq_none.mpr fun r hr => mt covers_iff.mp (hwide r hr)
    rw [if_neg hc, if_neg hdotted, hnone]

/-- What a run leads to is no capital. -/
theorem not_covers_small {r q : Run} (hr : r ∈ wideCapitals) (hq : q ∈ capitalRuns) {n : Nat}
    (hn : Run.Covers r n) : ¬ Run.Covers q (Run.small r n) := by
  have hnonneg := nonneg_wideCapitals r hr
  have hapart := apart_wideCapitals r hr q hq
  obtain ⟨hfirst, hlast, hstep⟩ := hn
  rintro ⟨hfirst', hlast', hstep'⟩
  unfold Run.small at *
  unfold Run.apart at hapart
  rw [Bool.or_eq_true, Bool.or_eq_true, Bool.and_eq_true, Bool.and_eq_true] at hapart
  rcases hapart with (habove | hbelow) | ⟨⟨htwo, heven⟩, hparity⟩
  · rw [Nat.blt_eq] at habove
    omega
  · rw [Nat.blt_eq] at hbelow
    omega
  · -- The two have the same parity by the steps of the runs, and different ones by where these begin.
    have hsame : (n - r.1) % 2 = 0 := by
      rw [Run.isEven, Bool.or_eq_true, Nat.beq_eq, Nat.beq_eq] at heven
      rcases heven with hsingle | heven
      · omega
      · exact Nat.mod_eq_zero_of_dvd
          (Nat.dvd_trans (Nat.dvd_of_mod_eq_zero heven) (Nat.dvd_of_mod_eq_zero hstep))
    rw [Nat.beq_eq] at htwo
    rw [htwo] at hstep'
    rw [Bool.not_eq_true', ← Bool.not_eq_true, Nat.beq_eq] at hparity
    omega

/-- No run covers the least code point, nor those of what a dotted capital and a sigma become. -/
theorem not_covers_single : ∀ n ∈ [0, 105, 775, 962, 963], ∀ r ∈ capitalRuns, ¬ Run.Covers r n := by
  unfold Run.Covers
  decide +kernel

theorem isSmall_of_toNat_mem (h : c.toNat ∈ [0, 105, 775, 962, 963]) : IsSmall c :=
  isSmall_of_not_covers (not_covers_single _ h)

theorem toNat_ofNat (n : Nat) : (Char.ofNat n).toNat = n ∨ (Char.ofNat n).toNat = 0 := by
  unfold Char.ofNat
  by_cases h : n.isValidChar
  · rw [dif_pos h]
    exact .inl rfl
  · rw [dif_neg h]
    exact .inr rfl

/-- What a run leads to is small. -/
theorem isSmall_of_covers {r : Run} (hr : r ∈ wideCapitals) {n : Nat} (hn : Run.Covers r n) :
    IsSmall (Char.ofNat (Run.small r n)) := by
  refine isSmall_of_not_covers fun q hq => ?_
  rcases toNat_ofNat (Run.small r n) with h | h
  · rw [h]
    exact not_covers_small hr hq hn
  · rw [h]
    exact not_covers_single 0 (by decide) q hq

theorem isSmall_of_mem_lowerChar (hc : c ≠ '\u03a3') (hd : d ∈ lowerChar c) : IsSmall d := by
  unfold lowerChar at hd
  split at hd
  · next hascii =>
    obtain rfl := List.mem_singleton.mp hd
    have hsmall := isSmall_toLower_of_ascii c.toNat hascii
    rwa [Char.ofNat_toNat] at hsmall
  · split at hd
    · obtain rfl | hd := List.mem_cons.mp hd
      · exact isSmall_of_toNat_mem (by decide)
      · obtain rfl := List.mem_singleton.mp hd
        exact isSmall_of_toNat_mem (by decide)
    · next hascii hdotted =>
      split at hd
      · next r hfind =>
        obtain rfl := List.mem_singleton.mp hd
        have hcovers := List.find?_some hfind
        exact isSmall_of_covers (List.mem_of_find?_eq_some hfind) (covers_iff.mp hcovers)
      · next hnone =>
        obtain rfl := List.mem_singleton.mp hd
        refine ⟨?_, hc⟩
        unfold lowerChar
        rw [if_neg hascii, if_neg hdotted, hnone]

theorem isSmall_of_mem_lowerAfter {before : List Char} (h : c ∈ lowerAfter before s) : IsSmall c := by
  induction s generalizing before with
  | nil => cases h
  | cons x s ih =>
    rcases List.mem_append.mp h with h | h
    · split at h
      · obtain rfl := List.mem_singleton.mp h
        split
        · exact isSmall_of_toNat_mem (by decide)
        · exact isSmall_of_toNat_mem (by decide)
      · next hx => exact isSmall_of_mem_lowerChar hx h
    · exact ih h

theorem lowerAfter_of_isSmall (h : ∀ c ∈ s, IsSmall c) (before : List Char) : lowerAfter before s = s := by
  induction s generalizing before with
  | nil => rfl
  | cons x s ih =>
    obtain ⟨hx, hs⟩ := List.forall_mem_cons.mp h
    rw [lowerAfter, if_neg hx.2, hx.1, ih hs]
    rfl

theorem isSmall_of_mem_lower (h : c ∈ lower s) : IsSmall c := isSmall_of_mem_lowerAfter h

theorem lower_of_isSmall (h : ∀ c ∈ s, IsSmall c) : lower s = s := lowerAfter_of_isSmall h []

/-- A character that ends a word for the sigma beside it: it has no case and is not passed over. -/
def IsBorder (c : Char) : Prop := isCased c = false ∧ isCaseIgnorable c = false

instance (c : Char) : Decidable (IsBorder c) := inferInstanceAs (Decidable (_ ∧ _))

section Border

theorem find?_border (hd : IsBorder d) (b : List Char) :
    (d :: b).find? (!isCaseIgnorable ·) = some d :=
  List.find?_cons_of_pos (by simp [hd.2])

theorem isFinalSigma_border_after (hd : IsBorder d) (before a b : List Char) :
    isFinalSigma before (a ++ d :: b) = isFinalSigma before a := by
  have hany : ((a ++ d :: b).find? (!isCaseIgnorable ·)).any isCased =
      (a.find? (!isCaseIgnorable ·)).any isCased := by
    rw [List.find?_append, find?_border hd]
    cases a.find? (!isCaseIgnorable ·) with
    | none => exact hd.1
    | some c => rfl
  unfold isFinalSigma
  rw [hany]

theorem isFinalSigma_border_before (hd : IsBorder d) (before x after : List Char) :
    isFinalSigma (before ++ d :: x) after = isFinalSigma before after := by
  unfold isFinalSigma
  rw [List.find?_append, find?_border hd]
  cases before.find? (!isCaseIgnorable ·) with
  | none =>
    change (isCased d && _) = false
    rw [hd.1, Bool.false_and]
  | some c => rfl

/-- What stands before a border is as good as not there. -/
theorem lowerAfter_border_before (hd : IsBorder d) (before x s : List Char) :
    lowerAfter (before ++ d :: x) s = lowerAfter before s := by
  induction s generalizing before with
  | nil => rfl
  | cons c s ih =>
    have hrest : lowerAfter (c :: (before ++ d :: x)) s = lowerAfter (c :: before) s := ih (c :: before)
    rw [lowerAfter, lowerAfter, isFinalSigma_border_before hd, hrest]

theorem lowerAfter_append_border (hd : IsBorder d) (hsmall : IsSmall d) (before a b : List Char) :
    lowerAfter before (a ++ d :: b) = lowerAfter before a ++ d :: lower b := by
  induction a generalizing before with
  | nil =>
    have hrest : lowerAfter (d :: before) b = lower b := lowerAfter_border_before hd [] before b
    change (if d = '\u03a3' then _ else lowerChar d) ++ lowerAfter (d :: before) b = d :: lower b
    rw [if_neg hsmall.2, hsmall.1, hrest]
    rfl
  | cons c a ih =>
    rw [List.cons_append, lowerAfter, lowerAfter, isFinalSigma_border_after hd, ih, List.append_assoc]

theorem lower_append_border (hd : IsBorder d) (hsmall : IsSmall d) (a b : List Char) :
    lower (a ++ d :: b) = lower a ++ d :: lower b :=
  lowerAfter_append_border hd hsmall [] a b

end Border

end Conductor.Text
