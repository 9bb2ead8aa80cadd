import Conductor.Decimal.Reader
import Conductor.Decimal.Style
import Mathlib.Data.List.Basic

/-! Runs of decimal digits and the numbers they spell. -/

namespace Conductor.Decimal

variable {ds rest : List Char} {n : Nat}

/-- The text does not begin with a digit. -/
def noDigit (s : List Char) : Bool := s.head?.all fun c => !c.isDigit

theorem isDigit_natDigits (n : Nat) : ∀ c ∈ natDigits n, c.isDigit = true := fun _ h =>
  Nat.isDigit_of_mem_toDigits (by decide) (by decide) h

theorem natDigits_ne_nil (n : Nat) : natDigits n ≠ [] := Nat.toDigits_ne_nil

theorem ofDigitChars_natDigits (n : Nat) : Nat.ofDigitChars 10 (natDigits n) 0 = n :=
  Nat.ofDigitChars_ten_toDigits

/-- Only zero is written with a zero in front. -/
theorem head?_natDigits_ne (hn : n ≠ 0) : (natDigits n).head? ≠ some '0' := by
  induction n using Nat.strongRecOn with
  | ind n ih =>
    have hdigit : ∀ d : Fin 10, d.val ≠ 0 → Nat.digitChar d ≠ '0' := by decide
    unfold natDigits at ih ⊢
    rw [Nat.toDigits_eq_if (by decide)]
    split
    · next hlt =>
      rw [List.head?_cons]
      exact fun h => hdigit ⟨n, hlt⟩ hn (Option.some.inj h)
    · next hge =>
      rw [List.head?_append_of_ne_nil _ Nat.toDigits_ne_nil]
      exact ih (n / 10) (by omega) (by omega)

theorem takeDigits_append (hds : ∀ c ∈ ds, c.isDigit = true) (hrest : noDigit rest = true) (n count : Nat) :
    takeDigits n count (ds ++ rest) = (Nat.ofDigitChars 10 ds n, count + ds.length, rest) := by
  induction ds generalizing n count with
  | nil =>
    cases rest with
    | nil => rfl
    | cons c rest =>
      have hc : c.isDigit = false := by simpa [noDigit] using hrest
      simp [takeDigits, Text.asciiDigit?, hc]
  | cons c ds ih =>
    have hc : c.isDigit = true := hds c List.mem_cons_self
    rw [List.cons_append, takeDigits, Text.asciiDigit?, if_pos hc]
    dsimp only
    rw [ih (fun x hx => hds x (List.mem_cons_of_mem _ hx)), Nat.ofDigitChars_cons, List.length_cons]
    congr 2
    omega

theorem takeDigits_eq (hds : ∀ c ∈ ds, c.isDigit = true) (n count : Nat) :
    takeDigits n count ds = (Nat.ofDigitChars 10 ds n, count + ds.length, []) := by
  have h := takeDigits_append hds (show noDigit [] = true from rfl) n count
  rwa [List.append_nil] at h

/-- The exponent at the end of a numeral, and what it says. -/
inductive ExponentPart : List Char → Int → Prop
  | none : ExponentPart [] 0
  | up {ds : List Char} (hne : ds ≠ []) (hds : ∀ c ∈ ds, c.isDigit = true) :
    ExponentPart ('e' :: '+' :: ds) (Nat.ofDigitChars 10 ds 0)
  | down {ds : List Char} (hne : ds ≠ []) (hds : ∀ c ∈ ds, c.isDigit = true) :
    ExponentPart ('e' :: '-' :: ds) (-(Nat.ofDigitChars 10 ds 0 : Nat))

/-- A numeral with a fraction or an exponent: what distinguishes a double from an integer. -/
structure Numeral where
  whole : List Char
  fraction : List Char
  tail : List Char
  exponent : Int
  isDigit_whole : ∀ c ∈ whole, c.isDigit = true
  whole_ne_nil : whole ≠ []
  /-- Without a needless zero in front. -/
  lead : whole = ['0'] ∨ whole.head? ≠ some '0'
  isDigit_fraction : ∀ c ∈ fraction, c.isDigit = true
  exponentPart : ExponentPart tail exponent
  isDouble : fraction ≠ [] ∨ tail ≠ []

/-- Zero as a double. -/
def Numeral.zero : Numeral where
  whole := ['0']
  fraction := ['0']
  tail := []
  exponent := 0
  isDigit_whole := List.forall_mem_singleton.mpr rfl
  whole_ne_nil := List.cons_ne_nil _ _
  lead := .inl rfl
  isDigit_fraction := List.forall_mem_singleton.mpr rfl
  exponentPart := .none
  isDouble := .inl (List.cons_ne_nil _ _)

/-- A fraction with its point; nothing if there is none. -/
def pointed : List Char → List Char
  | [] => []
  | ds => '.' :: ds

theorem ExponentPart.exponent? {tail : List Char} {e : Int} (h : ExponentPart tail e) :
    exponent? tail = some e := by
  cases h with
  | none => rfl
  | @up ds hne hds | @down ds hne hds =>
    have htake := takeDigits_eq hds 0 0
    obtain ⟨c, cs, rfl⟩ := List.exists_cons_of_ne_nil hne
    rw [List.length_cons, Nat.zero_add] at htake
    simp [Decimal.exponent?, takeSign, htake]

/-- What comes after the digits of a numeral is no digit and no point. -/
theorem ExponentPart.head {tail rest : List Char} {e : Int} (h : ExponentPart tail e)
    (hrest : noDigit rest = true ∧ rest.head? ≠ some '.') :
    noDigit (tail ++ rest) = true ∧ (tail ++ rest).head? ≠ some '.' := by
  cases h with
  | none => exact hrest
  | up | down => exact ⟨rfl, by simp⟩

namespace Numeral

variable (n : Numeral)

def text : List Char := n.whole ++ (pointed n.fraction ++ n.tail)

def digits : Nat := Nat.ofDigitChars 10 (n.whole ++ n.fraction) 0

/-- The exponent of the last digit. -/
def last : Int := n.exponent - n.fraction.length

theorem unsigned?_text : unsigned? n.text = some (nearestDecimal n.digits n.last) := by
  obtain ⟨c, cs, hwhole⟩ := List.exists_cons_of_ne_nil n.whole_ne_nil
  have hcount : ∃ k, 0 + n.whole.length = k + 1 := ⟨cs.length, by rw [hwhole, List.length_cons, Nat.zero_add]⟩
  obtain ⟨k, hk⟩ := hcount
  have htail : noDigit n.tail = true ∧ n.tail.head? ≠ some '.' := by
    have hnil : noDigit [] = true ∧ [].head? ≠ some '.' := ⟨rfl, by simp⟩
    have h := n.exponentPart.head hnil
    rwa [List.append_nil] at h
  have hexponent := n.exponentPart.exponent?
  unfold unsigned? text digits last
  cases hf : n.fraction with
  | nil =>
    rw [pointed, List.nil_append, takeDigits_append n.isDigit_whole htail.1, hk]
    dsimp only
    have hpoint : ∀ rest, n.tail ≠ '.' :: rest := fun rest h => htail.2 (h ▸ rfl)
    split
    · next h => exact absurd h (hpoint _)
    · simp [hexponent]
  | cons d ds =>
    have hdigits : ∀ x ∈ d :: ds, x.isDigit = true := hf ▸ n.isDigit_fraction
    have hpoint : noDigit (pointed (d :: ds) ++ n.tail) = true := rfl
    rw [takeDigits_append n.isDigit_whole hpoint, hk]
    simp only [pointed, List.cons_append]
    rw [← List.cons_append, takeDigits_append hdigits htail.1]
    simp [hexponent, Nat.ofDigitChars_append]

end Numeral

end Conductor.Decimal
