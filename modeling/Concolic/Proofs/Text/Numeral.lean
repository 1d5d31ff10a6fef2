/-
# What numerals spell

A numeral is a row of decimal digits, after a plus sign or not, and what it spells is the
number with these digits.  Reading it takes digit by digit and keeps the value so far; the
number with the digits is `Nat.ofDigits`, which starts with the least digit.

Whatever is read as a number without a minus sign is never read as a negative one.  A numeral may
have any number of digits, but it is read only if its number fits the machine word.
-/
import Concolic.Text.Numeral
import Mathlib.Data.Nat.Digits.Defs

namespace Concolic.Numeral

/-- The number with these decimal digits, the greatest one first. -/
def decimal (digits : List Char) : Nat :=
  Nat.ofDigits 10 (digits.reverse.map fun c => c.toNat - 48)

/-- The characters spell a number below 2 to the 64th: its digits, after an optional plus sign. -/
def Spells (cs : List Char) (n : Nat) : Prop :=
  ∃ digits : List Char, digits ≠ [] ∧ (∀ c ∈ digits, c.isDigit = true) ∧
    (cs = digits ∨ cs = '+' :: digits) ∧ n = decimal digits ∧ n < 2 ^ 64

/-! ## Digits -/

lemma digitValue?_eq_some_iff {c : Char} {d : Nat} :
    digitValue? c = some d ↔ c.isDigit = true ∧ d = c.toNat - 48 := by
  have hdigit : ('0' ≤ c && c ≤ '9') = c.isDigit := by
    simp only [Char.isDigit, Char.le_def]
  rw [digitValue?, hdigit]
  split <;> simp [*, eq_comm]

lemma digitsFrom_eq_some_iff {cs : List Char} {acc n : Nat} :
    digitsFrom acc cs = some n ↔
      (∀ c ∈ cs, c.isDigit = true) ∧ n = acc * 10 ^ cs.length + decimal cs := by
  induction cs generalizing acc with
  | nil =>
    simp only [digitsFrom, decimal, List.reverse_nil, List.map_nil, Nat.ofDigits_nil,
      List.length_nil, pow_zero, mul_one, add_zero, Option.some.injEq]
    simpa using eq_comm
  | cons c cs ih =>
    -- the first digit counts as often as the digits after it allow
    have hdecimal : decimal (c :: cs) = decimal cs + 10 ^ cs.length * (c.toNat - 48) := by
      rw [decimal, List.reverse_cons, List.map_append, Nat.ofDigits_append, List.length_map,
        List.length_reverse, List.map_singleton, Nat.ofDigits_singleton, decimal]
    rw [digitsFrom]
    rcases hd : digitValue? c with _ | d
    · have hc : ¬ c.isDigit = true := fun hc => by
        rw [digitValue?_eq_some_iff.mpr ⟨hc, rfl⟩] at hd
        exact absurd hd (by simp)
      simp [hc]
    · obtain ⟨hc, rfl⟩ := digitValue?_eq_some_iff.mp hd
      simp only [ih, List.forall_mem_cons, hc, true_and, hdecimal, List.length_cons, pow_succ]
      refine and_congr_right fun _ => ?_
      rw [add_mul, mul_assoc, mul_comm 10, mul_comm (c.toNat - 48), add_assoc,
        add_comm (decimal cs)]

lemma digits?_eq_some_iff {cs : List Char} {n : Nat} :
    digits? cs = some n ↔ cs ≠ [] ∧ (∀ c ∈ cs, c.isDigit = true) ∧ n = decimal cs := by
  rw [digits?]
  cases cs with
  | nil => simp
  | cons c cs => simp [digitsFrom_eq_some_iff]

/-! ## Signs -/

/-- No digit is a sign. -/
lemma forall_isDigit_cons_plus {cs : List Char} : ¬ ∀ c ∈ '+' :: cs, c.isDigit = true :=
  fun h => absurd (h '+' List.mem_cons_self) (by decide)

lemma spells_cons_plus_iff {cs : List Char} {n : Nat} :
    Spells ('+' :: cs) n ↔ digits? cs = some n ∧ n < 2 ^ 64 := by
  rw [digits?_eq_some_iff]
  constructor
  · rintro ⟨digits, hne, hdigits, rfl | heq, hn, hlt⟩
    · exact absurd hdigits forall_isDigit_cons_plus
    · obtain rfl := (List.cons.inj heq).2
      exact ⟨⟨hne, hdigits, hn⟩, hlt⟩
  · rintro ⟨⟨hne, hdigits, hn⟩, hlt⟩
    exact ⟨cs, hne, hdigits, .inr rfl, hn, hlt⟩

lemma spells_iff_of_ne_plus {cs : List Char} {n : Nat} (hcs : ∀ rest, cs ≠ '+' :: rest) :
    Spells cs n ↔ digits? cs = some n ∧ n < 2 ^ 64 := by
  rw [digits?_eq_some_iff]
  constructor
  · rintro ⟨digits, hne, hdigits, rfl | heq, hn, hlt⟩
    · exact ⟨⟨hne, hdigits, hn⟩, hlt⟩
    · exact absurd heq (hcs digits)
  · rintro ⟨⟨hne, hdigits, hn⟩, hlt⟩
    exact ⟨cs, hne, hdigits, .inl rfl, hn, hlt⟩

lemma ite_lt_wordLimit_eq_some_iff {m n : Nat} :
    (if m < wordLimit then some m else none) = some n ↔ some m = some n ∧ n < 2 ^ 64 := by
  rw [show wordLimit = 2 ^ 64 from rfl, Option.ite_none_right_eq_some]
  constructor
  · rintro ⟨hlt, heq⟩
    exact ⟨heq, Option.some.inj heq ▸ hlt⟩
  · rintro ⟨heq, hlt⟩
    exact ⟨Option.some.inj heq ▸ hlt, heq⟩

/-- A number without a minus sign is read exactly if the characters spell it. -/
lemma unsigned?_eq_some_iff {cs : List Char} {n : Nat} : unsigned? cs = some n ↔ Spells cs n := by
  unfold unsigned?
  split
  · rename_i rest
    rw [spells_cons_plus_iff]
    dsimp only
    rcases digits? rest with _ | m
    · simp
    · exact ite_lt_wordLimit_eq_some_iff
  · rename_i hplus
    rw [spells_iff_of_ne_plus fun rest heq => hplus rest heq]
    dsimp only
    rcases digits? cs with _ | m
    · simp
    · exact ite_lt_wordLimit_eq_some_iff

/-- What spells a number without a minus sign is not read as a negative one. -/
lemma signed?_nonneg_of_spells {cs : List Char} {n : Nat} {i : Int} (hn : Spells cs n)
    (hi : signed? cs = some i) : 0 ≤ i := by
  unfold signed? at hi
  split at hi
  · -- a minus sign is neither a digit nor a plus sign
    obtain ⟨digits, -, hdigits, rfl | heq, -⟩ := hn
    · exact absurd (hdigits '-' List.mem_cons_self) (by decide)
    · exact absurd (List.cons.inj heq).1 (by decide)
  all_goals
    split at hi
    · obtain ⟨-, heq⟩ := Option.ite_none_right_eq_some.mp hi
      rw [← Option.some.inj heq]
      exact Int.natCast_nonneg _
    · exact absurd hi (by simp)

/-! ## Numerals of any length -/

/-- The characters are decimal digits, at least one of them. -/
structure IsNumeral (digits : List Char) : Prop where
  ne_nil : digits ≠ []
  isDigit : ∀ c ∈ digits, c.isDigit = true

instance (digits : List Char) : Decidable (IsNumeral digits) :=
  decidable_of_iff (digits ≠ [] ∧ digits.all Char.isDigit = true)
    ⟨fun h => ⟨h.1, List.all_eq_true.mp h.2⟩, fun h => ⟨h.ne_nil, List.all_eq_true.mpr h.isDigit⟩⟩

variable {digits : List Char}

lemma IsNumeral.digits?_eq (h : IsNumeral digits) : digits? digits = some (decimal digits) :=
  digits?_eq_some_iff.mpr ⟨h.ne_nil, h.isDigit, rfl⟩

/-- Without a sign, numbers below 2 to the 64th are read. -/
lemma IsNumeral.unsigned?_eq (h : IsNumeral digits) :
    unsigned? digits = if decimal digits < 2 ^ 64 then some (decimal digits) else none := by
  unfold unsigned?
  split
  · exact absurd h.isDigit forall_isDigit_cons_plus
  · dsimp only
    rw [h.digits?_eq]
    rfl

/-- With a minus sign, numbers up to 2 to the 63rd are read. -/
lemma IsNumeral.signed?_minus (h : IsNumeral digits) :
    signed? ('-' :: digits)
      = if decimal digits ≤ 2 ^ 63 then some (-(decimal digits : Int)) else none := by
  rw [signed?, h.digits?_eq]
  rfl

/-- A minus sign is never part of a number that is to have none. -/
lemma unsigned?_minus (cs : List Char) : unsigned? ('-' :: cs) = none := by
  rw [Option.eq_none_iff_forall_ne_some]
  intro n hn
  obtain ⟨digits, -, hdigits, rfl | heq, -⟩ := unsigned?_eq_some_iff.mp hn
  · exact absurd (hdigits '-' List.mem_cons_self) (by decide)
  · exact absurd (List.cons.inj heq).1 (by decide)

end Concolic.Numeral
