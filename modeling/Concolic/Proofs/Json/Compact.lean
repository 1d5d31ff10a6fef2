/-
# The compact form stands on one line

Control characters are escaped wherever they occur in a string, and nothing else that is
written is one.  So a value in its compact form can be sent as a line.
-/
import Concolic.Json.Printer
import Mathlib.Tactic.Common

namespace Concolic.Json

open List (forall_mem_append forall_mem_cons)

/-! ## Characters and digits -/

lemma le_toNat_digit : ∀ n < 16, 32 ≤ (Hex.digit n).toNat := by decide

lemma le_toNat_of_all {cs : List Char} (h : cs.all (fun d => 32 ≤ d.toNat) = true) :
    ∀ d ∈ cs, 32 ≤ d.toNat := by simpa using h

lemma le_toNat_of_mem_escaped (c : Char) : ∀ d ∈ escaped c, 32 ≤ d.toNat := by
  unfold escaped
  split
  case h_8 =>
    split
    · rename_i hcontrol
      have hc : c.toNat < 0x20 := hcontrol
      have hhigh := le_toNat_digit (c.toNat / 16) (by omega)
      have hlow := le_toNat_digit (c.toNat % 16) (by omega)
      simp only [forall_mem_cons]
      exact ⟨by decide, by decide, by decide, by decide, hhigh, hlow, List.forall_mem_nil _⟩
    · rename_i hcontrol
      intro d hd
      obtain rfl := List.mem_singleton.mp hd
      exact Nat.not_lt.mp hcontrol
  -- the escapes with a letter
  all_goals exact le_toNat_of_all rfl

lemma le_toNat_of_mem_quotedChars (s : String) : ∀ d ∈ quotedChars s, 32 ≤ d.toNat := by
  have hcontent : ∀ d ∈ s.toList.flatMap escaped, 32 ≤ d.toNat := by
    intro d hd
    obtain ⟨c, -, hc⟩ := List.mem_flatMap.mp hd
    exact le_toNat_of_mem_escaped c d hc
  exact forall_mem_cons.mpr ⟨by decide, forall_mem_append.mpr ⟨hcontent, le_toNat_of_all rfl⟩⟩

lemma le_toNat_of_mem_digitChars (n : Nat) : ∀ d ∈ digitChars n, 32 ≤ d.toNat := by
  intro d hd
  have hdigit : d.isDigit = true := Nat.isDigit_of_mem_toDigits (by decide) (by decide) hd
  have hzero : 48 ≤ d.toNat := by
    simp only [Char.isDigit, Bool.and_eq_true, decide_eq_true_eq] at hdigit
    exact hdigit.1
  omega

lemma le_toNat_of_mem_numberChars (n : Number) : ∀ d ∈ n.chars, 32 ≤ d.toNat := by
  cases n with
  | natural n => exact le_toNat_of_mem_digitChars n
  | negative n => exact forall_mem_cons.mpr ⟨by decide, le_toNat_of_mem_digitChars n⟩
  | real => exact le_toNat_of_all rfl

/-! ## Values -/

mutual

/-- There is no control character in the compact form. -/
lemma le_toNat_of_mem_chars : ∀ j : Json, ∀ d ∈ j.chars, 32 ≤ d.toNat
  | .null => le_toNat_of_all rfl
  | .bool true => le_toNat_of_all rfl
  | .bool false => le_toNat_of_all rfl
  | .number n => le_toNat_of_mem_numberChars n
  | .string s => le_toNat_of_mem_quotedChars s
  | .array [] => le_toNat_of_all rfl
  | .array (item :: rest) => forall_mem_cons.mpr ⟨by decide, forall_mem_append.mpr
      ⟨le_toNat_of_mem_chars item,
        forall_mem_append.mpr ⟨le_toNat_of_mem_itemsChars rest, le_toNat_of_all rfl⟩⟩⟩
  | .object [] => le_toNat_of_all rfl
  | .object (f :: rest) => forall_mem_cons.mpr ⟨by decide, forall_mem_append.mpr
      ⟨le_toNat_of_mem_fieldChars f,
        forall_mem_append.mpr ⟨le_toNat_of_mem_fieldsChars rest, le_toNat_of_all rfl⟩⟩⟩

lemma le_toNat_of_mem_itemsChars : ∀ items : List Json, ∀ d ∈ itemsChars items, 32 ≤ d.toNat
  | [] => le_toNat_of_all rfl
  | item :: rest => forall_mem_cons.mpr ⟨by decide, forall_mem_append.mpr
      ⟨le_toNat_of_mem_chars item, le_toNat_of_mem_itemsChars rest⟩⟩

lemma le_toNat_of_mem_fieldChars : ∀ f : String × Json, ∀ d ∈ fieldChars f, 32 ≤ d.toNat
  | (name, value) => forall_mem_append.mpr ⟨le_toNat_of_mem_quotedChars name,
      forall_mem_cons.mpr ⟨by decide, le_toNat_of_mem_chars value⟩⟩

lemma le_toNat_of_mem_fieldsChars :
    ∀ fields : List (String × Json), ∀ d ∈ fieldsChars fields, 32 ≤ d.toNat
  | [] => le_toNat_of_all rfl
  | f :: rest => forall_mem_cons.mpr ⟨by decide, forall_mem_append.mpr
      ⟨le_toNat_of_mem_fieldChars f, le_toNat_of_mem_fieldsChars rest⟩⟩

end

/-- The compact form has no line break in it. -/
lemma newline_notMem_print (j : Json) : '\n' ∉ j.print.toList := by
  intro h
  rw [print, String.toList_ofList] at h
  exact absurd (le_toNat_of_mem_chars j '\n' h) (by decide)

end Concolic.Json
