/-
# The lines of an output

What comes out of a bridge is one stream of bytes, and reading takes it line by line.  A line
goes up to its line break, which belongs to it; only the last line may lack one.
-/
import Concolic.Engine.Bridge
import Mathlib.Data.List.TakeWhile
import Mathlib.Tactic.Common

namespace Concolic.Bridge

/-- The lines of an output. -/
def lines : Bytes → List Bytes
  | [] => []
  | byte :: rest =>
    if byte = newline then [byte] :: lines rest
    else
      match lines rest with
      | [] => [[byte]]
      | line :: after => (byte :: line) :: after

variable {line rest : Bytes}

lemma lines_line (h : newline ∉ line) :
    lines (line ++ newline :: rest) = (line ++ [newline]) :: lines rest := by
  induction line with
  | nil => simp [lines]
  | cons byte line ih =>
    obtain ⟨hbyte, hline⟩ := not_or.mp (mt List.mem_cons.mpr h)
    rw [List.cons_append, lines, if_neg (Ne.symm hbyte), ih hline]
    rfl

lemma lines_last (h : newline ∉ line) (hne : line ≠ []) : lines line = [line] := by
  induction line with
  | nil => exact absurd rfl hne
  | cons byte line ih =>
    obtain ⟨hbyte, hline⟩ := not_or.mp (mt List.mem_cons.mpr h)
    rw [lines, if_neg (Ne.symm hbyte)]
    cases line with
    | nil => rfl
    | cons next line => rw [ih hline (by simp)]

lemma splitLine_line (h : newline ∉ line) :
    splitLine (line ++ newline :: rest) = (line ++ [newline], rest) := by
  have htake :
      (line ++ newline :: rest).takeWhile (fun byte => decide (byte ≠ newline)) = line := by
    rw [List.takeWhile_append_of_pos (by simpa using fun byte hb => ne_of_mem_of_not_mem hb h)]
    simp
  rw [splitLine]
  simp only [htake, List.drop_left]

lemma splitLine_last (h : newline ∉ line) : splitLine line = (line, []) := by
  have htake : line.takeWhile (fun byte => decide (byte ≠ newline)) = line := by
    rw [List.takeWhile_eq_self_iff]
    simpa using fun byte hb => ne_of_mem_of_not_mem hb h
  rw [splitLine]
  simp only [htake, List.drop_length]

/-- A reply that is one line has one line break, at its end. -/
lemma count_line (h : newline ∉ line) :
    (line ++ newline :: rest).count newline = rest.count newline + 1 := by
  rw [List.count_append, List.count_eq_zero_of_not_mem h, List.count_cons_self, Nat.zero_add]

end Concolic.Bridge
