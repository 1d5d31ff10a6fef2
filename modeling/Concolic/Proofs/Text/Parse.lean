/-
# What steps of reading take

The basic steps of reading on a text whose beginning is known, and steps in a row.
-/
import Concolic.Text.Parse
import Mathlib.Data.List.TakeDrop
import Mathlib.Tactic.Common

namespace Concolic.Parse

variable {α β : Type} {cs rest : List Char}

/-! ## Steps in a row -/

lemma bind_of_ok {p : Parse α} {f : α → Parse β} {a : α} (h : p cs = .ok (a, rest)) :
    (p >>= f) cs = f a rest := by
  show (p cs >>= fun x => f x.1 x.2) = f a rest
  rw [h]
  rfl

lemma map_of_ok {p : Parse α} {g : α → β} {a : α} (h : p cs = .ok (a, rest)) :
    (g <$> p) cs = .ok (g a, rest) := by
  show (p cs >>= fun x => pure (g x.1, x.2)) = .ok (g a, rest)
  rw [h]
  rfl

lemma run_of_ok {p : Parse α} {a : α} (h : p cs = .ok (a, [])) : run p cs = .ok a := by
  have hrun : StateT.run p cs = .ok (a, []) := h
  rw [run, hrun]

/-! ## Single steps -/

section Accept

variable {x y : Parse α} {s : String} {c d : Char} {ds : List Char}

lemma accept_head (hs : s.toList = [c]) : accept s (c :: rest) = .ok (true, rest) := by
  have hprefix : s.toList.isPrefixOf (c :: rest) = true := by simp [hs]
  rw [accept, if_pos hprefix, ← String.length_toList, hs]
  rfl

lemma accept_of_head_ne (hs : s.toList = d :: ds) (hne : c ≠ d) :
    accept s (c :: rest) = .ok (false, c :: rest) := by
  have hprefix : ¬ s.toList.isPrefixOf (c :: rest) = true := by simp [hs, hne.symm]
  rw [accept, if_neg hprefix]

lemma ifAccept_head (hs : s.toList = [c]) :
    (accept s >>= fun taken => if taken = true then x else y) (c :: rest) = x rest :=
  bind_of_ok (accept_head hs)

lemma ifAccept_of_head_ne (hs : s.toList = d :: ds) (hne : c ≠ d) :
    (accept s >>= fun taken => if taken = true then x else y) (c :: rest) = y (c :: rest) :=
  bind_of_ok (accept_of_head_ne hs hne)

lemma expect_head (hs : s.toList = [c]) : expect s (c :: rest) = .ok ((), rest) :=
  bind_of_ok (accept_head hs)

end Accept

lemma takeWhile_append {p : Char → Bool} {taken : List Char} (htaken : ∀ c ∈ taken, p c = true)
    (hrest : ∀ c ∈ rest.head?, p c = false) : takeWhile p (taken ++ rest) = .ok (taken, rest) := by
  have hstop : rest.takeWhile p = [] ∧ rest.dropWhile p = rest := by
    cases rest with
    | nil => exact ⟨rfl, rfl⟩
    | cons c rest =>
      have hc : p c = false := hrest c rfl
      simp [hc]
  rw [takeWhile, List.span_eq_takeWhile_dropWhile, List.takeWhile_append_of_pos htaken,
    List.dropWhile_append_of_pos htaken, hstop.1, hstop.2, List.append_nil]

end Concolic.Parse
