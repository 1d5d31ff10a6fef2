/-
# Writing over bytes

Bytes written over a string of bytes leave what lies before and behind them.  What is written
in two pieces, one after the other, is what is written at once, and a piece at the front can
be written over by another one of the same length.
-/
import Concolic.Bytes
import Mathlib.Tactic.Common

namespace Concolic.Bytes

@[simp] lemma length_toWidth (value : Bytes) (width : Nat) :
    (value.toWidth width).length = width := by
  simp only [toWidth, List.length_append, List.length_take, List.length_replicate]
  omega

/-- At a width, a value keeps its bytes in their places and has zero bytes behind them. -/
lemma getElem?_toWidth (value : Bytes) {width k : Nat} (hk : k < width) :
    (value.toWidth width)[k]? = some (value[k]?.getD 0) := by
  rw [toWidth, List.getElem?_append, List.getElem?_take_of_lt hk, List.length_take]
  by_cases hvalue : k < value.length
  · rw [if_pos (Nat.lt_min.mpr ⟨hk, hvalue⟩), List.getElem?_eq_getElem hvalue, Option.getD_some]
  · have hrest : k - min width value.length < width - value.length := by omega
    rw [if_neg (by omega), List.getElem?_replicate_of_lt hrest,
      List.getElem?_eq_none (Nat.not_lt.mp hvalue), Option.getD_none]

lemma splice_eq (old : Bytes) (position : Nat) (new : Bytes) :
    old.splice position new
      = old.toWidth position ++ (new ++ old.drop (position + new.length)) := by
  simp only [splice, toWidth, List.append_assoc]

/-- The first bytes of a splice are the old ones, zero bytes being put in for missing ones. -/
lemma toWidth_splice (old new : Bytes) (position : Nat) :
    (old.splice position new).toWidth position = old.toWidth position := by
  rw [splice_eq]
  have hl : (old.toWidth position ++ (new ++ old.drop (position + new.length))).take position
      = old.toWidth position := by
    rw [List.take_append_of_le_length (by simp), List.take_of_length_le (by simp)]
  have hz : position
      - (old.toWidth position ++ (new ++ old.drop (position + new.length))).length = 0 := by
    simp only [List.length_append, length_toWidth]
    omega
  rw [toWidth, hl, hz]
  simp

lemma drop_splice (old new : Bytes) (position n : Nat) :
    (old.splice position new).drop (position + new.length + n)
      = old.drop (position + new.length + n) := by
  rw [splice_eq, ← List.append_assoc, Nat.add_assoc position]
  have hp : (old.toWidth position ++ new).length = position + new.length := by simp
  rw [← Nat.add_assoc, ← hp, List.drop_length_add_append, hp, List.drop_drop]

/-- Two pieces written one after the other are written as one. -/
lemma splice_splice (old first second : Bytes) (position : Nat) :
    (old.splice position first).splice (position + first.length) second
      = old.splice position (first ++ second) := by
  have hw : (old.splice position first).toWidth (position + first.length)
      = old.toWidth position ++ first := by
    have hl : (old.splice position first).length ≥ position + first.length := by
      rw [splice_eq]
      simp only [List.length_append, length_toWidth]
      omega
    rw [toWidth, Nat.sub_eq_zero_of_le hl, List.replicate_zero, List.append_nil, splice_eq,
      ← List.append_assoc, List.take_append_of_le_length (by simp),
      List.take_of_length_le (by simp)]
  rw [splice_eq, hw, drop_splice, splice_eq, List.length_append, List.append_assoc,
    List.append_assoc, Nat.add_assoc]

/-- A piece is written over the front of what has been written at the same position. -/
lemma splice_over_front (old first rest new : Bytes) (position : Nat)
    (h : first.length = new.length) :
    (old.splice position (first ++ rest)).splice position new
      = old.splice position (new ++ rest) := by
  have hd : (old.splice position (first ++ rest)).drop (position + new.length)
      = rest ++ old.drop (position + (new ++ rest).length) := by
    have hp : (old.toWidth position ++ first).length = position + new.length := by simp [h]
    rw [splice_eq, List.append_assoc first, ← List.append_assoc, ← hp, List.drop_left,
      List.length_append, List.length_append, h]
  rw [splice_eq, toWidth_splice, hd, splice_eq, List.append_assoc]

@[simp] lemma nil_splice_zero (new : Bytes) : splice [] 0 new = new := by
  simp [splice]

end Concolic.Bytes
