/-
# Numbers and their bytes

Writing a number as bytes and reading the bytes again are inverse to each other: a number
below `256 ^ w` is got back from its `w` bytes, and every string of `w` bytes is the one that
its number is written as.  The same holds of signed numbers, as long as they are not negative;
the first of these, `2 ^ 31`, is the first that four bytes hold no longer.
-/
import Concolic.Bytes.LittleEndian
import Mathlib.Tactic.Common

namespace Concolic.Bytes

lemma toNat_ofNat {width n : Nat} (h : n < Nat.pow 256 width) : toNat (ofNat width n) = n := by
  induction width generalizing n with
  | zero =>
    have hn : n = 0 := by simpa using h
    simp [ofNat, toNat, hn]
  | succ width ih =>
    have hq : n / 256 < Nat.pow 256 width := by
      rw [Nat.div_lt_iff_lt_mul (by decide)]
      exact h
    have hd : (UInt8.ofNat (n % 256)).toNat = n % 256 := by
      rw [UInt8.toNat_ofNat']
      omega
    rw [ofNat, toNat, hd, ih hq]
    omega

lemma toNat_lt (b : Bytes) : toNat b < Nat.pow 256 b.length := by
  induction b with
  | nil => decide
  | cons x b ih =>
    have hx : x.toNat < 256 := x.toNat_lt
    have hp : Nat.pow 256 (x :: b).length = Nat.pow 256 b.length * 256 := rfl
    rw [toNat, hp]
    omega

lemma ofNat_toNat (b : Bytes) : ofNat b.length (toNat b) = b := by
  induction b with
  | nil => rfl
  | cons x b ih =>
    have hx : x.toNat < 256 := x.toNat_lt
    have hm : (x.toNat + 256 * toNat b) % 256 = x.toNat := by omega
    have hd : (x.toNat + 256 * toNat b) / 256 = toNat b := by omega
    rw [List.length_cons, toNat, ofNat, hm, hd, ih, UInt8.ofNat_toNat]

/-- The number of four bytes, if it is not negative, is the one they stand for without sign. -/
lemma toInt_eq_iff {b : Bytes} (hb : b.length = 4) (n : Nat) :
    toInt b = (n : Int) ↔ toNat b = n ∧ n < 2147483648 := by
  have hlt : toNat b < 4294967296 := by
    have h := toNat_lt b
    rw [hb] at h
    exact h
  have hpow : Nat.pow 256 b.length = 4294967296 := by rw [hb]
  unfold toInt
  rw [hpow, Int.bmod_def]
  split <;> omega

lemma toInt_ofNat {n : Nat} (h : n < 2147483648) : toInt (ofNat 4 n) = (n : Int) := by
  have hn : toNat (ofNat 4 n) = n := toNat_ofNat (by
    show n < 4294967296
    omega)
  exact (toInt_eq_iff (length_ofNat 4 n) n).mpr ⟨hn, h⟩

end Concolic.Bytes
