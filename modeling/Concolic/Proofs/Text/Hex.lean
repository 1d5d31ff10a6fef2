/-
# Digit pairs and their bytes

A byte string is spelled by the pairs of digits of its bytes, each digit in either case.  Every
spelling is read back as the byte string, so two byte strings do not share one.
-/
import Concolic.Text.Hex
import Concolic.Proofs.Text.Utf8

namespace Concolic.Hex

/-- The character is the digit of the number, in lower or upper case. -/
def IsDigit (c : Char) (n : Nat) : Prop := n < 16 ∧ (c = digit n ∨ c = (digit n).toUpper)

/-- The characters are the digit pairs of the bytes. -/
inductive Spells : List Char → Bytes → Prop
  | nil : Spells [] []
  | cons {high low : Char} {cs : List Char} {byte : UInt8} {bytes : Bytes} :
    IsDigit high (byte.toNat / 16) → IsDigit low (byte.toNat % 16) → Spells cs bytes →
    Spells (high :: low :: cs) (byte :: bytes)

lemma digitValue?_digit : ∀ n < 16,
    String.utf8EncodeChar (digit n) = [(digit n).val.toUInt8] ∧
      digitValue? (digit n).val.toUInt8 = some n ∧
      String.utf8EncodeChar (digit n).toUpper = [(digit n).toUpper.val.toUInt8] ∧
      digitValue? (digit n).toUpper.val.toUInt8 = some n := by decide

lemma IsDigit.exists_byte {c : Char} {n : Nat} (h : IsDigit c n) :
    ∃ b, String.utf8EncodeChar c = [b] ∧ digitValue? b = some n := by
  obtain ⟨hn, rfl | rfl⟩ := h
  · exact ⟨_, (digitValue?_digit n hn).1, (digitValue?_digit n hn).2.1⟩
  · exact ⟨_, (digitValue?_digit n hn).2.2⟩

lemma decodeFrom_of_spells {cs : List Char} {bytes : Bytes} (h : Spells cs bytes) (position : Nat) :
    decodeFrom position (cs.flatMap String.utf8EncodeChar) = .ok bytes := by
  induction h generalizing position with
  | nil => rfl
  | @cons high low cs byte bytes hhigh hlow _ ih =>
    obtain ⟨b, hb, hbvalue⟩ := hhigh.exists_byte
    obtain ⟨b', hb', hbvalue'⟩ := hlow.exists_byte
    have hbyte : UInt8.ofNat (byte.toNat / 16 * 16 + byte.toNat % 16) = byte := by
      rw [Nat.div_add_mod']
      exact UInt8.ofNat_toNat
    rw [List.flatMap_cons, List.flatMap_cons, hb, hb']
    simp only [List.singleton_append]
    rw [decodeFrom]
    simp only [hbvalue, hbvalue', ih, hbyte]

lemma length_of_spells {cs : List Char} {bytes : Bytes} (h : Spells cs bytes) :
    (cs.flatMap String.utf8EncodeChar).length = 2 * bytes.length := by
  induction h with
  | nil => rfl
  | cons hhigh hlow _ ih =>
    obtain ⟨b, hb, -⟩ := hhigh.exists_byte
    obtain ⟨b', hb', -⟩ := hlow.exists_byte
    rw [List.flatMap_cons, List.flatMap_cons, hb, hb', List.length_append, List.length_append, ih]
    simp only [List.length_cons, List.length_nil]
    omega

/-- Every spelling is read back. -/
lemma decode_of_spells {s : String} {bytes : Bytes} (h : Spells s.toList bytes) :
    decode s = .ok bytes := by
  have hbytes : Utf8.encode s = s.toList.flatMap String.utf8EncodeChar := Utf8.encode_eq_flatMap s
  have heven : ¬ (Utf8.encode s).length % 2 = 1 := by
    rw [hbytes, length_of_spells h]
    omega
  unfold decode
  rw [if_neg heven, hbytes]
  exact decodeFrom_of_spells h 0

/-- The digits that are written are a spelling. -/
lemma spells_encode (bytes : Bytes) : Spells (encode bytes).toList bytes := by
  rw [encode, String.toList_ofList]
  induction bytes with
  | nil => exact .nil
  | cons byte bytes ih =>
    have hlt : byte.toNat < 256 := byte.toNat_lt
    exact .cons ⟨by omega, .inl rfl⟩ ⟨by omega, .inl rfl⟩ ih

/-- Reading digit pairs undoes writing them. -/
theorem decode_encode (bytes : Bytes) : decode (encode bytes) = .ok bytes :=
  decode_of_spells (spells_encode bytes)

end Concolic.Hex
