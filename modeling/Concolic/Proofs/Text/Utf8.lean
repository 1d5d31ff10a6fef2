/-
# Texts and their bytes

Every text is got back from its bytes, and bytes that spell a text are the bytes of that text.
So different texts have different bytes.
-/
import Concolic.Text.Utf8
import Mathlib.Tactic.Common

namespace Concolic.Utf8

@[simp] lemma decode?_encode (s : String) : decode? (encode s) = some s := by
  obtain ⟨⟨⟨bytes⟩⟩, valid⟩ := s
  simp [encode, decode?, String.fromUTF8?, String.fromUTF8, valid]

/-- A text is shown as it is. -/
@[simp] lemma lossy_encode (s : String) : lossy (encode s) = s := by
  rw [lossy, decode?_encode]

lemma encode_of_decode? {b : Bytes} {s : String} (h : decode? b = some s) : encode s = b := by
  unfold decode? String.fromUTF8? at h
  split at h
  · obtain rfl := Option.some.inj h
    simp [encode, String.fromUTF8]
  · exact absurd h (by simp)

lemma encode_injective : Function.Injective encode := by
  intro s s' h
  have hs : decode? (encode s) = decode? (encode s') := by rw [h]
  simpa using hs

/-! ## Characters and their bytes -/

lemma encode_append (s t : String) : encode (s ++ t) = encode s ++ encode t := by
  simp [encode, String.toByteArray_append]

lemma encode_eq_flatMap (s : String) : encode s = s.toList.flatMap String.utf8EncodeChar := by
  have hs : s.toByteArray = (String.ofList s.toList).toByteArray := by rw [String.ofList_toList]
  rw [encode, hs, String.toByteArray_ofList]
  simp [List.utf8Encode]

/-- A character takes four bytes at most. -/
lemma length_encode_le (s : String) : (encode s).length ≤ 4 * s.length := by
  rw [encode_eq_flatMap, ← String.length_toList]
  induction s.toList with
  | nil => exact Nat.le_refl 0
  | cons c cs ih =>
    have hchar : (String.utf8EncodeChar c).length ≤ 4 := by
      rw [String.length_utf8EncodeChar]
      exact c.utf8Size_le_four
    rw [List.flatMap_cons, List.length_append, List.length_cons]
    omega

/-- A byte of the lower half occurs only in the spelling of its own character. -/
lemma toNat_eq_of_mem_utf8EncodeChar {c : Char} {b : UInt8} (h : b ∈ String.utf8EncodeChar c)
    (hb : b.toNat < 128) : b.toNat = c.val.toNat := by
  have hupper : ∀ n, 128 ≤ n → n < 256 → b ≠ UInt8.ofNat n := by
    rintro n hle hlt rfl
    rw [UInt8.toNat_ofNat', Nat.mod_eq_of_lt hlt] at hb
    omega
  unfold String.utf8EncodeChar at h
  dsimp only at h
  split at h
  · obtain rfl := List.mem_singleton.mp h
    rw [UInt8.toNat_ofNat']
    exact Nat.mod_eq_of_lt (by omega)
  -- in a longer spelling all bytes are of the upper half
  split at h
  · simp only [List.mem_cons, List.not_mem_nil, or_false] at h
    rcases h with h | h <;> exact absurd h (hupper _ (by omega) (by omega))
  split at h
  · simp only [List.mem_cons, List.not_mem_nil, or_false] at h
    rcases h with h | h | h <;> exact absurd h (hupper _ (by omega) (by omega))
  · simp only [List.mem_cons, List.not_mem_nil, or_false] at h
    rcases h with h | h | h | h <;> exact absurd h (hupper _ (by omega) (by omega))

/-- A byte of the lower half stands only where its character does. -/
lemma mem_of_mem_encode {s : String} {b : UInt8} (hb : b.toNat < 128) (h : b ∈ encode s) :
    Char.ofNat b.toNat ∈ s.toList := by
  rw [encode_eq_flatMap] at h
  obtain ⟨c, hc, hbc⟩ := List.mem_flatMap.mp h
  rw [toNat_eq_of_mem_utf8EncodeChar hbc hb]
  have hchar : Char.ofNat c.val.toNat = c := Char.ofNat_toNat c
  rwa [hchar]

end Concolic.Utf8
