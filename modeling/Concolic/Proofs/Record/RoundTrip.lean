/-
# Records are canonical

Encoding and decoding are inverse to each other.  Both are described by the same two things,
the test cases that fit and the bytes of a record, and this gives both directions at once: a
record that can be written is decoded to the test case that it was written for, and a byte
string that can be decoded is the one record of what it is decoded to.
-/
import Concolic.Proofs.Record.Reading
import Mathlib.Algebra.GroupWithZero.Nat

namespace Concolic.TestCase

open Record (limit)

lemma length_bytes (t : TestCase) :
    t.bytes.length
      = 4 + (t.elements.map fun e => 8 + (Utf8.encode e.name).length + e.value.length).sum := by
  have hlen : ∀ es : List Element, (es.flatMap Element.bytes).length
      = (es.map fun e => 8 + (Utf8.encode e.name).length + e.value.length).sum := by
    intro es
    induction es with
    | nil => rfl
    | cons e es ih =>
      rw [List.flatMap_cons, List.length_append, ih, Element.length_bytes, List.map_cons,
        List.sum_cons]
  rw [bytes, List.length_append, Record.length_number, hlen]

/-- **Decoding undoes encoding.**  A test case can be encoded exactly if the number of its
elements and the lengths of all names and values are numbers that a record can hold, and from
the record the same elements are got back in the same order. -/
theorem decode_of_encode (t : TestCase) :
    ((∃ b, t.encode = .ok b) ↔
        t.elements.length ≤ limit ∧
          ∀ e ∈ t.elements, (Utf8.encode e.name).length ≤ limit ∧ e.value.length ≤ limit) ∧
      ∀ b, t.encode = .ok b → decode b = .ok t := by
  refine ⟨⟨?_, ?_⟩, ?_⟩
  · rintro ⟨b, hb⟩
    obtain ⟨ht, -⟩ := encode_eq_ok_iff.mp hb
    exact ⟨ht.size, fun e he => ⟨(ht.elements e he).name, (ht.elements e he).value⟩⟩
  · rintro ⟨hsize, hes⟩
    have ht : t.Fits := ⟨hsize, fun e he => ⟨(hes e he).1, (hes e he).2⟩⟩
    exact ⟨t.bytes, encode_eq_ok_iff.mpr ⟨ht, rfl⟩⟩
  · intro b hb
    exact decode_eq_ok_iff.mpr (encode_eq_ok_iff.mp hb)

/-- Names may be empty or repeated, and so may values. -/
theorem decode_of_encode_repeated_names :
    (TestCase.mk [⟨"", []⟩, ⟨"é", [0, 255]⟩, ⟨"é", []⟩]).encode
        = .ok [3, 0, 0, 0, 0, 0, 0, 0, 0, 0, 0, 0, 2, 0, 0, 0, 195, 169, 2, 0, 0, 0, 0, 255,
          2, 0, 0, 0, 195, 169, 0, 0, 0, 0] ∧
      decode [3, 0, 0, 0, 0, 0, 0, 0, 0, 0, 0, 0, 2, 0, 0, 0, 195, 169, 2, 0, 0, 0, 0, 255,
          2, 0, 0, 0, 195, 169, 0, 0, 0, 0]
        = .ok ⟨[⟨"", []⟩, ⟨"é", [0, 255]⟩, ⟨"é", []⟩]⟩ := by
  have h : (TestCase.mk [⟨"", []⟩, ⟨"é", [0, 255]⟩, ⟨"é", []⟩]).encode
      = .ok [3, 0, 0, 0, 0, 0, 0, 0, 0, 0, 0, 0, 2, 0, 0, 0, 195, 169, 2, 0, 0, 0, 0, 255,
        2, 0, 0, 0, 195, 169, 0, 0, 0, 0] := by decide +kernel
  exact ⟨h, (decode_of_encode _).2 _ h⟩

/-- **The format is canonical.**  The byte strings that are decoded to a test case are the
records of that test case.  So no two byte strings are decoded to the same test case, and the
length of a byte string that is decoded is told by the lengths of names and values. -/
theorem decode_iff_encode :
    (∀ (b : Bytes) (t : TestCase), decode b = .ok t ↔ t.encode = .ok b) ∧
      (∀ (b b' : Bytes) (t : TestCase), decode b = .ok t → decode b' = .ok t → b = b') ∧
      ∀ (b : Bytes) (t : TestCase), decode b = .ok t →
        b.length = 4
          + (t.elements.map fun e => 8 + (Utf8.encode e.name).length + e.value.length).sum := by
  refine ⟨?_, ?_, ?_⟩
  · intro b t
    rw [decode_eq_ok_iff, encode_eq_ok_iff]
  · intro b b' t hb hb'
    rw [(decode_eq_ok_iff.mp hb).2, (decode_eq_ok_iff.mp hb').2]
  · intro b t hb
    rw [(decode_eq_ok_iff.mp hb).2, length_bytes]

/-- The one record of an element without name and value. -/
theorem decode_iff_encode_empty_element :
    decode [1, 0, 0, 0, 0, 0, 0, 0, 0, 0, 0, 0] = .ok ⟨[⟨"", []⟩]⟩ ∧
      ∀ b, decode b = .ok ⟨[⟨"", []⟩]⟩ → b = [1, 0, 0, 0, 0, 0, 0, 0, 0, 0, 0, 0] := by
  have h : (TestCase.mk [⟨"", []⟩]).encode = .ok [1, 0, 0, 0, 0, 0, 0, 0, 0, 0, 0, 0] := by
    decide +kernel
  have hdecode := (decode_iff_encode.1 _ _).mpr h
  exact ⟨hdecode, fun b hb => decode_iff_encode.2.1 b _ _ hb hdecode⟩

/-- A length with the sign bit set is not taken for a large one, and bytes behind the last
element are not passed over. -/
example : decode [1, 0, 0, 0, 0, 0, 0, 128] = .error (.negative .nameLength (-2147483648)) ∧
    decode [0, 0, 0, 0, 7] = .error (.trailing 1) := by decide +kernel

end Concolic.TestCase
