/-
# What is written for a test case

The form of a record as a string of bytes, and the proof that this is what a writer leaves on
a medium.  A growing medium takes whatever it is given, so only lengths can stand in the way:
a test case is written exactly if the number of its elements and the lengths of their names
and values are numbers that a record can hold.

The writer first puts zero in the place of the number of elements.  What it has written is
described as one splice of the old content all along, from the position where the record
starts; the number is put in by writing over the front of that splice.
-/
import Concolic.Record.Writer
import Concolic.Proofs.Bytes.Splice

namespace Concolic

/-- The bytes of a name and a value in a record, each behind its length. -/
def Record.pairBytes (pair : Bytes × Bytes) : Bytes :=
  number pair.1.length ++ (pair.1 ++ (number pair.2.length ++ pair.2))

namespace Element

/-- The name and the value of an element as the bytes that are written. -/
def pair (e : Element) : Bytes × Bytes := (Utf8.encode e.name, e.value)

/-- The bytes of an element in a record: its name and its value, each behind its length. -/
def bytes (e : Element) : Bytes :=
  Record.number (Utf8.encode e.name).length
    ++ (Utf8.encode e.name ++ (Record.number e.value.length ++ e.value))

/-- The lengths of an element are numbers that a record can hold. -/
structure Fits (e : Element) : Prop where
  /-- The name is not too long. -/
  name : (Utf8.encode e.name).length ≤ Record.limit
  /-- The value is not too long. -/
  value : e.value.length ≤ Record.limit

end Element

namespace TestCase

/-- The bytes of the record of a test case. -/
def bytes (t : TestCase) : Bytes := Record.number t.size ++ t.elements.flatMap Element.bytes

/-- All lengths and the number of elements are numbers that a record can hold. -/
structure Fits (t : TestCase) : Prop where
  /-- There are not too many elements. -/
  size : t.size ≤ Record.limit
  /-- No element is too long. -/
  elements : ∀ e ∈ t.elements, e.Fits

end TestCase

namespace Record

@[simp] lemma length_number (n : Nat) : (number n).length = 4 := Bytes.length_ofNat 4 n

lemma flatMap_pairBytes (es : List Element) :
    (es.map Element.pair).flatMap pairBytes = es.flatMap Element.bytes := by
  rw [List.flatMap_map]
  rfl

end Record

@[simp] lemma Element.length_bytes (e : Element) :
    e.bytes.length = 8 + (Utf8.encode e.name).length + e.value.length := by
  simp only [Element.bytes, List.length_append, Record.length_number]
  omega

/-! ## Growing media -/

namespace Medium

/-- A growing medium with more bytes written at its position. -/
def grown (m : Medium) (bytes : Bytes) : Medium where
  content := m.content.splice m.position bytes
  position := m.position + bytes.length
  isFixed := false

@[simp] lemma grown_isFixed (m : Medium) (bytes : Bytes) : (m.grown bytes).isFixed = false := rfl

lemma grown_grown (m : Medium) (first second : Bytes) :
    (m.grown first).grown second = m.grown (first ++ second) := by
  simp only [grown, Bytes.splice_splice, List.length_append, Nat.add_assoc]

lemma write_of_growing {m : Medium} (h : m.isFixed = false) (bytes : Bytes) :
    m.write bytes = (.ok (), m.grown bytes) := by
  simp [write, grown, h]

/-- Strings written one after the other are written like the string that they make up. -/
lemma writeAll_of_growing {m : Medium} (h : m.isFixed = false) (first : Bytes)
    (rest : List Bytes) :
    m.writeAll (first :: rest) = (.ok (), m.grown (first ++ rest.flatten)) := by
  induction rest generalizing m first with
  | nil => simp [writeAll, write_of_growing h]
  | cons second rest ih =>
    rw [writeAll, write_of_growing h]
    simp only
    rw [ih (m.grown_isFixed first), grown_grown, List.flatten_cons]

end Medium

namespace Record.Writer

/-! ## Pairs of names and values -/

/-- Writes pairs of a name and a value until one fails. -/
def pairs (w : Writer) : List (Bytes × Bytes) → Except Error Unit × Writer
  | [] => (.ok (), w)
  | pair :: rest =>
    match w.element pair.1 pair.2 with
    | (.ok _, w') => w'.pairs rest
    | (.error err, w') => (.error err, w')

/-- The elements of a test case are written as pairs. -/
lemma elements_eq_pairs (w : Writer) (es : List Element) :
    w.elements es = w.pairs (es.map Element.pair) := by
  induction es generalizing w with
  | nil => rfl
  | cons e es ih =>
    rw [elements, List.map_cons, pairs, Element.pair]
    rcases w.element (Utf8.encode e.name) e.value with ⟨_ | _, w'⟩
    · rfl
    · exact ih w'

lemma tooLong?_eq_none_iff (w : Writer) (name value : Bytes) :
    w.tooLong? name value = none ↔
      name.length ≤ limit ∧ value.length ≤ limit ∧ w.count + 1 ≤ limit := by
  unfold tooLong?
  constructor
  · intro h
    split at h
    · exact absurd h (by simp)
    split at h
    · exact absurd h (by simp)
    split at h
    · exact absurd h (by simp)
    omega
  · rintro ⟨hn, hv, hc⟩
    rw [if_neg (by omega), if_neg (by omega), if_neg (by omega)]

/-- A pair that fits is put on a growing medium. -/
lemma element_of_fits {w : Writer} {name value : Bytes} (hm : w.medium.isFixed = false)
    (hn : name.length ≤ limit) (hv : value.length ≤ limit) (hc : w.count + 1 ≤ limit) :
    w.element name value = (.ok (),
      { w with medium := w.medium.grown (pairBytes (name, value)), count := w.count + 1 }) := by
  have hnone := (tooLong?_eq_none_iff w name value).mpr ⟨hn, hv, hc⟩
  simp [element, hnone, Medium.writeAll_of_growing hm, pairBytes]

/-- Pairs that fit are put on a growing medium one behind the other. -/
lemma pairs_of_fits {pairs : List (Bytes × Bytes)} {m : Medium} {written : Bytes}
    {start count : Nat} (hfits : ∀ pair ∈ pairs, pair.1.length ≤ limit ∧ pair.2.length ≤ limit)
    (hc : count + pairs.length ≤ limit) :
    (Writer.mk (m.grown written) start count).pairs pairs = (.ok (),
      ⟨m.grown (written ++ pairs.flatMap pairBytes), start, count + pairs.length⟩) := by
  induction pairs generalizing written count with
  | nil => simp [Writer.pairs]
  | cons pair rest ih =>
    obtain ⟨⟨hn, hv⟩, hrest⟩ := List.forall_mem_cons.mp hfits
    rw [List.length_cons] at hc
    have hcount : count + 1 + rest.length = count + (pair :: rest).length := by
      rw [List.length_cons]
      omega
    rw [Writer.pairs, element_of_fits rfl hn hv (by simp only; omega)]
    simp only [Medium.grown_grown]
    rw [ih hrest (by omega), hcount, List.flatMap_cons, List.append_assoc]

/-! ## Elements -/

/-- No medium holds an element that does not fit. -/
lemma fits_of_element_ok {w w' : Writer} {e : Element}
    (h : w.element (Utf8.encode e.name) e.value = (.ok (), w')) :
    e.Fits ∧ w'.count = w.count + 1 ∧ w'.count ≤ limit := by
  unfold element at h
  split at h
  · exact absurd h (by simp)
  · rename_i hnone
    obtain ⟨hn, hv, hc⟩ := (tooLong?_eq_none_iff w _ _).mp hnone
    split at h
    · simp only [Prod.mk.injEq, true_and] at h
      subst h
      exact ⟨⟨hn, hv⟩, rfl, hc⟩
    · exact absurd h (by simp)

/-- No medium holds elements one of which does not fit. -/
lemma fits_of_elements_ok {es : List Element} {w w' : Writer} (hc : w.count ≤ limit)
    (h : w.elements es = (.ok (), w')) :
    (∀ e ∈ es, e.Fits) ∧ w.count + es.length ≤ limit := by
  induction es generalizing w with
  | nil => exact ⟨by simp, by simpa using hc⟩
  | cons e es ih =>
    rw [elements] at h
    split at h
    · rename_i w₁ hw₁
      obtain ⟨he, hcount, hle⟩ := fits_of_element_ok hw₁
      obtain ⟨hes, hlen⟩ := ih hle h
      refine ⟨?_, by rw [List.length_cons]; omega⟩
      intro x hx
      rcases List.mem_cons.mp hx with rfl | hx
      · exact he
      · exact hes x hx
    · exact absurd h (by simp)

/-! ## Beginning and end of a record -/

lemma begin_of_growing {m : Medium} (hm : m.isFixed = false) :
    Writer.begin m = (.ok (), ⟨m.grown (number 0), m.position, 0⟩) := by
  simp [Writer.begin, Medium.write_of_growing hm, ofMedium]

/-- The number of elements is put in its place in front of what has been written. -/
lemma finish_of_fits {m : Medium} {n : Nat} (hn : n ≤ limit) (written : Bytes) :
    (Writer.mk (m.grown (number 0 ++ written)) m.position n).finish
      = (.ok (), m.grown (number n ++ written)) := by
  rw [Writer.finish, if_neg (Nat.not_lt.mpr hn), Medium.write_of_growing (by simp [Medium.seek])]
  simp only [Medium.grown, Medium.seek]
  rw [Bytes.splice_over_front _ _ _ _ _ (by simp)]
  simp only [List.length_append, length_number]

end Record.Writer

/-! ## Records -/

namespace TestCase

open Record

/-- A test case that fits is put on a growing medium as its record. -/
lemma writeTo_of_fits {t : TestCase} {m : Medium} (hm : m.isFixed = false) (ht : t.Fits) :
    t.writeTo m = (.ok (), m.grown t.bytes) := by
  have hpairs : ∀ pair ∈ t.elements.map Element.pair,
      pair.1.length ≤ limit ∧ pair.2.length ≤ limit := by
    intro pair hpair
    obtain ⟨e, he, rfl⟩ := List.mem_map.mp hpair
    exact ⟨(ht.elements e he).name, (ht.elements e he).value⟩
  have hall : (Writer.mk (m.grown (number 0)) m.position 0).elements t.elements
      = (.ok (), ⟨m.grown (number 0 ++ t.elements.flatMap Element.bytes), m.position, t.size⟩) := by
    have hsize : 0 + (t.elements.map Element.pair).length = t.size := by
      rw [Nat.zero_add, List.length_map, size]
    rw [Writer.elements_eq_pairs, Writer.pairs_of_fits hpairs (hsize ▸ ht.size),
      flatMap_pairBytes, hsize]
  rw [writeTo, Writer.begin_of_growing hm]
  simp only
  rw [hall]
  exact Writer.finish_of_fits ht.size _

/-- No medium holds a test case that does not fit. -/
lemma fits_of_writeTo_ok {t : TestCase} {m m' : Medium} (h : t.writeTo m = (.ok (), m')) :
    t.Fits := by
  unfold writeTo at h
  split at h
  · exact absurd h (by simp)
  · rename_i w hw
    have hzero : w.count = 0 := by
      have hc := congrArg (fun x => x.2.count) hw
      exact hc.symm
    split at h
    · exact absurd h (by simp)
    · rename_i w' hw'
      obtain ⟨hes, hlen⟩ := Writer.fits_of_elements_ok (by omega) hw'
      rw [hzero, Nat.zero_add] at hlen
      exact ⟨hlen, hes⟩

/-- The record of a test case is there exactly if the test case fits. -/
lemma encode_eq_ok_iff {t : TestCase} {b : Bytes} :
    t.encode = .ok b ↔ t.Fits ∧ b = t.bytes := by
  constructor
  · intro h
    unfold encode at h
    split at h
    · rename_i m hm
      have ht := fits_of_writeTo_ok hm
      rw [writeTo_of_fits rfl ht] at hm
      simp only [Prod.mk.injEq, true_and] at hm
      refine ⟨ht, ?_⟩
      rw [← Except.ok.inj h, ← hm]
      simp [Medium.grown, Medium.empty]
    · exact absurd h (by simp)
  · rintro ⟨ht, rfl⟩
    rw [encode, writeTo_of_fits rfl ht]
    simp [Medium.grown, Medium.empty]

end TestCase

end Concolic
