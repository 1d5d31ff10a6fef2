/-
# Records that are cut off or run on

A record is a row of parts: the number of elements, and four parts for each element.  Its reader
goes through the parts in order, and where a part ends is told by what has been read before it.
So there are two ways in which the length of an input can be wrong, and each is told for what it
is:

* an input that ends early ends inside one of the parts, and this part is reported, with the
  length that it should have and the number of its bytes that are there;
* bytes that follow the last part are counted, whatever they look like.

`ReadsAs` says both things about a step of reading and the parts it stands for, the first one by
its field `cut` and the second one by `whole`, where the rest of the input is left as it is.
-/
import Concolic.Proofs.Record.Delivery
import Concolic.Proofs.Record.RoundTrip

namespace Concolic

/-! ## The parts of a record -/

/-- The parts of an element in a record, each with its bytes. -/
def Element.parts (e : Element) : List (Record.Field × Bytes) :=
  [(.nameLength, Record.number (Utf8.encode e.name).length), (.name, Utf8.encode e.name),
    (.valueLength, Record.number e.value.length), (.value, e.value)]

/-- The parts of the record of a test case, each with its bytes. -/
def TestCase.parts (t : TestCase) : List (Record.Field × Bytes) :=
  (.elementCount, Record.number t.size) :: t.elements.flatMap Element.parts

namespace Record

variable {parts parts' before after : List (Field × Bytes)} {field : Field} {part : Bytes}
variable {α β : Type} {a : α} {b : β}

/-- The bytes of parts that follow one another. -/
def partsBytes (parts : List (Field × Bytes)) : Bytes := parts.flatMap Prod.snd

lemma partsBytes_append : partsBytes (parts ++ parts') = partsBytes parts ++ partsBytes parts' :=
  List.flatMap_append

/-- A place in front of the end lies inside a part, or in front of its first byte. -/
lemma exists_part_of_lt {n : Nat} (h : n < (partsBytes parts).length) :
    ∃ before field part after found, parts = before ++ (field, part) :: after ∧
      found < part.length ∧ n = (partsBytes before).length + found ∧
      (partsBytes parts).take n = partsBytes before ++ part.take found := by
  induction parts generalizing n with
  | nil => exact absurd h (Nat.not_lt_zero n)
  | cons first parts ih =>
    obtain ⟨field, part⟩ := first
    have hcons : partsBytes ((field, part) :: parts) = part ++ partsBytes parts := List.flatMap_cons
    rw [hcons, List.length_append] at h
    rw [hcons, List.take_append]
    rcases Nat.lt_or_ge n part.length with hlt | hle
    · refine ⟨[], field, part, parts, n, rfl, hlt, (Nat.zero_add n).symm, ?_⟩
      rw [Nat.sub_eq_zero_of_le (Nat.le_of_lt hlt), List.take_zero, List.append_nil]
      rfl
    · obtain ⟨before, field', part', after, found, rfl, hfound, hn, htake⟩ :=
        ih (n := n - part.length) (by omega)
      have hbefore : partsBytes ((field, part) :: before) = part ++ partsBytes before :=
        List.flatMap_cons
      refine ⟨(field, part) :: before, field', part', after, found, rfl, hfound, ?_, ?_⟩
      · rw [hbefore, List.length_append]
        omega
      · rw [htake, List.take_of_length_le hle, hbefore, List.append_assoc]

/-! ## Steps of reading -/

/-- The step of reading takes these parts for this value, and reports the part in which its input
ends if it ends inside one. -/
structure ReadsAs (x : Reading Bytes α) (parts : List (Field × Bytes)) (a : α) : Prop where
  /-- The parts are read, and what follows them is left. -/
  whole : ∀ rest, x (partsBytes parts ++ rest) = .ok (a, rest)
  /-- An input that ends inside a part is too short by the rest of this part. -/
  cut : ∀ before field part after, parts = before ++ (field, part) :: after →
    ∀ found < part.length,
      x (partsBytes before ++ part.take found) = .error (.truncated field part.length found)

lemma readsAs_pure : ReadsAs (pure a) [] a where
  whole _ := rfl
  cut _ _ _ _ h := absurd h (by simp)

/-- A step that fails keeps the next one from being taken. -/
lemma reading_bind_of_error {x : Reading Bytes α} {f : α → Reading Bytes β} {s : Bytes} {e : Error}
    (h : x s = .error e) : (x >>= f) s = .error e := by
  show (x s >>= fun p => f p.1 p.2) = .error e
  rw [h]
  rfl

lemma reading_bind_of_ok {x : Reading Bytes α} {f : α → Reading Bytes β} {s s' : Bytes}
    (h : x s = .ok (a, s')) : (x >>= f) s = f a s' := by
  show (x s >>= fun p => f p.1 p.2) = f a s'
  rw [h]
  rfl

/-- Two steps in a row take the parts of the first and then those of the second. -/
lemma ReadsAs.bind {x : Reading Bytes α} {f : α → Reading Bytes β} (hx : ReadsAs x parts a)
    (hf : ReadsAs (f a) parts' b) : ReadsAs (x >>= f) (parts ++ parts') b where
  whole rest := by
    rw [partsBytes_append, List.append_assoc, reading_bind_of_ok (hx.whole _), hf.whole]
  cut before field part after h found hfound := by
    rcases List.append_eq_append_iff.mp h with ⟨inside, rfl, hsecond⟩ | ⟨inside, hfirst, hrest⟩
    · -- the first step has all its parts
      rw [partsBytes_append, List.append_assoc, reading_bind_of_ok (hx.whole _)]
      exact hf.cut inside field part after hsecond found hfound
    · rcases inside with _ | ⟨cutPart, inside⟩
      · -- the cut is in the first part of the second step
        obtain rfl : parts = before := by simpa using hfirst
        rw [reading_bind_of_ok (hx.whole _)]
        exact hf.cut [] field part after hrest.symm found hfound
      · obtain ⟨rfl, -⟩ := List.cons.inj hrest
        exact reading_bind_of_error (hx.cut before field part inside hfirst found hfound)

/-- A part of which not all bytes are there is told with the number of those that are. -/
lemma readBytes_of_lt {n : Nat} {s : Bytes} (h : s.length < n) :
    readBytes field n s = .error (.truncated field n s.length) := by
  have hr : readBytes field n s = if (s.take n).length = n then .ok (s.take n, s.drop n)
      else .error (.truncated field n (s.take n).length) := rfl
  rw [hr, List.take_of_length_le (Nat.le_of_lt h), if_neg (Nat.ne_of_lt h)]

lemma readsAs_readBytes (field : Field) (part : Bytes) :
    ReadsAs (readBytes field part.length) [(field, part)] part where
  whole rest := readBytes_eq_ok_iff.mpr ⟨rfl, by simp [partsBytes]⟩
  cut before field' part' after h found hfound := by
    cases before with
    | cons first before => exact absurd (List.cons.inj h).2 (by simp)
    | nil =>
      obtain ⟨rfl, rfl⟩ := Prod.mk.inj (List.cons.inj h).1
      have hlength : (part.take found).length = found :=
        List.length_take_of_le (Nat.le_of_lt hfound)
      have hshort : (part.take found).length < part.length := hlength.symm ▸ hfound
      show readBytes field part.length (part.take found) = _
      rw [readBytes_of_lt hshort, hlength]

lemma readsAs_readNumber (field : Field) {n : Nat} (hn : n ≤ limit) :
    ReadsAs (readNumber field) [(field, number n)] n := by
  have hbytes := readsAs_readBytes field (number n)
  rw [length_number] at hbytes
  rw [← List.append_nil [(field, number n)]]
  refine hbytes.bind ?_
  have hint : Bytes.toInt (number n) = Int.ofNat n := Bytes.toInt_ofNat (Nat.lt_succ_of_le hn)
  rw [hint]
  exact readsAs_pure

lemma readsAs_readName (name : String) :
    ReadsAs (readName (Utf8.encode name).length) [(.name, Utf8.encode name)] name := by
  rw [← List.append_nil [(Field.name, Utf8.encode name)]]
  refine (readsAs_readBytes .name (Utf8.encode name)).bind ?_
  rw [Utf8.decode?_encode]
  exact readsAs_pure

lemma readsAs_readElement {e : Element} (he : e.Fits) : ReadsAs readElement e.parts e :=
  (readsAs_readNumber .nameLength he.name).bind <| (readsAs_readName e.name).bind <|
    (readsAs_readNumber .valueLength he.value).bind <| (readsAs_readBytes .value e.value).bind
    readsAs_pure

lemma readsAs_readElements {es : List Element} (hes : ∀ e ∈ es, e.Fits) :
    ReadsAs (readElements es.length) (es.flatMap Element.parts) es := by
  induction es with
  | nil => exact readsAs_pure
  | cons e es ih =>
    obtain ⟨he, hes⟩ := List.forall_mem_cons.mp hes
    have hrest := (ih hes).bind (f := fun rest => pure (e :: rest)) readsAs_pure
    rw [List.append_nil] at hrest
    exact (readsAs_readElement he).bind hrest

lemma readsAs_readContent {t : TestCase} (ht : t.Fits) :
    ReadsAs readContent t.parts t.elements :=
  (readsAs_readNumber .elementCount ht.size).bind (readsAs_readElements ht.elements)

end Record

namespace TestCase

open Record

lemma partsBytes_parts (t : TestCase) : partsBytes t.parts = t.bytes := by
  have helement : ∀ e : Element, partsBytes e.parts = e.bytes := by
    intro e
    simp [partsBytes, Element.parts, Element.bytes]
  have helements : ∀ es : List Element, partsBytes (es.flatMap Element.parts)
      = es.flatMap Element.bytes := by
    intro es
    induction es with
    | nil => rfl
    | cons e es ih => rw [List.flatMap_cons, partsBytes_append, helement, ih, List.flatMap_cons]
  show number t.size ++ partsBytes (t.elements.flatMap Element.parts) = t.bytes
  rw [helements, bytes]

/-- A record that ends early is cut off in one of its parts. -/
lemma decode_take {t : TestCase} (ht : t.Fits) {n : Nat} (hn : n < t.bytes.length) :
    ∃ before field part after found, t.parts = before ++ (field, part) :: after ∧
      found < part.length ∧ n = (partsBytes before).length + found ∧
      decode (t.bytes.take n) = .error (.truncated field part.length found) := by
  rw [← partsBytes_parts] at hn ⊢
  obtain ⟨before, field, part, after, found, hparts, hfound, hn, htake⟩ := exists_part_of_lt hn
  refine ⟨before, field, part, after, found, hparts, hfound, hn, ?_⟩
  have hcut := (readsAs_readContent ht).cut before field part after hparts found hfound
  rw [htake, decode, readFrom_eq, hcut]

/-- What follows the last element is counted and not read. -/
lemma decode_append {t : TestCase} (ht : t.Fits) {extra : Bytes} (hextra : extra ≠ []) :
    decode (t.bytes ++ extra) = .error (.trailing extra.length) := by
  have hwhole := (readsAs_readContent ht).whole extra
  rw [partsBytes_parts] at hwhole
  rw [decode, readFrom_eq, hwhole]
  show (if extra.isEmpty = true then _ else _) = _
  rw [if_neg (by simpa using hextra)]

/-- **A record whose end is missing and one that something follows are told for what they are.**
Let a test case have a record; it consists of its parts.  Whichever of its bytes are taken away
from its end, what is left ends inside a part, and decoding it reports this part as truncated,
with its length and with the number of its bytes that are left.  Whatever bytes follow the record,
decoding reports how many they are.  So no record is the beginning of another one. -/
theorem decode_damaged (t : TestCase) (b : Bytes) (h : t.encode = .ok b) :
    b = partsBytes t.parts ∧
      (∀ n < b.length, ∃ before field part after found,
        t.parts = before ++ (field, part) :: after ∧
          n = (partsBytes before).length + found ∧ found < part.length ∧
          decode (b.take n) = .error (.truncated field part.length found)) ∧
      (∀ extra : Bytes, extra ≠ [] → decode (b ++ extra) = .error (.trailing extra.length)) ∧
      ∀ (t' : TestCase) (b' : Bytes), t'.encode = .ok b' → b <+: b' → b' = b ∧ t' = t := by
  obtain ⟨ht, rfl⟩ := encode_eq_ok_iff.mp h
  refine ⟨(partsBytes_parts t).symm, ?_, fun extra hextra => decode_append ht hextra, ?_⟩
  · intro n hn
    obtain ⟨before, field, part, after, found, hparts, hfound, hn, hcut⟩ := decode_take ht hn
    exact ⟨before, field, part, after, found, hparts, hn, hfound, hcut⟩
  · rintro t' _ h' ⟨extra, rfl⟩
    have hdecode' : decode (t.bytes ++ extra) = .ok t' := (decode_of_encode t').2 _ h'
    obtain rfl : extra = [] := by
      by_contra hextra
      rw [decode_append ht hextra] at hdecode'
      exact absurd hdecode' (by simp)
    have hdecode := (decode_of_encode t).2 _ h
    rw [List.append_nil] at hdecode' ⊢
    exact ⟨rfl, Except.ok.inj (hdecode'.symm.trans hdecode)⟩

/-- A record of one element that is cut off inside its name, and one that is followed by what
looks like another element. -/
theorem decode_damaged_one_element :
    let t : TestCase := ⟨[⟨"abc", [7]⟩]⟩
    let b : Bytes := [1, 0, 0, 0, 3, 0, 0, 0, 97, 98, 99, 1, 0, 0, 0, 7]
    t.encode = .ok b ∧ decode (b.take 10) = .error (.truncated .name 3 2) ∧
      (∃ before part after, t.parts = before ++ (.name, part) :: after ∧
        10 = (partsBytes before).length + 2 ∧ part.length = 3) ∧
      decode (b ++ [0, 0, 0, 0, 0, 0, 0, 0]) = .error (.trailing 8) := by
  intro t b
  have h : t.encode = .ok b := by decide +kernel
  have hname : decode (b.take 10) = .error (.truncated .name 3 2) := by decide +kernel
  obtain ⟨-, hcut, hextra, -⟩ := decode_damaged t b h
  obtain ⟨before, field, part, after, found, hparts, hn, -, hdecode⟩ := hcut 10 (by decide)
  obtain ⟨rfl, hlength, rfl⟩ : .name = field ∧ 3 = part.length ∧ 2 = found := by
    simpa using hname.symm.trans hdecode
  exact ⟨h, hname, ⟨before, part, after, hparts, hn, hlength.symm⟩, hextra _ (by decide)⟩

end TestCase

end Concolic
