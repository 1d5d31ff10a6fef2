/-
# What a record is read from

For every step of reading, the byte strings on which it succeeds: they begin with the bytes
that the step stands for, and the rest is left for the next step.  Each statement is an
equivalence, so it says both that what has been written is read again and that nothing else
is read.
-/
import Concolic.Record.Reader
import Concolic.Proofs.Bytes.LittleEndian
import Concolic.Proofs.Record.Writing
import Concolic.Proofs.Text.Utf8

namespace Concolic.Record

/-! ## Steps in a row -/

lemma reading_pure_eq_ok_iff {α : Type} {a a' : α} {s s' : Bytes} :
    (pure a : Reading Bytes α) s = .ok (a', s') ↔ a = a' ∧ s = s' := by
  constructor
  · intro h
    have h' : (a, s) = (a', s') := Except.ok.inj h
    simpa using h'
  · rintro ⟨rfl, rfl⟩
    rfl

lemma reading_throw_ne_ok {α : Type} {e : Error} {s : Bytes} {p : α × Bytes} :
    (throw e : Reading Bytes α) s ≠ .ok p := by
  intro h
  exact absurd (show (Except.error e : Except Error (α × Bytes)) = .ok p from h) (by simp)

lemma reading_bind_eq_ok_iff {α β : Type} {x : Reading Bytes α} {f : α → Reading Bytes β}
    {s s' : Bytes} {b : β} :
    (x >>= f) s = .ok (b, s') ↔ ∃ a s₁, x s = .ok (a, s₁) ∧ f a s₁ = .ok (b, s') := by
  show (x s >>= fun p => f p.1 p.2) = .ok (b, s') ↔ _
  rcases hx : x s with e | ⟨a, s₁⟩
  · constructor
    · intro h
      exact absurd h (by simp [bind, Except.bind])
    · rintro ⟨a, s₁, h, -⟩
      exact absurd h (by simp)
  · constructor
    · intro h
      exact ⟨a, s₁, rfl, h⟩
    · rintro ⟨a', s₁', h, hf⟩
      obtain ⟨rfl, rfl⟩ := Prod.mk.inj (Except.ok.inj h)
      exact hf

/-! ## The parts of a record -/

lemma readBytes_eq_ok_iff {field : Field} {n : Nat} {s s' x : Bytes} :
    readBytes field n s = .ok (x, s') ↔ x.length = n ∧ s = x ++ s' := by
  have hr : readBytes field n s = if (s.take n).length = n then .ok (s.take n, s.drop n)
      else .error (.truncated field n (s.take n).length) := rfl
  rw [hr]
  constructor
  · intro h
    split at h
    · rename_i hn
      obtain ⟨rfl, rfl⟩ := Prod.mk.inj (Except.ok.inj h)
      exact ⟨hn, (List.take_append_drop n s).symm⟩
    · exact absurd h (by simp)
  · rintro ⟨rfl, rfl⟩
    rw [List.take_left, List.drop_left, if_pos rfl]

/-- Four bytes are read as a number exactly if they are the ones it is written as. -/
lemma readNumber_eq_ok_iff {field : Field} {s s' : Bytes} {n : Nat} :
    readNumber field s = .ok (n, s') ↔ n ≤ limit ∧ s = number n ++ s' := by
  unfold readNumber
  rw [reading_bind_eq_ok_iff]
  constructor
  · rintro ⟨b, s₁, hb, hn⟩
    obtain ⟨hlen, rfl⟩ := readBytes_eq_ok_iff.mp hb
    rcases hk : Bytes.toInt b with k | k
    · rw [hk] at hn
      obtain ⟨rfl, rfl⟩ := reading_pure_eq_ok_iff.mp hn
      obtain ⟨hval, hlt⟩ := (Bytes.toInt_eq_iff hlen k).mp hk
      have hnum : number k = b := by
        rw [number, ← hval, ← hlen, Bytes.ofNat_toNat]
      exact ⟨Nat.le_of_lt_succ hlt, by rw [hnum]⟩
    · rw [hk] at hn
      exact absurd hn reading_throw_ne_ok
  · rintro ⟨hn, rfl⟩
    refine ⟨number n, s', readBytes_eq_ok_iff.mpr ⟨length_number n, rfl⟩, ?_⟩
    have hint : Bytes.toInt (number n) = Int.ofNat n := Bytes.toInt_ofNat (Nat.lt_succ_of_le hn)
    rw [hint]
    exact reading_pure_eq_ok_iff.mpr ⟨rfl, rfl⟩

lemma readName_eq_ok_iff {n : Nat} {s s' : Bytes} {name : String} :
    readName n s = .ok (name, s') ↔
      (Utf8.encode name).length = n ∧ s = Utf8.encode name ++ s' := by
  unfold readName
  rw [reading_bind_eq_ok_iff]
  constructor
  · rintro ⟨b, s₁, hb, hname⟩
    obtain ⟨hlen, rfl⟩ := readBytes_eq_ok_iff.mp hb
    rcases htext : Utf8.decode? b with _ | text
    · rw [htext] at hname
      rcases hfault : Utf8.firstFault b with _ | fault
      all_goals
        rw [hfault] at hname
        exact absurd hname reading_throw_ne_ok
    · rw [htext] at hname
      obtain ⟨rfl, rfl⟩ := reading_pure_eq_ok_iff.mp hname
      rw [Utf8.encode_of_decode? htext]
      exact ⟨hlen, rfl⟩
  · rintro ⟨hlen, rfl⟩
    refine ⟨Utf8.encode name, s', readBytes_eq_ok_iff.mpr ⟨hlen, rfl⟩, ?_⟩
    rw [Utf8.decode?_encode]
    exact reading_pure_eq_ok_iff.mpr ⟨rfl, rfl⟩

/-! ## Elements and records -/

lemma readElement_eq_ok_iff {s s' : Bytes} {e : Element} :
    readElement s = .ok (e, s') ↔ e.Fits ∧ s = e.bytes ++ s' := by
  unfold readElement
  simp only [reading_bind_eq_ok_iff, readNumber_eq_ok_iff, readName_eq_ok_iff,
    readBytes_eq_ok_iff, reading_pure_eq_ok_iff]
  constructor
  · rintro ⟨_, s₁, ⟨hn, rfl⟩, name, s₂, ⟨rfl, rfl⟩, _, s₃, ⟨hv, rfl⟩, value, s₄, ⟨rfl, rfl⟩,
      rfl, rfl⟩
    exact ⟨⟨hn, hv⟩, by simp [Element.bytes]⟩
  · rintro ⟨⟨hn, hv⟩, rfl⟩
    refine ⟨_, _, ⟨hn, ?_⟩, e.name, _, ⟨rfl, rfl⟩, _, _, ⟨hv, rfl⟩, e.value, s', ⟨rfl, rfl⟩,
      rfl, rfl⟩
    simp [Element.bytes]

lemma readElements_eq_ok_iff {count : Nat} {s s' : Bytes} {es : List Element} :
    readElements count s = .ok (es, s') ↔
      es.length = count ∧ (∀ e ∈ es, e.Fits) ∧ s = es.flatMap Element.bytes ++ s' := by
  induction count generalizing s s' es with
  | zero =>
    rw [readElements, reading_pure_eq_ok_iff]
    constructor
    · rintro ⟨rfl, rfl⟩
      simp
    · rintro ⟨hlen, -, hs⟩
      obtain rfl := List.length_eq_zero_iff.mp hlen
      exact ⟨rfl, by simpa using hs⟩
  | succ count ih =>
    rw [readElements]
    simp only [reading_bind_eq_ok_iff, readElement_eq_ok_iff, ih, reading_pure_eq_ok_iff]
    constructor
    · rintro ⟨e, s₁, ⟨he, rfl⟩, rest, s₂, ⟨rfl, hrest, rfl⟩, rfl, rfl⟩
      refine ⟨rfl, ?_, by simp⟩
      intro x hx
      rcases List.mem_cons.mp hx with rfl | hx
      · exact he
      · exact hrest x hx
    · rintro ⟨hlen, hes, rfl⟩
      cases es with
      | nil => exact absurd hlen (by simp)
      | cons e rest =>
        refine ⟨e, _, ⟨hes e List.mem_cons_self, ?_⟩, rest, s', ⟨by simpa using hlen,
          fun x hx => hes x (List.mem_cons_of_mem e hx), rfl⟩, rfl, rfl⟩
        simp

lemma readEnd_eq_ok_iff {s s' : Bytes} {u : Unit} :
    readEnd s = .ok (u, s') ↔ s = [] ∧ s' = [] := by
  have hr : readEnd s = if s.isEmpty then .ok ((), []) else .error (.trailing s.length) := rfl
  rw [hr]
  cases s with
  | nil => simp [eq_comm]
  | cons b s => simp

lemma readTestCase_eq_ok_iff {s s' : Bytes} {t : TestCase} :
    readTestCase s = .ok (t, s') ↔ t.Fits ∧ s = t.bytes ∧ s' = [] := by
  unfold readTestCase
  simp only [reading_bind_eq_ok_iff, readNumber_eq_ok_iff, readElements_eq_ok_iff,
    readEnd_eq_ok_iff, reading_pure_eq_ok_iff]
  constructor
  · rintro ⟨_, s₁, ⟨hc, rfl⟩, es, s₂, ⟨rfl, hes, rfl⟩, -, s₃, ⟨rfl, rfl⟩, rfl, rfl⟩
    exact ⟨⟨hc, hes⟩, by simp [TestCase.bytes, TestCase.size], rfl⟩
  · rintro ⟨⟨hc, hes⟩, rfl, rfl⟩
    refine ⟨t.size, _, ⟨hc, rfl⟩, t.elements, [], ⟨rfl, hes, by simp⟩, (), [], ⟨rfl, rfl⟩,
      rfl, rfl⟩

end Concolic.Record

namespace Concolic.TestCase

/-- A byte string is decoded exactly if it is the record of a test case that fits. -/
lemma decode_eq_ok_iff {b : Bytes} {t : TestCase} :
    decode b = .ok t ↔ t.Fits ∧ b = t.bytes := by
  have hr : decode b = (Record.readTestCase b).map Prod.fst := rfl
  rw [hr]
  constructor
  · intro h
    rcases hb : Record.readTestCase b with e | ⟨t', s'⟩
    · rw [hb] at h
      exact absurd h (by simp [Except.map])
    · rw [hb] at h
      obtain rfl : t' = t := Except.ok.inj h
      obtain ⟨ht, hbytes, -⟩ := Record.readTestCase_eq_ok_iff.mp hb
      exact ⟨ht, hbytes⟩
  · rintro ⟨ht, rfl⟩
    have hread : Record.readTestCase t.bytes = .ok (t, []) :=
      Record.readTestCase_eq_ok_iff.mpr ⟨ht, rfl, rfl⟩
    rw [hread]
    rfl

end Concolic.TestCase
