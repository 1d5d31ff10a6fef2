/-
# Records in the middle of a medium

A record need not stand alone on a medium: what holds it may begin with a heading, and other
things may follow.  The writer starts where it finds the position of the medium, and it moves the
position only to put the number of elements in its place.  So a record, and what is written behind
it, come to one splice of the old content (`Medium.grown`), whatever the old content is and
wherever the record starts in it, before the end, at the end or past it.

A pair that is too long for a record is refused before its first byte is written.
-/
import Concolic.Proofs.Record.Writing

namespace Concolic.Record.Writer

variable {w : Writer} {name value : Bytes}

/-- A pair that is too long, or one too many, is refused, and the writer is left as it was. -/
lemma element_of_too_long
    (h : limit < name.length ∨ limit < value.length ∨ limit < w.count + 1) :
    ∃ field length, w.element name value = (.error (.overflow field length), w) := by
  unfold element tooLong?
  rcases Nat.lt_or_ge limit name.length with hname | hname
  · exact ⟨.name, name.length, by rw [if_pos hname]⟩
  rw [if_neg (Nat.not_lt.mpr hname)]
  rcases Nat.lt_or_ge limit value.length with hvalue | hvalue
  · exact ⟨.value, value.length, by rw [if_pos hvalue]⟩
  rw [if_neg (Nat.not_lt.mpr hvalue)]
  have hcount : limit < w.count + 1 := by omega
  exact ⟨.elementCount, w.count + 1, by rw [if_pos hcount]⟩

/-- No other pair is refused as too long, be there room for it or not. -/
lemma too_long_of_element_overflow {field : Field} {length : Nat}
    (h : (w.element name value).1 = .error (.overflow field length)) :
    limit < name.length ∨ limit < value.length ∨ limit < w.count + 1 := by
  by_contra hfits
  have hnone : w.tooLong? name value = none := by
    rw [tooLong?_eq_none_iff]
    omega
  rw [element, hnone] at h
  simp only at h
  split at h
  · exact absurd h (by simp)
  · exact absurd h (by simp)

/-- Beginning, pairs and end of a record come to one string of bytes on a growing medium. -/
lemma record_of_fits {m : Medium} {pairs : List (Bytes × Bytes)} (hm : m.isFixed = false)
    (hfits : ∀ pair ∈ pairs, pair.1.length ≤ limit ∧ pair.2.length ≤ limit)
    (hcount : pairs.length ≤ limit) :
    ∃ w w', Writer.begin m = (.ok (), w) ∧ w.pairs pairs = (.ok (), w') ∧
      w'.count = pairs.length ∧
      w'.finish = (.ok (), m.grown (number pairs.length ++ pairs.flatMap pairBytes)) := by
  have hall : (Writer.mk (m.grown (number 0)) m.position 0).pairs pairs = (.ok (),
      ⟨m.grown (number 0 ++ pairs.flatMap pairBytes), m.position, 0 + pairs.length⟩) :=
    pairs_of_fits hfits (by omega)
  rw [Nat.zero_add] at hall
  exact ⟨_, _, begin_of_growing hm, hall, rfl, finish_of_fits hcount _⟩

/-- **A record is written at any position of any growing medium, and nothing else is touched.**
Let the medium hold any bytes, with its position before, at or past their end.  If a record of
pairs that fit is begun there and finished, and a trailer is written behind it, then there are
the old bytes before the position, with zero bytes for missing ones, the number of pairs, the
pairs in order, each name and value behind its length, the trailer, and the old bytes that lay
behind all this.  A pair that is too long for the record is refused, at any time and on any
medium, and leaves the writer as it was: its medium, with the position, and its count; and no
other pair is refused as too long. -/
theorem record_in_medium :
    (∀ (initial : Bytes) (position : Nat) (pairs : List (Bytes × Bytes)) (trailer : Bytes),
      (∀ pair ∈ pairs, pair.1.length ≤ limit ∧ pair.2.length ≤ limit) → pairs.length ≤ limit →
        let record := number pairs.length ++ pairs.flatMap fun pair =>
          number pair.1.length ++ (pair.1 ++ (number pair.2.length ++ pair.2))
        ∃ w w' m m', Writer.begin ⟨initial, position, false⟩ = (.ok (), w) ∧
          w.pairs pairs = (.ok (), w') ∧ w'.count = pairs.length ∧
          w'.finish = (.ok (), m) ∧ m.position = position + record.length ∧
          m.write trailer = (.ok (), m') ∧
          m'.content = initial.take position
            ++ List.replicate (position - initial.length) 0
            ++ record ++ trailer
            ++ initial.drop (position + record.length + trailer.length)) ∧
    ∀ (w : Writer) (name value : Bytes),
      (limit < name.length ∨ limit < value.length ∨ limit < w.count + 1 →
        ∃ field length, w.element name value = (.error (.overflow field length), w)) ∧
      ∀ field length, (w.element name value).1 = .error (.overflow field length) →
        limit < name.length ∨ limit < value.length ∨ limit < w.count + 1 := by
  refine ⟨?_, ?_⟩
  · intro initial position pairs trailer hfits hcount record
    obtain ⟨w, w', hbegin, hpairs, hw', hfinish⟩ :=
      record_of_fits (m := ⟨initial, position, false⟩) rfl hfits hcount
    refine ⟨w, w', _, _, hbegin, hpairs, hw', hfinish, rfl, Medium.write_of_growing rfl trailer, ?_⟩
    rw [Medium.grown_grown]
    show initial.splice position (record ++ trailer) = _
    rw [Bytes.splice, List.length_append, Nat.add_assoc]
    simp only [List.append_assoc]
  · intro w name value
    exact ⟨element_of_too_long, fun _ _ => too_long_of_element_overflow⟩

/-- A record of one pair that starts past the end of two bytes, with a trailer, and a pair that
would be one too many. -/
theorem record_in_medium_past_end :
    (∃ w w' m m', Writer.begin ⟨[72, 68], 3, false⟩ = (.ok (), w) ∧
      w.pairs [([110], [118])] = (.ok (), w') ∧ w'.finish = (.ok (), m) ∧
      m.write [33] = (.ok (), m') ∧
      m'.content = [72, 68, 0, 1, 0, 0, 0, 1, 0, 0, 0, 110, 1, 0, 0, 0, 118, 33]) ∧
    ∃ field length, (Writer.mk .empty 0 limit).element [110] [118]
      = (.error (.overflow field length), ⟨.empty, 0, limit⟩) := by
  obtain ⟨hrecord, hrefused⟩ := record_in_medium
  refine ⟨?_, ?_⟩
  · obtain ⟨w, w', m, m', hbegin, hpairs, -, hfinish, -, htrailer, hcontent⟩ :=
      hrecord [72, 68] 3 [([110], [118])] [33] (by decide) (by decide)
    refine ⟨w, w', m, m', hbegin, hpairs, hfinish, htrailer, hcontent.trans ?_⟩
    decide +kernel
  · exact (hrefused _ [110] [118]).1 (.inr (.inr (Nat.lt_succ_self limit)))

/-- An empty record in the middle of old content. -/
example : ((TestCase.mk []).writeTo ⟨[1, 2, 3, 4, 5, 6, 7], 2, false⟩).2
    = ⟨[1, 2, 0, 0, 0, 0, 7], 6, false⟩ := by decide +kernel

end Concolic.Record.Writer
