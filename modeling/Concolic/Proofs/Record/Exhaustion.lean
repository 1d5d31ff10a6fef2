/-
# Records on a medium that is too small

A medium of fixed size takes what fits and then fails, so a pair for which there is no room is
left cut, and a caller may go on with further pairs.  Whatever the pairs and wherever the end of
the medium cuts them, the bytes on the medium are those that a medium with more room would begin
with (`Medium.filled`): a cut pair fills the medium up to its end, and every pair asks for room,
since its lengths do.  So no pair is written behind a cut one, and only the pairs in front of it
are counted.
-/
import Concolic.Proofs.Record.Interruption

namespace Concolic

/-! ## Media of fixed size -/

namespace Medium

variable {m : Medium} {bytes first second : Bytes}

/-- The number of bytes that fit between the position and the end. -/
def room (m : Medium) : Nat := m.content.length - m.position

/-- A medium with as many bytes written at its position as there is room for. -/
def filled (m : Medium) (bytes : Bytes) : Medium where
  content := m.content.splice m.position (bytes.take m.room)
  position := m.position + (bytes.take m.room).length
  isFixed := m.isFixed

lemma length_filled (hm : m.IsInside) (bytes : Bytes) :
    (m.filled bytes).content.length = m.content.length := by
  have hle : m.position ≤ m.content.length := hm
  simp only [filled, room, Bytes.splice, List.length_append, List.length_take,
    List.length_replicate, List.length_drop]
  omega

lemma content_filled (hm : m.IsInside) (bytes : Bytes) :
    (m.filled bytes).content = m.content.take m.position
      ++ (bytes.take m.room ++ m.content.drop (m.position + (bytes.take m.room).length)) := by
  have hzero : m.position - m.content.length = 0 := Nat.sub_eq_zero_of_le hm
  simp only [filled, Bytes.splice, hzero, List.replicate_zero, List.append_nil, List.append_assoc]

/-- What lies in front of the position stays. -/
lemma take_content_filled (hm : m.IsInside) (bytes : Bytes) :
    (m.filled bytes).content.take m.position = m.content.take m.position := by
  have hlength : (m.content.take m.position).length = m.position := List.length_take_of_le hm
  rw [content_filled hm, List.take_left' hlength]

/-- A first part for which there is room is taken as a whole. -/
lemma take_room_append (hroom : first.length ≤ m.room) (second : Bytes) :
    (first ++ second).take m.room = first ++ second.take (m.room - first.length) := by
  rw [List.take_append, List.take_of_length_le hroom]

/-- A first part for which there is room is on the medium as a whole. -/
lemma take_drop_content_filled (hm : m.IsInside) (first second : Bytes)
    (hroom : first.length ≤ m.room) :
    ((m.filled (first ++ second)).content.drop m.position).take first.length = first := by
  have hlength : (m.content.take m.position).length = m.position := List.length_take_of_le hm
  rw [content_filled hm, List.drop_left' hlength, take_room_append hroom, List.append_assoc,
    List.take_left]

lemma room_filled (hm : m.IsInside) (bytes : Bytes) :
    (m.filled bytes).room = m.room - bytes.length := by
  rw [room, length_filled hm]
  simp only [filled, room, List.length_take]
  omega

lemma isInside_filled (hm : m.IsInside) (bytes : Bytes) : (m.filled bytes).IsInside := by
  have hle : m.position ≤ m.content.length := hm
  rw [IsInside, length_filled hm]
  simp only [filled, room, List.length_take]
  omega

/-- Strings that are written one after the other fill a medium like the string that they make
up. -/
lemma filled_filled (hm : m.IsInside) (first second : Bytes) :
    (m.filled first).filled second = m.filled (first ++ second) := by
  have htake : (first ++ second).take m.room
      = first.take m.room ++ second.take (m.room - first.length) := List.take_append
  rw [filled, room_filled hm]
  simp only [filled, htake, Bytes.splice_splice, List.length_append, Nat.add_assoc]

lemma write_eq_filled (hfixed : m.isFixed = true) (hm : m.IsInside) (bytes : Bytes) :
    m.write bytes
      = (if bytes.length ≤ m.room then .ok () else .error .bufferFull, m.filled bytes) := by
  have hlength : (bytes.take m.room).length = bytes.length ↔ bytes.length ≤ m.room := by
    rw [List.length_take]
    omega
  rw [write_of_fixed hfixed hm, ← room]
  simp only [hlength, filled]

/-- Back at the position, a first part is written over by another one of the same length. -/
lemma write_over_front (hfixed : m.isFixed = true) (hm : m.IsInside) (first second rest : Bytes)
    (hlength : first.length = second.length) (hroom : second.length ≤ m.room) :
    ((m.filled (first ++ rest)).seek m.position).write second
      = (.ok (), { m.filled (second ++ rest) with position := m.position + second.length }) := by
  have hback : ((m.filled (first ++ rest)).seek m.position).room = m.room := by
    simp only [room, seek, length_filled hm]
  have hfixed' : ((m.filled (first ++ rest)).seek m.position).isFixed = true := hfixed
  have hinside : ((m.filled (first ++ rest)).seek m.position).IsInside := by
    simp only [IsInside, seek, length_filled hm]
    exact hm
  have hover : (m.filled (first ++ rest)).content.splice m.position second
      = (m.filled (second ++ rest)).content := by
    simp only [filled]
    rw [take_room_append (hlength ▸ hroom), take_room_append hroom, hlength,
      Bytes.splice_over_front _ _ _ _ _ hlength]
  rw [write_eq_filled hfixed' hinside, hback, if_pos hroom, filled, hback,
    List.take_of_length_le hroom]
  simp only [seek, hover]
  rfl

/-- Strings are written one after the other like the string that they make up. -/
lemma writeAll_eq_filled (hfixed : m.isFixed = true) (hm : m.IsInside) (pieces : List Bytes) :
    m.writeAll pieces
      = (if pieces.flatten.length ≤ m.room then .ok () else .error .bufferFull,
        m.filled pieces.flatten) := by
  rw [writeAll_eq_carryOut hm, ← write_eq_carryOut (.inl hm), write_eq_filled hfixed hm]

end Medium

namespace Record.Writer

open Medium

/-! ## Writing on after a failure -/

/-- Tries to write every pair, whether or not those before it could be written. -/
def attempts (w : Writer) : List (Bytes × Bytes) → List (Except Error Unit) × Writer
  | [] => ([], w)
  | pair :: rest =>
    let (result, w') := w.element pair.1 pair.2
    let (results, w'') := w'.attempts rest
    (result :: results, w'')

variable {m : Medium} {written : Bytes} {start count : Nat} {pairs : List (Bytes × Bytes)}

/-- A pair that a record can hold is counted if there is room for it, and left cut otherwise. -/
lemma element_of_fixed {w : Writer} {pair : Bytes × Bytes} (hfixed : w.medium.isFixed = true)
    (hm : w.medium.IsInside) (hpair : pair.1.length ≤ limit ∧ pair.2.length ≤ limit)
    (hc : w.count + 1 ≤ limit) :
    w.element pair.1 pair.2 =
      if (pairBytes pair).length ≤ w.medium.room then
        (.ok (), { w with medium := w.medium.filled (pairBytes pair), count := w.count + 1 })
      else (.error (.stream .bufferFull),
        { w with medium := w.medium.filled (pairBytes pair) }) := by
  have hnone := (tooLong?_eq_none_iff w _ _).mpr ⟨hpair.1, hpair.2, hc⟩
  have hpieces : [number pair.1.length, pair.1, number pair.2.length, pair.2].flatten
      = pairBytes pair := by simp [pairBytes]
  have hwrite := writeAll_eq_filled hfixed hm
    [number pair.1.length, pair.1, number pair.2.length, pair.2]
  rw [hpieces] at hwrite
  by_cases hroom : (pairBytes pair).length ≤ w.medium.room
  · rw [if_pos hroom] at hwrite ⊢
    simp only [element, hnone, hwrite]
  · rw [if_neg hroom] at hwrite ⊢
    simp only [element, hnone, hwrite]

/-- Once there is no room for what has been written, no pair is written any more. -/
lemma attempts_of_full (hfixed : m.isFixed = true) (hm : m.IsInside)
    (hfits : ∀ pair ∈ pairs, pair.1.length ≤ limit ∧ pair.2.length ≤ limit)
    (hc : count + 1 ≤ limit) (hfull : m.room < written.length) :
    (Writer.mk (m.filled written) start count).attempts pairs =
      (List.replicate pairs.length (.error (.stream .bufferFull)),
        ⟨m.filled (written ++ pairs.flatMap pairBytes), start, count⟩) := by
  induction pairs generalizing written with
  | nil => simp [attempts]
  | cons pair rest ih =>
    obtain ⟨hpair, hrest⟩ := List.forall_mem_cons.mp hfits
    -- even the empty pair asks for room, as it has lengths
    have hno : ¬ (pairBytes pair).length ≤ (m.filled written).room := by
      rw [room_filled hm]
      simp only [pairBytes, List.length_append, length_number]
      omega
    have helement : (Writer.mk (m.filled written) start count).element pair.1 pair.2
        = (.error (.stream .bufferFull), ⟨m.filled (written ++ pairBytes pair), start, count⟩) := by
      rw [element_of_fixed hfixed (isInside_filled hm written) hpair hc, if_neg hno]
      simp only [filled_filled hm]
    have hfull' : m.room < (written ++ pairBytes pair).length := by
      rw [List.length_append]
      omega
    rw [attempts, helement]
    simp only
    rw [ih hrest hfull', List.flatMap_cons, List.append_assoc]
    rfl

/-- The pairs that are written are the longest list of first pairs for which there is room, and
they are counted. -/
lemma attempts_of_fixed (hfixed : m.isFixed = true) (hm : m.IsInside) (written : Bytes)
    (start count : Nat) (hfits : ∀ pair ∈ pairs, pair.1.length ≤ limit ∧ pair.2.length ≤ limit)
    (hc : count + pairs.length ≤ limit) (hroom : written.length ≤ m.room) :
    ∃ k ≤ pairs.length,
      (∀ j ≤ pairs.length,
        (written ++ (pairs.take j).flatMap pairBytes).length ≤ m.room ↔ j ≤ k) ∧
      (Writer.mk (m.filled written) start count).attempts pairs =
        (List.replicate k (.ok ())
          ++ List.replicate (pairs.length - k) (.error (.stream .bufferFull)),
          ⟨m.filled (written ++ pairs.flatMap pairBytes), start, count + k⟩) := by
  induction pairs generalizing written count with
  | nil =>
    refine ⟨0, Nat.le_refl 0, fun j hj => ?_, by simp [attempts]⟩
    obtain rfl := Nat.le_zero.mp hj
    simpa using hroom
  | cons pair rest ih =>
    obtain ⟨hpair, hrest⟩ := List.forall_mem_cons.mp hfits
    rw [List.length_cons] at hc
    have helement := element_of_fixed (w := ⟨m.filled written, start, count⟩) hfixed
      (isInside_filled hm written) hpair (by simp only; omega)
    simp only [room_filled hm, filled_filled hm] at helement
    have hjoin : ∀ j, written ++ ((pair :: rest).take (j + 1)).flatMap pairBytes
        = (written ++ pairBytes pair) ++ (rest.take j).flatMap pairBytes := by
      intro j
      rw [List.take_succ_cons, List.flatMap_cons, List.append_assoc]
    by_cases hfit : (written ++ pairBytes pair).length ≤ m.room
    · -- there is room for the pair, and the others are tried behind it
      obtain ⟨k, hk, hlongest, hattempts⟩ := ih _ (count + 1) hrest (by omega) hfit
      refine ⟨k + 1, Nat.succ_le_succ hk, fun j hj => ?_, ?_⟩
      · rcases j with _ | j
        · simpa using hroom
        · rw [hjoin, hlongest j (Nat.le_of_succ_le_succ hj), Nat.add_le_add_iff_right]
      · have hlength : (pairBytes pair).length ≤ m.room - written.length := by
          rw [List.length_append] at hfit
          omega
        rw [if_pos hlength] at helement
        rw [attempts, helement]
        simp only
        rw [hattempts, List.flatMap_cons, List.append_assoc, List.length_cons,
          Nat.add_sub_add_right, Nat.add_assoc, Nat.add_comm 1 k]
        rfl
    · -- the pair is cut, and nothing is written behind it
      have hfull : m.room < (written ++ pairBytes pair).length := Nat.lt_of_not_le hfit
      refine ⟨0, Nat.zero_le _, fun j hj => ?_, ?_⟩
      · rcases j with _ | j
        · simpa using hroom
        · rw [hjoin, List.length_append]
          omega
      · have hlength : ¬ (pairBytes pair).length ≤ m.room - written.length := by
          rw [List.length_append] at hfull
          omega
        rw [if_neg hlength] at helement
        rw [attempts, helement]
        simp only
        rw [attempts_of_full hfixed hm hrest (by omega) hfull, List.flatMap_cons,
          List.append_assoc]
        rfl

/-! ## Beginning and end of the record -/

/-- A record is begun exactly if there is room for the number of elements. -/
lemma begin_of_fixed {w : Writer} (hfixed : m.isFixed = true) :
    Writer.begin m = (.ok (), w) ↔
      m.position + 4 ≤ m.content.length ∧ w = ⟨m.filled (number 0), m.position, 0⟩ := by
  rcases Nat.lt_or_ge m.content.length m.position with hlt | hm
  · -- behind the end not even the first byte is written
    have hzero : m.content.length - m.position = 0 := by omega
    have hwrite : (m.write (number 0)).1 = .error .bufferFull := by
      simp [write, hfixed, hzero]
    constructor
    · intro h
      rw [Writer.begin] at h
      simp only [hwrite] at h
      exact absurd (congrArg Prod.fst h) (by simp [ofMedium])
    · rintro ⟨hle, -⟩
      omega
  · have hle : m.position + 4 ≤ m.content.length ↔ 4 ≤ m.room := by
      rw [room]
      omega
    rw [Writer.begin, write_eq_filled hfixed hm, length_number, hle]
    by_cases hroom : 4 ≤ m.room
    · rw [if_pos hroom]
      simpa [ofMedium, hroom] using eq_comm
    · rw [if_neg hroom]
      simp [ofMedium, hroom]

/-- The number of elements is put in its place, be there room for all that has been tried or
not. -/
lemma finish_of_fixed {n : Nat} (hfixed : m.isFixed = true) (hroom : 4 ≤ m.room) (hn : n ≤ limit)
    (written : Bytes) :
    (Writer.mk (m.filled (number 0 ++ written)) m.position n).finish
      = (.ok (), m.filled (number n ++ written)) := by
  have hm : m.IsInside := by
    unfold room at hroom
    unfold IsInside
    omega
  have hlength : ∀ n, ((number n ++ written).take m.room).length
      = ((number 0 ++ written).take m.room).length := by
    simp only [List.length_take, List.length_append, length_number, implies_true]
  have hwrite := write_over_front hfixed hm (number 0) (number n) written (by simp)
    (by simpa using hroom)
  rw [finish, if_neg (Nat.not_lt.mpr hn)]
  simp only [hwrite]
  simp only [seek, filled, hlength n]

/-! ## The record -/

/-- The bytes of pairs whose names are texts are a record, and it is read as these pairs. -/
lemma decode_of_named (hfits : ∀ pair ∈ pairs, pair.1.length ≤ limit ∧ pair.2.length ≤ limit)
    (hcount : pairs.length ≤ limit)
    (hnamed : ∀ pair ∈ pairs, ∃ name, Utf8.decode? pair.1 = some name) :
    ∃ t : TestCase, t.elements.map Element.pair = pairs ∧
      TestCase.decode (number pairs.length ++ pairs.flatMap pairBytes) = .ok t := by
  obtain ⟨es, hes⟩ : ∃ es : List Element, es.map Element.pair = pairs := by
    clear hfits hcount
    induction pairs with
    | nil => exact ⟨[], rfl⟩
    | cons pair rest ih =>
      obtain ⟨⟨name, hname⟩, hrest⟩ := List.forall_mem_cons.mp hnamed
      obtain ⟨es, hes⟩ := ih hrest
      refine ⟨⟨name, pair.2⟩ :: es, ?_⟩
      rw [List.map_cons, hes, Element.pair, Utf8.encode_of_decode? hname]
  subst hes
  rw [List.length_map] at hcount
  refine ⟨⟨es⟩, rfl, TestCase.decode_eq_ok_iff.mpr ⟨⟨hcount, fun e he => ?_⟩, ?_⟩⟩
  · obtain ⟨hname, hvalue⟩ := hfits e.pair (List.mem_map_of_mem he)
    exact ⟨hname, hvalue⟩
  · rw [List.length_map, flatMap_pairBytes]
    rfl

/-- **Running out of room leaves the elements that have been written.**  Let a record be begun on
a medium of fixed size, at any position of it, and let all pairs of a list be tried, also when one
has failed.  Those that are written are the longest list of first pairs whose record ends before
the medium does; each one after them fails for want of room.  They are counted, and the record
can be finished.  Then the medium is as long as before, the bytes in front of the record are the
old ones, and from its start on there is the record of the pairs that were written, which is read
as these pairs if their names are texts. -/
theorem attempts_keep_first_pairs (content : Bytes) (start : Nat) (pairs : List (Bytes × Bytes))
    (hfits : ∀ pair ∈ pairs, pair.1.length ≤ limit ∧ pair.2.length ≤ limit)
    (hcount : pairs.length ≤ limit) (w : Writer)
    (hbegin : Writer.begin ⟨content, start, true⟩ = (.ok (), w)) :
    ∃ k ≤ pairs.length,
      (∀ j ≤ pairs.length,
        start + (number j ++ (pairs.take j).flatMap pairBytes).length ≤ content.length ↔ j ≤ k) ∧
      (w.attempts pairs).1 = List.replicate k (.ok ())
        ++ List.replicate (pairs.length - k) (.error (.stream .bufferFull)) ∧
      (w.attempts pairs).2.count = k ∧
      ∃ m record, (w.attempts pairs).2.finish = (.ok (), m) ∧
        record = number k ++ (pairs.take k).flatMap pairBytes ∧
        m.content.length = content.length ∧ m.content.take start = content.take start ∧
        (m.content.drop start).take record.length = record ∧
        ((∀ pair ∈ pairs.take k, ∃ name, Utf8.decode? pair.1 = some name) →
          ∃ t : TestCase, t.elements.map Element.pair = pairs.take k ∧
            TestCase.decode ((m.content.drop start).take record.length) = .ok t) := by
  obtain ⟨hroom, rfl⟩ := (begin_of_fixed rfl).mp hbegin
  simp only at hroom
  have hm : (Medium.mk content start true).IsInside := by
    rw [IsInside]
    simp only
    omega
  have hnumber : 4 ≤ (Medium.mk content start true).room := by
    simp only [room]
    omega
  obtain ⟨k, hk, hlongest, hattempts⟩ := attempts_of_fixed rfl hm (number 0) start 0 hfits
    (by omega) (by simpa using hnumber)
  simp only
  rw [hattempts, Nat.zero_add]
  refine ⟨k, hk, fun j hj => ?_, rfl, rfl, _, _,
    finish_of_fixed rfl hnumber (Nat.le_trans hk hcount) _, rfl, length_filled hm _, ?_, ?_⟩
  · rw [← hlongest j hj]
    simp only [List.length_append, length_number, room]
    omega
  · exact take_content_filled hm _
  · have hfit := (hlongest k hk).mpr (Nat.le_refl k)
    -- the record of the first pairs is the beginning of that of all pairs
    have hrecord : number k ++ pairs.flatMap pairBytes
        = (number k ++ (pairs.take k).flatMap pairBytes) ++ (pairs.drop k).flatMap pairBytes := by
      rw [List.append_assoc, ← List.flatMap_append, List.take_append_drop]
    have hkept := take_drop_content_filled hm (number k ++ (pairs.take k).flatMap pairBytes)
      ((pairs.drop k).flatMap pairBytes) (by simpa using hfit)
    rw [← hrecord] at hkept
    refine ⟨hkept, fun hnamed => ?_⟩
    rw [hkept]
    have hlength : (pairs.take k).length = k := List.length_take_of_le hk
    have hfirst : ∀ pair ∈ pairs.take k, pair.1.length ≤ limit ∧ pair.2.length ≤ limit :=
      fun pair hpair => hfits pair (List.mem_of_mem_take hpair)
    have hdecode := decode_of_named hfirst (by omega) hnamed
    rwa [hlength] at hdecode

/-- There is room for the first pair and not for the second.  The third, which is empty, would
have fitted behind the first, but the bytes of the second are there. -/
theorem attempts_keep_first_pairs_cut :
    let content : Bytes := 255 :: List.replicate 26 0
    let pairs : List (Bytes × Bytes) := [([97], [1, 2]), ([98], [1, 2, 3, 4, 5]), ([], [])]
    ∃ w m, Writer.begin ⟨content, 1, true⟩ = (.ok (), w) ∧
      (w.attempts pairs).1
        = [.ok (), .error (.stream .bufferFull), .error (.stream .bufferFull)] ∧
      (w.attempts pairs).2.finish = (.ok (), m) ∧ m.content.take 1 = [255] ∧
      ∃ t : TestCase, t.elements.map Element.pair = [([97], [1, 2])] ∧
        TestCase.decode ((m.content.drop 1).take 15) = .ok t := by
  intro content pairs
  have hbegin := (begin_of_fixed (m := ⟨content, 1, true⟩) rfl).mpr ⟨by decide, rfl⟩
  obtain ⟨k, hk, hlongest, hresults, -, m, record, hfinish, hrecord, -, hfront, -, hdecode⟩ :=
    attempts_keep_first_pairs content 1 pairs (by decide) (by decide) _ hbegin
  obtain rfl : k = 1 := by
    have hone := (hlongest 1 (by decide)).mp (by decide)
    have htwo : ¬ 2 ≤ k := mt (hlongest 2 (by decide)).mpr (by decide)
    omega
  have hlength : record.length = 15 := by rw [hrecord]; decide
  rw [hlength] at hdecode
  refine ⟨_, m, hbegin, hresults, hfinish, hfront, hdecode ?_⟩
  intro pair hpair
  obtain rfl := List.mem_singleton.mp hpair
  exact ⟨"a", by decide +kernel⟩

end Record.Writer

end Concolic
