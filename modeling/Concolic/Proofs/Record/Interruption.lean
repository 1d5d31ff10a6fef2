/-
# Records that are cut short in the writing

Writing a record puts byte after byte on a medium, and the number of elements is put in its place
last.  Whoever reads the medium in between finds one of three things, and none of them is taken
for a record with fewer elements:

* a part of the record with zero still in the place of the number: what follows this zero is left
  over when no element is read, unless nothing has followed it yet;
* all elements behind a number that is put in only in part: the bytes of elements tell where each
  of them ends, so they can be read as these elements only (`eq_of_flatMap_bytes_eq`), and any
  other number leaves bytes over or asks for more than there are;
* the whole record.
-/
import Concolic.Proofs.Record.RoundTrip

namespace Concolic

/-! ## Writing byte by byte -/

/-- A single step of writing. -/
inductive Stroke where
  /-- A byte is put at the position, which moves behind it. -/
  | byte (b : UInt8)
  /-- The position is moved. -/
  | seek (position : Nat)
  deriving DecidableEq, Repr

namespace Medium

/-- Takes single steps until one fails. -/
def carryOut (m : Medium) : List Stroke → Except SystemFault Unit × Medium
  | [] => (.ok (), m)
  | .byte b :: rest =>
    match m.write [b] with
    | (.ok _, m') => m'.carryOut rest
    | (.error e, m') => (.error e, m')
  | .seek position :: rest => (m.seek position).carryOut rest

/-- The position is not behind the end. -/
def IsInside (m : Medium) : Prop := m.position ≤ m.content.length

variable {m m' : Medium} {b : UInt8} {bytes : Bytes}

lemma isInside_empty : empty.IsInside := Nat.le_refl 0

lemma carryOut_append (m : Medium) (first second : List Stroke) :
    m.carryOut (first ++ second) =
      match m.carryOut first with
      | (.ok _, m') => m'.carryOut second
      | (.error e, m') => (.error e, m') := by
  induction first generalizing m with
  | nil => rfl
  | cons stroke first ih =>
    cases stroke with
    | byte b =>
      rw [List.cons_append, carryOut, carryOut]
      rcases m.write [b] with ⟨_ | _, m'⟩
      · rfl
      · exact ih m'
    | seek position => exact ih (m.seek position)

lemma write_nil (hm : m.IsInside) : m.write [] = (.ok (), m) := by
  have hsplice : m.content.splice m.position [] = m.content := by
    have hzero : m.position - m.content.length = 0 := Nat.sub_eq_zero_of_le hm
    simp [Bytes.splice, hzero]
  rw [write]
  split
  · simp
  · simp [hsplice]

/-- A byte is put at the position, unless this would lengthen a medium that is fixed. -/
lemma write_byte (m : Medium) (b : UInt8) :
    m.write [b] =
      if m.isFixed = true ∧ m.content.length ≤ m.position then (.error .bufferFull, m)
      else (.ok (), { m with
        content := m.content.splice m.position [b], position := m.position + 1 }) := by
  rcases hfixed : m.isFixed with _ | _
  · simp [write, hfixed]
  · rcases Nat.lt_or_ge m.position m.content.length with hlt | hle
    · obtain ⟨n, hn⟩ := Nat.exists_eq_add_one_of_ne_zero (Nat.sub_ne_zero_of_lt hlt)
      simp [write, hfixed, hn, Nat.not_le.mpr hlt]
    · simp [write, hfixed, Nat.sub_eq_zero_of_le hle, hle]

lemma write_byte_eq_ok (h : m.write [b] = (.ok (), m')) :
    m' = { m with content := m.content.splice m.position [b], position := m.position + 1 } ∧
      m'.IsInside := by
  rw [write_byte] at h
  split at h
  · exact absurd (congrArg Prod.fst h) (by simp)
  · obtain rfl := congrArg Prod.snd h
    refine ⟨rfl, ?_⟩
    simp only [IsInside, Bytes.splice, List.length_append, List.length_take, List.length_replicate,
      List.length_singleton]
    omega

/-- On a medium that is fixed, as many bytes are written as there is room for. -/
lemma write_of_fixed (hfixed : m.isFixed = true) (hm : m.IsInside) (bytes : Bytes) :
    m.write bytes =
      (if (bytes.take (m.content.length - m.position)).length = bytes.length then .ok ()
        else .error .bufferFull, { m with
          content := m.content.splice m.position (bytes.take (m.content.length - m.position))
          position := m.position + (bytes.take (m.content.length - m.position)).length }) := by
  rw [write, if_pos hfixed]
  rcases hroom : bytes.take (m.content.length - m.position) with _ | ⟨b, taken⟩
  · have hzero : m.position - m.content.length = 0 := Nat.sub_eq_zero_of_le hm
    simp [Bytes.splice, hzero]
  · simp

/-- The first byte of a string is written before the others. -/
lemma write_cons (m : Medium) (b : UInt8) (bytes : Bytes) :
    m.write (b :: bytes) =
      match m.write [b] with
      | (.ok _, m') => m'.write bytes
      | (.error e, m') => (.error e, m') := by
  rcases hfixed : m.isFixed with _ | _
  · -- a growing medium takes everything, so the two writes are one
    rw [write_of_growing hfixed, write_of_growing hfixed]
    simp only
    rw [write_of_growing (m.grown_isFixed [b]), grown_grown]
    rfl
  rcases Nat.lt_or_ge m.position m.content.length with hlt | hle
  · have hbyte := write_byte m b
    rw [if_neg (by omega)] at hbyte
    have hlength : (m.content.splice m.position [b]).length = m.content.length := by
      simp only [Bytes.splice, List.length_append, List.length_take, List.length_replicate,
        List.length_singleton, List.length_drop]
      omega
    obtain ⟨room, hroom⟩ := Nat.exists_eq_add_one_of_ne_zero (Nat.sub_ne_zero_of_lt hlt)
    have hrest : m.content.length - (m.position + 1) = room := by omega
    have hjoin : (m.content.splice m.position [b]).splice (m.position + 1) (bytes.take room)
        = m.content.splice m.position (b :: bytes.take room) :=
      Bytes.splice_splice m.content [b] (bytes.take room) m.position
    rw [hbyte, write_of_fixed hfixed (Nat.le_of_lt hlt)]
    simp only
    rw [write_of_fixed (by exact hfixed) (write_byte_eq_ok hbyte).2]
    simp only [hlength, hroom, hrest, List.take_succ_cons, List.length_cons, hjoin,
      Nat.add_right_cancel_iff, Nat.add_assoc, Nat.add_comm 1]
  · -- there is no room even for the first byte
    rw [write_byte, if_pos ⟨hfixed, hle⟩]
    simp [write, hfixed, Nat.sub_eq_zero_of_le hle]

/-- A string of bytes is written like its bytes. -/
lemma write_eq_carryOut (hm : m.IsInside ∨ bytes ≠ []) :
    m.write bytes = m.carryOut (bytes.map .byte) := by
  induction bytes generalizing m with
  | nil => exact write_nil (hm.resolve_right (by simp))
  | cons b bytes ih =>
    rw [write_cons, List.map_cons, carryOut]
    rcases hb : m.write [b] with ⟨_ | _, m'⟩
    · rfl
    · exact ih (.inl (write_byte_eq_ok hb).2)

lemma carryOut_bytes_eq_ok (h : m.carryOut (bytes.map .byte) = (.ok (), m')) :
    m'.position = m.position + bytes.length ∧ (m.IsInside ∨ bytes ≠ [] → m'.IsInside) := by
  induction bytes generalizing m with
  | nil =>
    obtain rfl : m = m' := congrArg Prod.snd h
    exact ⟨rfl, fun hm => hm.resolve_right (by simp)⟩
  | cons b bytes ih =>
    rw [List.map_cons, carryOut] at h
    rcases hb : m.write [b] with ⟨e | _, m₁⟩
    · rw [hb] at h
      exact absurd (congrArg Prod.fst h) (by simp)
    · rw [hb] at h
      obtain ⟨hm₁, hinside⟩ := write_byte_eq_ok hb
      obtain ⟨hposition, hm'⟩ := ih h
      refine ⟨?_, fun _ => hm' (.inl hinside)⟩
      simp only [hposition, hm₁, List.length_cons]
      omega

/-- Strings written one after the other are written like all their bytes. -/
lemma writeAll_eq_carryOut (hm : m.IsInside) (pieces : List Bytes) :
    m.writeAll pieces = m.carryOut (pieces.flatten.map .byte) := by
  induction pieces generalizing m with
  | nil => rfl
  | cons bytes pieces ih =>
    rw [writeAll, write_eq_carryOut (.inl hm), List.flatten_cons, List.map_append,
      carryOut_append]
    rcases hbytes : m.carryOut (bytes.map .byte) with ⟨_ | _, m'⟩
    · rfl
    · exact ih ((carryOut_bytes_eq_ok hbytes).2 (.inl hm))

/-- A growing medium takes all bytes. -/
lemma carryOut_bytes_of_growing (hm : m.isFixed = false) (hinside : m.IsInside) (bytes : Bytes) :
    m.carryOut (bytes.map .byte) = (.ok (), m.grown bytes) := by
  rw [← write_eq_carryOut (.inl hinside), write_of_growing hm]

end Medium

/-! ## The steps of writing a record -/

/-- The bytes of the elements of a test case. -/
def TestCase.body (t : TestCase) : Bytes := t.elements.flatMap Element.bytes

/-- The steps in which a test case is written: zero in the place of the number of elements, the
elements, and then the number itself. -/
def TestCase.strokes (t : TestCase) (start : Nat) : List Stroke :=
  (Record.number 0 ++ t.body).map .byte ++ .seek start :: (Record.number t.size).map .byte
    ++ [.seek (start + 4 + t.body.length)]

namespace Record.Writer

open Medium

lemma element_eq_carryOut {w : Writer} {e : Element} (hm : w.medium.IsInside) (he : e.Fits)
    (hc : w.count + 1 ≤ limit) :
    w.element (Utf8.encode e.name) e.value =
      match w.medium.carryOut (e.bytes.map .byte) with
      | (.ok _, m) => (.ok (), { w with medium := m, count := w.count + 1 })
      | (.error fault, m) => (.error (.stream fault), { w with medium := m }) := by
  have hnone := (tooLong?_eq_none_iff w _ _).mpr ⟨he.name, he.value, hc⟩
  have hpieces : w.medium.writeAll [number (Utf8.encode e.name).length, Utf8.encode e.name,
      number e.value.length, e.value] = w.medium.carryOut (e.bytes.map .byte) := by
    rw [writeAll_eq_carryOut hm]
    simp [Element.bytes]
  rcases hbytes : w.medium.carryOut (e.bytes.map .byte) with ⟨fault | _, m⟩ <;>
    simp only [element, hnone, hpieces, hbytes]

/-- Elements are written byte by byte, up to the first byte that cannot be written. -/
lemma elements_eq_carryOut {es : List Element} {w : Writer} (hm : w.medium.IsInside)
    (hes : ∀ e ∈ es, e.Fits) (hc : w.count + es.length ≤ limit) :
    (∃ fault m count, w.medium.carryOut ((es.flatMap Element.bytes).map .byte) = (.error fault, m) ∧
        w.elements es = (.error (.stream fault), ⟨m, w.start, count⟩)) ∨
      ∃ m, w.medium.carryOut ((es.flatMap Element.bytes).map .byte) = (.ok (), m) ∧
        w.elements es = (.ok (), ⟨m, w.start, w.count + es.length⟩) := by
  induction es generalizing w with
  | nil => exact .inr ⟨w.medium, rfl, rfl⟩
  | cons e es ih =>
    obtain ⟨he, hes⟩ := List.forall_mem_cons.mp hes
    rw [List.length_cons] at hc
    rw [elements, element_eq_carryOut hm he (by omega), List.flatMap_cons, List.map_append,
      carryOut_append]
    rcases hbytes : w.medium.carryOut (e.bytes.map .byte) with ⟨fault | _, m⟩
    · exact .inl ⟨fault, m, w.count, rfl, rfl⟩
    · have hm' : m.IsInside := (carryOut_bytes_eq_ok hbytes).2 (.inl hm)
      have hcount : w.count + 1 + es.length = w.count + (e :: es).length := by
        rw [List.length_cons]
        omega
      have hrest := ih (w := { w with medium := m, count := w.count + 1 }) hm' hes
        (by simp only; omega)
      simp only [hcount] at hrest
      exact hrest

lemma finish_eq_carryOut {w : Writer} (hc : w.count ≤ limit) :
    w.finish = (ofMedium (w.medium.carryOut (.seek w.start :: (number w.count).map .byte
        ++ [.seek w.medium.position])).1,
      (w.medium.carryOut (.seek w.start :: (number w.count).map .byte
        ++ [.seek w.medium.position])).2) := by
  have hne : number w.count ≠ [] := by simp [number, Bytes.ofNat]
  rw [finish, if_neg (Nat.not_lt.mpr hc), write_eq_carryOut (.inr hne), List.cons_append, carryOut,
    carryOut_append]
  rcases (w.medium.seek w.start).carryOut ((number w.count).map .byte) with ⟨fault | _, m⟩ <;> rfl

end Record.Writer

namespace TestCase

open Record Medium

/-- On every medium, a test case that fits is written in these steps. -/
lemma writeTo_eq_carryOut {t : TestCase} (ht : t.Fits) (m : Medium) :
    t.writeTo m = (ofMedium (m.carryOut (t.strokes m.position)).1,
      (m.carryOut (t.strokes m.position)).2) := by
  have hne : m.IsInside ∨ number 0 ≠ [] := .inr (by simp [number, Bytes.ofNat])
  have hsize : 0 + t.elements.length ≤ limit := by
    rw [Nat.zero_add]
    exact ht.size
  rw [writeTo, Writer.begin, write_eq_carryOut hne, strokes, List.map_append, List.append_assoc,
    List.append_assoc, carryOut_append]
  rcases hbegin : m.carryOut ((number 0).map .byte) with ⟨fault | _, m₁⟩
  · rfl
  obtain ⟨hposition₁, hinside₁⟩ := carryOut_bytes_eq_ok hbegin
  simp only [ofMedium, carryOut_append, body]
  rcases Writer.elements_eq_carryOut (w := ⟨m₁, m.position, 0⟩) (hinside₁ hne) ht.elements hsize
    with ⟨fault, m₂, count, hbody, helements⟩ | ⟨m₂, hbody, helements⟩
  · rw [helements, hbody]
  · obtain ⟨hposition₂, -⟩ := carryOut_bytes_eq_ok hbody
    have hend : m.position + 4 + (t.elements.flatMap Element.bytes).length = m₂.position := by
      rw [hposition₂, hposition₁, length_number]
    rw [helements, hbody, hend]
    simp only
    rw [Writer.finish_eq_carryOut hsize, Nat.zero_add, carryOut_append]
    rfl

/-- What is on a medium, empty at first, after some of the steps of writing a test case. -/
def presentAfter (t : TestCase) (steps : Nat) : Bytes :=
  (Medium.empty.carryOut ((t.strokes 0).take steps)).2.content

/-! ## What has been written at a point of time -/

lemma splice_zero_of_length_le {head rest new : Bytes} (h : new.length ≤ head.length) :
    (head ++ rest).splice 0 new = new ++ head.drop new.length ++ rest := by
  rw [Bytes.splice_eq, Nat.zero_add, List.drop_append_of_le_length h]
  simp [Bytes.toWidth]

/-- Zero and the elements are written one byte at a time. -/
lemma presentAfter_of_le (t : TestCase) {steps : Nat}
    (h : steps ≤ (number 0 ++ t.body).length) :
    t.presentAfter steps = (number 0 ++ t.body).take steps := by
  rw [presentAfter, strokes, List.append_assoc, List.take_append_of_le_length (by simpa using h),
    ← List.map_take, carryOut_bytes_of_growing rfl isInside_empty]
  exact Bytes.nil_splice_zero _

/-- The steps up to a byte of the number: zero and the elements, the way back, a part of the
number, and the way to the end if the number is complete. -/
lemma take_strokes (t : TestCase) (taken : Nat) :
    (t.strokes 0).take ((number 0 ++ t.body).length + taken + 1) =
      (number 0 ++ t.body).map .byte ++ .seek 0 :: (((number t.size).take taken).map .byte
        ++ [Stroke.seek (0 + 4 + t.body.length)].take (taken - 4)) := by
  have hlength : (number 0 ++ t.body).length + taken + 1
      = ((number 0 ++ t.body).map Stroke.byte).length + (taken + 1) := by
    rw [List.length_map, Nat.add_assoc]
  rw [strokes, List.append_assoc, hlength, List.take_length_add_append, List.cons_append,
    List.take_succ_cons, List.take_append, List.map_take]
  simp

/-- Moving the position, or not, leaves the content alone. -/
lemma content_carryOut_take_seek (m : Medium) (position n : Nat) :
    (m.carryOut ([Stroke.seek position].take n)).2.content = m.content := by
  rcases n with _ | n
  · rfl
  · rw [List.take_succ_cons, List.take_nil]
    rfl

/-- The number is put in one byte at a time, in front of all elements. -/
lemma presentAfter_of_lt (t : TestCase) {steps : Nat}
    (h : (number 0 ++ t.body).length < steps) :
    ∃ taken, t.presentAfter steps =
      (number t.size).take taken ++ (number 0).drop ((number t.size).take taken).length
        ++ t.body := by
  obtain ⟨taken, rfl⟩ := Nat.exists_eq_add_of_lt h
  refine ⟨taken, ?_⟩
  have hle : ((number t.size).take taken).length ≤ (number 0).length := by
    rw [length_number, ← length_number t.size]
    exact List.length_take_le' _ _
  rw [presentAfter, take_strokes, carryOut_append, carryOut_bytes_of_growing rfl isInside_empty]
  simp only [carryOut]
  rw [carryOut_append, carryOut_bytes_of_growing rfl (Nat.zero_le _)]
  simp only
  rw [content_carryOut_take_seek]
  -- the bytes of the number that are still to come are those of the zero
  simp only [grown, seek, empty, Bytes.nil_splice_zero]
  exact splice_zero_of_length_le hle

/-! ## What is read from it -/

lemma bytes_append_ne_nil (e : Element) (rest : Bytes) : e.bytes ++ rest ≠ [] := by
  refine List.append_ne_nil_of_left_ne_nil (List.length_pos_iff.mp ?_) rest
  rw [Element.length_bytes]
  omega

/-- The bytes of elements tell the elements. -/
lemma eq_of_flatMap_bytes_eq {es es' : List Element} (hes : ∀ e ∈ es, e.Fits)
    (hes' : ∀ e ∈ es', e.Fits) (h : es.flatMap Element.bytes = es'.flatMap Element.bytes) :
    es = es' := by
  induction es generalizing es' with
  | nil =>
    cases es' with
    | nil => rfl
    | cons e' es' =>
      rw [List.flatMap_nil, List.flatMap_cons] at h
      exact absurd h.symm (bytes_append_ne_nil e' _)
  | cons e es ih =>
    cases es' with
    | nil =>
      rw [List.flatMap_nil, List.flatMap_cons] at h
      exact absurd h (bytes_append_ne_nil e _)
    | cons e' es' =>
      obtain ⟨he, hrest⟩ := List.forall_mem_cons.mp hes
      obtain ⟨he', hrest'⟩ := List.forall_mem_cons.mp hes'
      rw [List.flatMap_cons, List.flatMap_cons] at h
      -- reading stops behind the first element, whatever follows it
      have hread : readElement (e.bytes ++ es.flatMap Element.bytes)
          = .ok (e, es.flatMap Element.bytes) := readElement_eq_ok_iff.mpr ⟨he, rfl⟩
      have hread' := readElement_eq_ok_iff.mpr ⟨he', h⟩
      obtain ⟨rfl, hbytes⟩ := Prod.mk.inj (Except.ok.inj (hread.symm.trans hread'))
      rw [ih hrest hrest' hbytes]

/-- Behind any four bytes, the elements are read as themselves or not at all. -/
lemma eq_of_decode_body {t t' : TestCase} {head : Bytes} (ht : t.Fits) (hhead : head.length = 4)
    (h : decode (head ++ t.body) = .ok t') : t' = t := by
  obtain ⟨ht', hbytes⟩ := decode_eq_ok_iff.mp h
  obtain ⟨-, hbody⟩ := List.append_inj hbytes (by rw [hhead, length_number])
  have helements := eq_of_flatMap_bytes_eq ht.elements ht'.elements hbody
  cases t
  cases t'
  exact congrArg TestCase.mk helements.symm

/-- No elements are read where zero stands in the place of their number. -/
lemma eq_nil_of_decode_take {t' : TestCase} {body : Bytes} {steps : Nat}
    (h : decode ((number 0 ++ body).take steps) = .ok t') :
    (number 0 ++ body).take steps = number 0 ∧ t' = ⟨[]⟩ := by
  obtain ⟨ht', hbytes⟩ := decode_eq_ok_iff.mp h
  have hnumber : number t'.size = number 0 := by
    have hprefix : number t'.size <+: number 0 ++ body := by
      have htake : t'.bytes <+: number 0 ++ body := hbytes ▸ List.take_prefix _ _
      exact (List.prefix_append _ _).trans htake
    exact (List.prefix_of_prefix_length_le hprefix (List.prefix_append _ _) (by simp)).eq_of_length
      (by simp)
  have hsize : t'.size = 0 := by
    have hread : ∀ n ≤ limit, readNumber .elementCount (number n ++ []) = .ok (n, []) :=
      fun n hn => readNumber_eq_ok_iff.mpr ⟨hn, rfl⟩
    have hzero := hread 0 (Nat.zero_le limit)
    rw [← hnumber, hread _ ht'.size] at hzero
    exact (Prod.mk.inj (Except.ok.inj hzero)).1
  obtain ⟨elements⟩ := t'
  obtain rfl : elements = [] := List.length_eq_zero_iff.mp hsize
  exact ⟨by simpa [bytes, size] using hbytes, rfl⟩

/-- **A record that is cut short is not taken for a shorter one.**  A test case that fits is
written in single steps, whatever the medium.  On a medium that is empty at first, what is there
after any number of these steps is no record, or it is the record of this very test case, or it
is the zero that stands in the place of the number of elements, and nothing else. -/
theorem decode_presentAfter (t : TestCase) (ht : t.Fits) :
    (∀ m : Medium, t.writeTo m =
        (ofMedium (m.carryOut (t.strokes m.position)).1, (m.carryOut (t.strokes m.position)).2)) ∧
      t.encode = .ok (t.presentAfter (t.strokes 0).length) ∧
      ∀ steps, (∃ e, decode (t.presentAfter steps) = .error e) ∨
        decode (t.presentAfter steps) = .ok t ∧ t.encode = .ok (t.presentAfter steps) ∨
        t.presentAfter steps = [0, 0, 0, 0] ∧ decode (t.presentAfter steps) = .ok ⟨[]⟩ := by
  have hencode : t.encode = .ok t.bytes := encode_eq_ok_iff.mpr ⟨ht, rfl⟩
  refine ⟨writeTo_eq_carryOut ht, ?_, fun steps => ?_⟩
  · rw [encode, writeTo_eq_carryOut ht empty] at hencode ⊢
    rw [presentAfter, List.take_length]
    rcases hsteps : empty.carryOut (t.strokes empty.position) with ⟨fault | _, m⟩
    · rw [hsteps] at hencode
      exact absurd hencode (by simp [ofMedium])
    · exact congrArg (fun outcome => Except.ok outcome.2.content) hsteps.symm
  rcases hread : decode (t.presentAfter steps) with e | t'
  · exact .inl ⟨e, rfl⟩
  right
  -- either all elements are there, or the number is still zero
  rcases Nat.lt_or_ge (number 0 ++ t.body).length steps with hlt | hle
  · obtain ⟨taken, htaken⟩ := presentAfter_of_lt t hlt
    have hhead : ((number t.size).take taken
        ++ (number 0).drop ((number t.size).take taken).length).length = 4 := by
      simp only [List.length_append, List.length_drop, List.length_take, length_number]
      omega
    obtain rfl : t' = t := eq_of_decode_body ht hhead (htaken ▸ hread)
    exact .inl ⟨rfl, encode_eq_ok_iff.mpr (decode_eq_ok_iff.mp hread)⟩
  · have htake := presentAfter_of_le t hle
    obtain ⟨hzero, rfl⟩ := eq_nil_of_decode_take (htake ▸ hread)
    exact .inr ⟨htake.trans hzero, rfl⟩

/-- A record of one element: fourteen steps put its bytes behind a zero, where they are left over
in reading, and after two more, the way back and the first byte of the number, it is complete. -/
theorem decode_presentAfter_one_element :
    let t : TestCase := ⟨[⟨"a", [7]⟩]⟩
    t.Fits ∧ decode (t.presentAfter 4) = .ok ⟨[]⟩ ∧
      decode (t.presentAfter 14) = .error (.trailing 10) ∧ decode (t.presentAfter 16) = .ok t ∧
      ∀ steps, (∃ e, decode (t.presentAfter steps) = .error e) ∨
        decode (t.presentAfter steps) = .ok t ∧ t.encode = .ok (t.presentAfter steps) ∨
        t.presentAfter steps = [0, 0, 0, 0] ∧ decode (t.presentAfter steps) = .ok ⟨[]⟩ := by
  intro t
  have ht : t.Fits := ⟨by decide, fun e he => by
    obtain rfl := List.mem_singleton.mp he
    exact ⟨by decide, by decide⟩⟩
  exact ⟨ht, by decide +kernel, by decide +kernel, by decide +kernel,
    (decode_presentAfter t ht).2.2⟩

end TestCase

end Concolic
