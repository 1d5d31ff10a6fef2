/-
# Records that arrive in pieces

A supply hands its bytes out in pieces, and a piece need not end where a part of the record ends.
For reading this makes no difference: what is drawn from a supply is what is drawn from the byte
string that the pieces make up, as long as there is enough of it.

A supply that fails behind its last piece differs from a byte string that ends there at the first
read that asks for more.  Such a read is made when a part is cut short, and also at the end of a
complete record, where reading sees to it that nothing is left.  So a record is never taken from
a supply that fails: what is found wrong before that read is told as it is, and everything else
comes to the failure of the supply.
-/
import Concolic.Proofs.Record.Reading

namespace Concolic

/-! ## Drawing from a supply -/

namespace Supply

variable {fault : Option SystemFault} {got : Bytes} {n : Nat} {pieces : List Bytes}

/-- If there is enough, the wanted bytes are drawn and the others are left. -/
lemma drawFrom_of_le (h : n ≤ pieces.flatten.length) :
    ∃ left, drawFrom fault got n pieces = (.ok (got ++ pieces.flatten.take n), ⟨left, fault⟩) ∧
      left.flatten = pieces.flatten.drop n := by
  induction pieces generalizing got n with
  | nil =>
    obtain rfl : n = 0 := Nat.le_zero.mp h
    exact ⟨[], by simp [drawFrom], rfl⟩
  | cons piece pieces ih =>
    rcases n with _ | n
    · exact ⟨piece :: pieces, by simp [drawFrom], rfl⟩
    rw [drawFrom, List.flatten_cons, List.take_append, List.drop_append]
    rw [List.flatten_cons, List.length_append] at h
    by_cases hfits : piece.length ≤ n + 1
    · -- the piece is used up
      have hrest : n + 1 - piece.length ≤ pieces.flatten.length := by omega
      obtain ⟨left, hdraw, hleft⟩ := @ih (got ++ piece) _ hrest
      refine ⟨left, ?_, ?_⟩
      · rw [if_pos hfits, hdraw, List.take_of_length_le hfits, List.append_assoc]
      · rw [hleft, List.drop_of_length_le hfits, List.nil_append]
    · have hzero : n + 1 - piece.length = 0 := by omega
      refine ⟨piece.drop (n + 1) :: pieces, ?_, ?_⟩
      · rw [if_neg hfits, hzero, List.take_zero, List.append_nil]
      · rw [hzero, List.drop_zero, List.flatten_cons]

/-- If there is not enough, all pieces are used up and a further read is made. -/
lemma drawFrom_of_lt (h : pieces.flatten.length < n) :
    drawFrom fault got n pieces = (atEnd ⟨[], fault⟩ (got ++ pieces.flatten), ⟨[], fault⟩) := by
  induction pieces generalizing got n with
  | nil =>
    obtain ⟨n, rfl⟩ := Nat.exists_eq_add_one_of_ne_zero (Nat.ne_zero_of_lt h)
    simp [drawFrom]
  | cons piece pieces ih =>
    rw [List.flatten_cons, List.length_append] at h
    obtain ⟨n, rfl⟩ := Nat.exists_eq_add_one_of_ne_zero (Nat.ne_zero_of_lt h)
    rw [drawFrom, if_pos (by omega), ih (by omega), List.flatten_cons, List.append_assoc]

end Supply

namespace Record

/-! ## What is wrong with a record that is cut short -/

/-- The error lies in bytes that have been read, whatever would have come behind them. -/
inductive Error.LiesInBytes : Error → Prop
  /-- A length or count is negative. -/
  | negative (field : Field) (value : Int) : LiesInBytes (.negative field value)
  /-- A name is no text. -/
  | invalidName (fault : Utf8.Fault) : LiesInBytes (.invalidName fault)

/-- How an error of reading a byte string shows if the source, in place of ending with the byte
string, fails there. -/
def Error.seenAt : Option SystemFault → Error → Error
  | none, e => e
  | some _, .negative field value => .negative field value
  | some _, .invalidName cause => .invalidName cause
  | some fault, _ => .stream fault

lemma Error.LiesInBytes.seenAt {e : Error} (h : e.LiesInBytes) (fault : Option SystemFault) :
    e.seenAt fault = e := by
  cases h <;> cases fault <;> rfl

lemma Error.seenAt_of_not {e : Error} (h : ¬ e.LiesInBytes) (fault : SystemFault) :
    e.seenAt (some fault) = .stream fault := by
  cases e with
  | negative field value => exact absurd (.negative field value) h
  | invalidName cause => exact absurd (.invalidName cause) h
  | stream | truncated | overflow | trailing => rfl

/-! ## Steps of reading -/

variable {α β : Type} {fault : Option SystemFault}

/-- Whatever the pieces, the second step does on a supply what the first one does on the byte
string that the pieces make up; an error shows as it does if the supply fails at its end. -/
def Follows (fault : Option SystemFault) (x : Reading Bytes α) (y : Reading Supply α) : Prop :=
  ∀ pieces : List Bytes, match x pieces.flatten with
    | .ok (a, rest) => ∃ left, y ⟨pieces, fault⟩ = .ok (a, ⟨left, fault⟩) ∧ left.flatten = rest
    | .error e => y ⟨pieces, fault⟩ = .error (e.seenAt fault)

lemma follows_pure (a : α) : Follows fault (pure a) (pure a) := fun pieces => ⟨pieces, rfl, rfl⟩

/-- An error that is thrown lies in the bytes before it. -/
lemma follows_throw {e : Error} (h : e.LiesInBytes) :
    Follows fault (throw e : Reading Bytes α) (throw e) := by
  intro pieces
  show (throw e : Reading Supply α) ⟨pieces, fault⟩ = .error (e.seenAt fault)
  rw [h.seenAt]
  rfl

lemma Follows.bind {x : Reading Bytes α} {y : Reading Supply α} {f : α → Reading Bytes β}
    {g : α → Reading Supply β} (hx : Follows fault x y) (hf : ∀ a, Follows fault (f a) (g a)) :
    Follows fault (x >>= f) (y >>= g) := by
  intro pieces
  have hfirst := hx pieces
  show match (x pieces.flatten >>= fun p => f p.1 p.2) with
    | .ok (b, rest) => ∃ left, (y ⟨pieces, fault⟩ >>= fun p => g p.1 p.2) = .ok (b, ⟨left, fault⟩) ∧
        left.flatten = rest
    | .error e => (y ⟨pieces, fault⟩ >>= fun p => g p.1 p.2) = .error (e.seenAt fault)
  rcases hrun : x pieces.flatten with e | ⟨a, rest⟩
  · rw [hrun] at hfirst
    simp only at hfirst
    rw [hfirst]
    rfl
  · rw [hrun] at hfirst
    obtain ⟨left, hy, rfl⟩ := hfirst
    rw [hy]
    exact hf a left

lemma follows_readBytes (field : Field) (n : Nat) :
    Follows fault (readBytes field n) (readBytes field n) := by
  intro pieces
  have hbytes : readBytes field n pieces.flatten =
      if (pieces.flatten.take n).length = n then .ok (pieces.flatten.take n, pieces.flatten.drop n)
      else .error (.truncated field n (pieces.flatten.take n).length) := rfl
  have hdraw : Source.draw n (⟨pieces, fault⟩ : Supply) = Supply.drawFrom fault [] n pieces := rfl
  rw [hbytes, readBytes, hdraw]
  rcases Nat.lt_or_ge pieces.flatten.length n with hlt | hle
  · -- the supply ends, or fails, before there are enough bytes
    have htake : (pieces.flatten.take n).length = pieces.flatten.length := by
      rw [List.length_take]
      omega
    rw [htake, if_neg (by omega), Supply.drawFrom_of_lt hlt]
    rcases fault with _ | fault
    · simp only [Supply.atEnd, drawn, List.nil_append, if_neg (Nat.ne_of_lt hlt)]
      rfl
    · rfl
  · obtain ⟨left, hdraw, hleft⟩ := @Supply.drawFrom_of_le fault [] _ _ hle
    have htake : (pieces.flatten.take n).length = n := by
      rw [List.length_take]
      omega
    rw [hdraw, if_pos htake]
    exact ⟨left, by simp [drawn, htake], hleft⟩

lemma follows_readNumber (field : Field) :
    Follows fault (readNumber field) (readNumber field) := by
  refine (follows_readBytes field 4).bind fun bytes => ?_
  split
  · exact follows_pure _
  · exact follows_throw (.negative field _)

lemma follows_readName (n : Nat) : Follows fault (readName n) (readName n) := by
  refine (follows_readBytes .name n).bind fun bytes => ?_
  split
  · exact follows_pure _
  · exact follows_throw (.invalidName _)
  · exact follows_throw (.invalidName _)

lemma follows_readElement : Follows fault readElement readElement :=
  (follows_readNumber .nameLength).bind fun n => (follows_readName n).bind fun _ =>
    (follows_readNumber .valueLength).bind fun n => (follows_readBytes .value n).bind fun _ =>
    follows_pure _

lemma follows_readElements (count : Nat) :
    Follows fault (readElements count) (readElements count) := by
  induction count with
  | zero => exact follows_pure []
  | succ count ih => exact follows_readElement.bind fun _ => ih.bind fun _ => follows_pure _

/-! ## Whole records -/

/-- Reads the elements of a record, from their number on, and leaves what is behind them. -/
def readContent {ρ : Type} [Source ρ] : Reading ρ (List Element) :=
  readNumber .elementCount >>= readElements

lemma readTestCase_eq {ρ : Type} [Source ρ] :
    (readTestCase : Reading ρ TestCase)
      = readContent >>= fun es => readEnd >>= fun _ => pure ⟨es⟩ := by
  rw [readContent, bind_assoc]
  rfl

lemma follows_readContent : Follows fault readContent readContent :=
  (follows_readNumber .elementCount).bind follows_readElements

end Record

namespace TestCase

open Record

/-- A record is read when its elements are and nothing is left behind them. -/
lemma readFrom_eq {ρ : Type} [Source ρ] (s : ρ) :
    readFrom s = match (readContent : Reading ρ (List Element)) s with
      | .error e => .error e
      | .ok (es, s') => match drawn (Source.drain s') with
        | .error e => .error e
        | .ok (rest, _) => if rest.isEmpty then .ok ⟨es⟩ else .error (.trailing rest.length) := by
  have hrun : readFrom s = ((readContent : Reading ρ (List Element)) s >>= fun p =>
      (readEnd >>= fun _ => pure ⟨p.1⟩ : Reading ρ TestCase) p.2).map Prod.fst := by
    show ((readTestCase : Reading ρ TestCase) s).map Prod.fst = _
    rw [readTestCase_eq]
    rfl
  rw [hrun]
  rcases (readContent : Reading ρ (List Element)) s with e | ⟨es, s'⟩
  · rfl
  show ((readEnd : Reading ρ Unit) s' >>= _).map Prod.fst = _
  rcases hdrain : drawn (Source.drain s') with e | ⟨rest, s''⟩
  · simp only [readEnd, hdrain]
    rfl
  · simp only [readEnd, hdrain]
    split <;> rfl

/-- A supply that ends is read like the byte string that its pieces make up. -/
lemma readFrom_ending (pieces : List Bytes) :
    readFrom (Supply.mk pieces none) = decode pieces.flatten := by
  rw [decode, readFrom_eq, readFrom_eq]
  have hcontent := @follows_readContent none pieces
  rcases hrun : (readContent : Reading Bytes (List Element)) pieces.flatten with e | ⟨es, rest⟩
  · rw [hrun] at hcontent
    simp only at hcontent
    rw [hcontent]
    rfl
  · rw [hrun] at hcontent
    obtain ⟨left, hsupply, rfl⟩ := hcontent
    rw [hsupply]
    rfl

/-- A supply that fails is not read as a record: an error of the byte string that its pieces make
up shows in its way, and the read behind a complete record fails. -/
lemma readFrom_failing (pieces : List Bytes) (fault : SystemFault) :
    readFrom (Supply.mk pieces (some fault)) = match decode pieces.flatten with
      | .ok _ => .error (.stream fault)
      | .error e => .error (e.seenAt (some fault)) := by
  rw [decode, readFrom_eq, readFrom_eq]
  have hcontent := @follows_readContent (some fault) pieces
  rcases hrun : (readContent : Reading Bytes (List Element)) pieces.flatten with e | ⟨es, rest⟩
  · rw [hrun] at hcontent
    simp only at hcontent
    rw [hcontent]
  · rw [hrun] at hcontent
    obtain ⟨left, hsupply, rfl⟩ := hcontent
    rw [hsupply]
    rcases hend : left.flatten with _ | ⟨x, rest⟩ <;> rfl

/-- **How a record is delivered makes no difference, and a source that fails is never taken for
one that ends.**  From a supply, a record is read as from the byte string that its pieces make
up, whatever their sizes.  If the supply fails at the first read behind `k` bytes, then a negative
length or a name that is no text is told if there is one in these bytes; and in every other case,
be they a complete record, too short for one or too long, the failure is. -/
theorem readFrom_supply (b : Bytes) :
    (∀ pieces : List Bytes, pieces.flatten = b → readFrom (Supply.mk pieces none) = decode b) ∧
      ∀ k ≤ b.length, ∀ (pieces : List Bytes) (fault : SystemFault), pieces.flatten = b.take k →
        (∀ e, decode (b.take k) = .error e → e.LiesInBytes →
          readFrom (Supply.mk pieces (some fault)) = .error e) ∧
        ((∀ e, decode (b.take k) = .error e → ¬ e.LiesInBytes) →
          readFrom (Supply.mk pieces (some fault)) = .error (.stream fault)) := by
  refine ⟨?_, ?_⟩
  · rintro pieces rfl
    exact readFrom_ending pieces
  · intro k _ pieces fault hpieces
    rw [readFrom_failing, hpieces]
    refine ⟨?_, ?_⟩
    · intro e he hlies
      rw [he]
      exact congrArg Except.error (hlies.seenAt _)
    · intro hnone
      rcases hdecode : decode (b.take k) with e | t
      · exact congrArg Except.error (Error.seenAt_of_not (hnone e hdecode) fault)
      · rfl

/-- A record whose one name is no text: it is read alike in two pieces and in three.  A failure
behind the name does not hide what is wrong with the name, and one in front of it does. -/
theorem readFrom_supply_bad_name :
    let b : Bytes := [1, 0, 0, 0, 1, 0, 0, 0, 255, 0, 0, 0, 0]
    let fault : SystemFault := .other "lost"
    decode b = .error (.invalidName ⟨0, some 1⟩) ∧
      readFrom (Supply.mk [[1, 0], [0, 0, 1, 0, 0, 0, 255, 0], [0, 0, 0]] none)
        = .error (.invalidName ⟨0, some 1⟩) ∧
      readFrom (Supply.mk [[1, 0, 0, 0, 1, 0], [0, 0, 255]] (some fault))
        = .error (.invalidName ⟨0, some 1⟩) ∧
      readFrom (Supply.mk [[1, 0, 0], [0, 1, 0, 0, 0]] (some fault)) = .error (.stream fault) := by
  intro b fault
  have hwhole : decode b = .error (.invalidName ⟨0, some 1⟩) := by decide +kernel
  have hname : decode (b.take 9) = .error (.invalidName ⟨0, some 1⟩) := by decide +kernel
  have hlength : decode (b.take 8) = .error (.truncated .name 1 0) := by decide +kernel
  obtain ⟨hends, hfails⟩ := readFrom_supply b
  refine ⟨hwhole, (hends _ rfl).trans hwhole, ?_, ?_⟩
  · exact (hfails 9 (by decide) _ fault rfl).1 _ hname (.invalidName _)
  · refine (hfails 8 (by decide) _ fault rfl).2 fun e he => ?_
    rw [hlength] at he
    obtain rfl := Except.error.inj he
    exact nofun

/-- Behind a complete record a source that fails is told from one that ends. -/
example : readFrom (Supply.mk [[0, 0], [0, 0]] none) = .ok ⟨[]⟩ ∧
    readFrom (Supply.mk [[0, 0], [0, 0]] (some .bufferFull)) = .error (.stream .bufferFull) := by
  decide +kernel

end TestCase

end Concolic
