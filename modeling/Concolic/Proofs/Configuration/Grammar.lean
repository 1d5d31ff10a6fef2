/-
# The grammar of elements

What an element has to say to declare an argument, a file or the standard input, and what it
then declares.  The predicates of this file speak of the attributes of the element only:

* `Counts`: an attribute spells a number, blanks around it aside;
* `Says`: an attribute is a word, blanks around it aside;
* `DeclaresArgument`, `DeclaresFile`, `DeclaresStandardInput`: the element declares this input.

An input is read from an element exactly if the element declares it.
-/
import Concolic.Configuration.Document
import Concolic.Proofs.Text.Blank
import Concolic.Proofs.Text.Numeral
import Concolic.Proofs.Xml.Elements

namespace Concolic.Configuration

open Xml (Node)

/-! ## What attributes say -/

/-- The text spells the number, blanks at its ends aside. -/
def SpellsAmidBlanks (raw : String) (k : Nat) : Prop :=
  ∃ text, Text.IsTrimmed raw text ∧ Numeral.Spells text.toList k

/-- The attribute is there and spells the number. -/
def Counts (n : Node) (key : String) (k : Nat) : Prop :=
  ∃ raw, n.HasAttribute key raw ∧ SpellsAmidBlanks raw k

/-- The attribute is there and is the word. -/
def Says (n : Node) (key word : String) : Prop :=
  ∃ raw, n.HasAttribute key raw ∧ Text.IsTrimmed raw word

/-- The attribute is not there. -/
def Lacks (n : Node) (key : String) : Prop := ∀ raw, ¬ n.HasAttribute key raw

/-- The size of an argument; an absent or blank one counts as zero. -/
def DeclaresSize (n : Node) (size : Nat) : Prop :=
  (Lacks n "size" ∨ Says n "size" "") ∧ size = 0 ∨ Counts n "size" size

/-- The mark of an argument; without a mark it is concrete. -/
def DeclaresMark (n : Node) (concolic : Bool) : Prop :=
  (Lacks n "concolic" ∨ Says n "concolic" "false") ∧ concolic = false ∨
    Says n "concolic" "true" ∧ concolic = true

/-- The value of an argument, in bytes; without one it is empty. -/
def DeclaresValue (n : Node) (value : Bytes) : Prop :=
  Lacks n "value" ∧ value = [] ∨ ∃ raw, n.HasAttribute "value" raw ∧ value = Utf8.encode raw

/-- The element declares the argument: it has a position from one on, it is as wide as its size
or its value, whichever is wider, and only a concrete argument keeps its value and may be
empty. -/
structure DeclaresArgument (n : Node) (a : Argument) : Prop where
  counts : Counts n "index" a.index
  position : 1 ≤ a.index
  declared : ∃ size concolic value, DeclaresSize n size ∧ DeclaresMark n concolic ∧
    DeclaresValue n value ∧ a.size = max size value.length ∧
    a.literal = (if concolic then none else some value) ∧ (concolic = true → 1 ≤ a.size)
  narrow : a.size ≤ 2 ^ 31 - 1

/-- The element declares the file. -/
structure DeclaresFile (n : Node) (f : InputFile) : Prop where
  path : n.HasAttribute "path" f.path
  counts : Counts n "size" f.size
  marked : Says n "concolic" "true"
  wide : 1 ≤ f.size
  narrow : f.size ≤ 2 ^ 31 - 1

/-- The element declares a standard input of this width, none if it is zero. -/
structure DeclaresStandardInput (n : Node) (size : Nat) : Prop where
  counts : Counts n "size" size
  marked : Says n "concolic" "true"
  narrow : size ≤ 2 ^ 31 - 1

/-! ## Reading attributes -/

variable {n : Node} {element key raw : String} {k : Nat} {i i' : Input}

lemma except_bind_eq_ok_iff {ε α β : Type} {x : Except ε α} {f : α → Except ε β} {b : β} :
    (x >>= f) = .ok b ↔ ∃ a, x = .ok a ∧ f a = .ok b := by
  cases x with
  | error e =>
    constructor
    · intro h
      exact nomatch h
    · rintro ⟨a, ha, -⟩
      exact nomatch ha
  | ok a =>
    constructor
    · intro h
      exact ⟨a, rfl, h⟩
    · rintro ⟨a', ha, h⟩
      obtain rfl := Except.ok.inj ha
      exact h

lemma required_eq_ok_iff : required n element key = .ok raw ↔ n.HasAttribute key raw := by
  rw [required, ← Node.attribute?_eq_some_iff]
  rcases n.attribute? key with _ | value <;> simp

lemma lacks_iff : Lacks n key ↔ n.attribute? key = none :=
  Node.attribute?_eq_none_iff.symm

lemma spellsAmidBlanks_iff :
    SpellsAmidBlanks raw k ↔ Numeral.Spells (Text.trim raw).toList k := by
  simp [SpellsAmidBlanks, ← Text.trim_eq_iff]

lemma counts_iff : Counts n key k ↔
    ∃ raw, n.attribute? key = some raw ∧ Numeral.Spells (Text.trim raw).toList k := by
  simp only [Counts, Node.attribute?_eq_some_iff, spellsAmidBlanks_iff]

lemma Counts.lt_wordLimit (h : Counts n key k) : k < Numeral.wordLimit := by
  obtain ⟨raw, -, text, -, digits, -, -, -, -, hlt⟩ := h
  exact hlt

lemma says_iff {word : String} : Says n key word ↔
    ∃ raw, n.attribute? key = some raw ∧ Text.trim raw = word := by
  simp only [Says, Node.attribute?_eq_some_iff, Text.trim_eq_iff]

lemma declaresValue_iff {value : Bytes} :
    DeclaresValue n value ↔ Utf8.encode ((n.attribute? "value").getD "") = value := by
  rw [DeclaresValue, lacks_iff]
  simp only [← Node.attribute?_eq_some_iff]
  rcases n.attribute? "value" with _ | raw
  · have hempty : Utf8.encode "" = [] := by decide
    simp [hempty, eq_comm]
  · simp [eq_comm]

lemma number_eq_ok_iff : number element key raw = .ok k ↔ SpellsAmidBlanks raw k := by
  rw [spellsAmidBlanks_iff, ← Numeral.unsigned?_eq_some_iff, number]
  rcases Numeral.unsigned? (Text.trim raw).toList with _ | k' <;> simp

/-- A position is read as any other number; it is only refused in another way if it is
negative. -/
lemma position_eq_ok_iff : position raw = .ok k ↔ SpellsAmidBlanks raw k := by
  have hnumber : number "arg" "index" raw = .ok k ↔ _ := number_eq_ok_iff
  rw [← hnumber, position]
  split
  · rename_i i hi
    split
    · rename_i hneg
      constructor
      · intro h
        exact absurd h (by simp)
      · intro h
        have hspells := spellsAmidBlanks_iff.mp (number_eq_ok_iff.mp h)
        have hnonneg := Numeral.signed?_nonneg_of_spells hspells hi
        omega
    · rfl
  · rfl

lemma flag_eq_ok_iff {b : Bool} : flag element raw = .ok b ↔
    Text.IsTrimmed raw "false" ∧ b = false ∨ Text.IsTrimmed raw "true" ∧ b = true := by
  rw [flag, ← Text.trim_eq_iff, ← Text.trim_eq_iff]
  split
  · simp [*, eq_comm]
  · simp [*, eq_comm]
  · rename_i htrue hfalse
    constructor
    · intro h
      exact absurd h (by simp)
    · rintro (⟨h, -⟩ | ⟨h, -⟩)
      · exact absurd h hfalse
      · exact absurd h htrue

lemma checkWidth_eq_ok_iff : checkWidth i = .ok i' ↔ i.size ≤ 2 ^ 31 - 1 ∧ i' = i := by
  rw [checkWidth, show Record.limit = 2 ^ 31 - 1 from rfl]
  split
  · simp only [reduceCtorEq, false_iff, not_and]
    omega
  · rename_i hle
    rw [Except.ok.injEq]
    exact ⟨fun h => ⟨Nat.not_lt.mp hle, h.symm⟩, fun h => h.2.symm⟩

/-! ## Reading elements -/

/-- The size of an argument, as it is read. -/
def argumentSize (n : Node) : Except Error Nat :=
  match (n.attribute? "size").map Text.trim with
  | none => .ok 0
  | some "" => .ok 0
  | some raw => number "arg" "size" raw

/-- The mark of an argument, as it is read. -/
def argumentMark (n : Node) : Except Error Bool :=
  match n.attribute? "concolic" with
  | none => .ok false
  | some raw => flag "arg" raw

/-- The argument that these attributes declare, if it is admitted. -/
def admitArgument (index size : Nat) (concolic : Bool) (value : Bytes) : Except Error Input :=
  if index = 0 then .error (.invalid .reservedIndex)
  else if concolic then
    let a := Argument.symbolic index size value
    if a.size = 0 then .error (.invalid (.emptySymbolic a.name)) else checkWidth (.argument a)
  else checkWidth (.argument (.concrete index value size))

/-- The attributes of an argument are read one after the other. -/
lemma argumentOf_eq : argumentOf n = (do
    let index ← position (← required n "arg" "index")
    let size ← argumentSize n
    let concolic ← argumentMark n
    admitArgument index size concolic (Utf8.encode ((n.attribute? "value").getD ""))) := by
  have hsize : ∀ (o : Option String) (f : Nat → Except Error Input),
      (match o with
        | none => .ok 0 >>= f
        | some "" => .ok 0 >>= f
        | some raw => number "arg" "size" raw >>= f) = (match o with
        | none => .ok 0
        | some "" => .ok 0
        | some raw => number "arg" "size" raw) >>= f := by
    intro o f
    split <;> rfl
  have hmark : ∀ (o : Option String) (f : Bool → Except Error Input),
      (match o with
        | none => .ok false >>= f
        | some raw => flag "arg" raw >>= f) = (match o with
        | none => .ok false
        | some raw => flag "arg" raw) >>= f := by
    intro o f
    split <;> rfl
  refine bind_congr fun raw => bind_congr fun index =>
    (hsize _ _).trans (bind_congr fun size => (hmark _ _).trans ?_)
  rfl

lemma argumentSize_eq_ok_iff {size : Nat} : argumentSize n = .ok size ↔ DeclaresSize n size := by
  rw [argumentSize, DeclaresSize, lacks_iff, says_iff, counts_iff]
  rcases n.attribute? "size" with _ | raw
  · simpa using eq_comm
  · -- a blank size is no number
    have hblank : ∀ k, ¬ Numeral.Spells [] k := by
      rintro k ⟨digits, hne, -, rfl | h, -⟩
      · exact hne rfl
      · exact absurd h (by simp)
    rw [Option.map_some]
    split
    · exact absurd ‹_› (by simp)
    · rename_i hraw
      simpa [Option.some.inj hraw, hblank] using eq_comm
    · rename_i raw' hne hraw
      obtain rfl := Option.some.inj hraw
      have hne' : Text.trim raw ≠ "" := hne
      simp [number_eq_ok_iff, spellsAmidBlanks_iff, Text.trim_trim, hne']

lemma argumentMark_eq_ok_iff {concolic : Bool} :
    argumentMark n = .ok concolic ↔ DeclaresMark n concolic := by
  rw [argumentMark, DeclaresMark, lacks_iff, says_iff, says_iff]
  rcases n.attribute? "concolic" with _ | raw
  · simp [eq_comm]
  · simp [flag_eq_ok_iff, Text.trim_eq_iff]

lemma admitArgument_eq_ok_iff {index size : Nat} {concolic : Bool} {value : Bytes} :
    admitArgument index size concolic value = .ok i ↔
      ∃ a : Argument, i = .argument a ∧ a.index = index ∧ 1 ≤ index ∧
        a.size = max size value.length ∧ a.literal = (if concolic then none else some value) ∧
        (concolic = true → 1 ≤ a.size) ∧ a.size ≤ 2 ^ 31 - 1 := by
  constructor
  · intro h
    unfold admitArgument at h
    split at h
    · exact absurd h (by simp)
    rename_i hindex
    cases concolic with
    | false =>
      obtain ⟨hnarrow, rfl⟩ := checkWidth_eq_ok_iff.mp h
      exact ⟨_, rfl, rfl, Nat.one_le_iff_ne_zero.mpr hindex, rfl, rfl, by simp, hnarrow⟩
    | true =>
      simp only [if_true] at h
      split at h
      · exact absurd h (by simp)
      rename_i hsize
      obtain ⟨hnarrow, rfl⟩ := checkWidth_eq_ok_iff.mp h
      exact ⟨_, rfl, rfl, Nat.one_le_iff_ne_zero.mpr hindex, rfl, rfl,
        fun _ => Nat.one_le_iff_ne_zero.mpr hsize, hnarrow⟩
  · rintro ⟨⟨index', size', literal⟩, rfl, rfl, hindex, rfl, rfl, hwide, hnarrow⟩
    rw [admitArgument, if_neg (Nat.one_le_iff_ne_zero.mp hindex)]
    cases concolic with
    | false => exact checkWidth_eq_ok_iff.mpr ⟨hnarrow, rfl⟩
    | true =>
      have hsize : (Argument.symbolic index' size value).size ≠ 0 :=
        Nat.one_le_iff_ne_zero.mp (hwide rfl)
      simp only [if_true, if_neg hsize]
      exact checkWidth_eq_ok_iff.mpr ⟨hnarrow, rfl⟩

/-- An argument is read from an element exactly if the element declares it. -/
lemma argumentOf_eq_ok_iff :
    argumentOf n = .ok i ↔ ∃ a, i = .argument a ∧ DeclaresArgument n a := by
  simp only [argumentOf_eq, except_bind_eq_ok_iff, required_eq_ok_iff, position_eq_ok_iff,
    argumentSize_eq_ok_iff, argumentMark_eq_ok_iff, admitArgument_eq_ok_iff]
  constructor
  · rintro ⟨raw, hraw, index, hindex, size, hsize, concolic, hmark, a, rfl, rfl, hpos, ha, hlit,
      hwide, hnarrow⟩
    exact ⟨a, rfl, ⟨raw, hraw, hindex⟩, hpos,
      ⟨size, concolic, _, hsize, hmark, declaresValue_iff.mpr rfl, ha, hlit, hwide⟩, hnarrow⟩
  · rintro ⟨a, rfl, ⟨raw, hraw, hindex⟩, hpos,
      ⟨size, concolic, value, hsize, hmark, hvalue, ha, hlit, hwide⟩, hnarrow⟩
    obtain rfl := declaresValue_iff.mp hvalue
    exact ⟨raw, hraw, a.index, hindex, size, hsize, concolic, hmark, a, rfl, rfl, hpos, ha, hlit,
      hwide, hnarrow⟩

/-- A file is read from an element exactly if the element declares it. -/
lemma fileOf_eq_ok_iff : fileOf n = .ok i ↔ ∃ f, i = .file f ∧ DeclaresFile n f := by
  unfold fileOf
  simp only [except_bind_eq_ok_iff, required_eq_ok_iff, number_eq_ok_iff, flag_eq_ok_iff]
  constructor
  · rintro ⟨path, hpath, raw, hraw, size, hsize, mark, hmark, concolic, hconcolic, h⟩
    obtain ⟨-, rfl⟩ | ⟨hmark', rfl⟩ := hconcolic
    · exact absurd h (by simp)
    simp only [Bool.not_true, Bool.false_eq_true, if_false] at h
    split at h
    · exact absurd h (by simp)
    rename_i hzero
    obtain ⟨hnarrow, rfl⟩ := checkWidth_eq_ok_iff.mp h
    exact ⟨⟨path, size⟩, rfl, hpath, ⟨raw, hraw, hsize⟩, ⟨mark, hmark, hmark'⟩,
      Nat.one_le_iff_ne_zero.mpr hzero, hnarrow⟩
  · rintro ⟨⟨path, size⟩, rfl, hpath, ⟨raw, hraw, hsize⟩, ⟨mark, hmark, hmark'⟩, hwide, hnarrow⟩
    refine ⟨path, hpath, raw, hraw, size, hsize, mark, hmark, true, .inr ⟨hmark', rfl⟩, ?_⟩
    rw [if_neg (by simp), if_neg (Nat.one_le_iff_ne_zero.mp hwide)]
    exact checkWidth_eq_ok_iff.mpr ⟨hnarrow, rfl⟩

/-- A standard input is read from an element exactly if the element declares it; one of width
zero is none. -/
lemma standardInputOf_eq_ok_iff {found : Option Input} : standardInputOf n = .ok found ↔
    ∃ size, DeclaresStandardInput n size ∧
      found = if size = 0 then none else some (.standardInput size) := by
  unfold standardInputOf
  simp only [except_bind_eq_ok_iff, required_eq_ok_iff, number_eq_ok_iff, flag_eq_ok_iff]
  constructor
  · rintro ⟨raw, hraw, size, hsize, mark, hmark, concolic, hconcolic, h⟩
    obtain ⟨-, rfl⟩ | ⟨hmark', rfl⟩ := hconcolic
    · exact absurd h (by simp)
    simp only [Bool.not_true, Bool.false_eq_true, if_false] at h
    split at h
    · rename_i hzero
      exact ⟨size, ⟨⟨raw, hraw, hsize⟩, ⟨mark, hmark, hmark'⟩, by omega⟩,
        by rw [if_pos hzero, Except.ok.inj h]⟩
    · rename_i hzero
      obtain ⟨i, hi, rfl⟩ : ∃ i, checkWidth (.standardInput size) = .ok i ∧ found = some i := by
        rcases hcheck : checkWidth (.standardInput size) with e | i
        · rw [hcheck] at h
          exact absurd h (by simp [Except.map])
        · rw [hcheck] at h
          exact ⟨i, rfl, (Except.ok.inj h).symm⟩
      obtain ⟨hnarrow, rfl⟩ := checkWidth_eq_ok_iff.mp hi
      exact ⟨size, ⟨⟨raw, hraw, hsize⟩, ⟨mark, hmark, hmark'⟩, hnarrow⟩, by rw [if_neg hzero]⟩
  · rintro ⟨size, ⟨⟨raw, hraw, hsize⟩, ⟨mark, hmark, hmark'⟩, hnarrow⟩, rfl⟩
    refine ⟨raw, hraw, size, hsize, mark, hmark, true, .inr ⟨hmark', rfl⟩, ?_⟩
    have hcheck : checkWidth (.standardInput size) = .ok (.standardInput size) :=
      checkWidth_eq_ok_iff.mpr ⟨hnarrow, rfl⟩
    by_cases hzero : size = 0
    · simp [hzero]
    · simp [hzero, hcheck, Except.map]

/-! ## Elements with the same attributes -/

variable {n' : Node}

lemma argumentOf_congr (h : n.attribute? = n'.attribute?) : argumentOf n = argumentOf n' := by
  simp only [argumentOf, required, h]

lemma fileOf_congr (h : n.attribute? = n'.attribute?) : fileOf n = fileOf n' := by
  simp only [fileOf, required, h]

lemma standardInputOf_congr (h : n.attribute? = n'.attribute?) :
    standardInputOf n = standardInputOf n' := by
  simp only [standardInputOf, required, h]

end Concolic.Configuration
