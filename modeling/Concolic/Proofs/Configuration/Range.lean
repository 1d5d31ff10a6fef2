/-
# Numbers out of range

A document may be acceptable but for one number: the position of an argument is negative, or the
size of an argument, a file or the standard input is more than a record can hold.  The number has
any number of digits.

How such a number is refused depends on the machine words.  A negative position is read as a
signed 64-bit number, and a size as an unsigned one; what is read is then found to be out of
range.  What does not fit is no number to the reader, so it is refused as malformed.

* The element is refused because of the number: it says all that the acceptable element says,
  and the error is that of the attribute (`argumentOf_of_negative`, `argumentOf_of_tooWide`,
  `fileOf_of_tooWide`, `standardInputOf_of_tooWide`).
* The document is refused because of the element: up to it, the reader does what it does with
  the acceptable document (`argument_decides`, `file_decides`, `standardInput_decides`).
-/
import Concolic.Proofs.Configuration.Loading
import Concolic.Proofs.Xml.Variation

namespace Concolic.Configuration

open Xml (Node)
open Numeral (IsNumeral decimal)

/-- The tree is accepted once the attribute, of one element of the name, has another value. -/
def AcceptedButFor (isFile : Path → Bool) (root : Node) (tag key raw : String) : Prop :=
  ∃ raw' root', root.Varies tag key raw raw' root' ∧ ∃ c, (ofTree isFile root').result = .ok c

/-- An element of this name declares an input that messages call by the second name. -/
inductive Calls (n : Node) : String → String → Prop
  /-- An argument is called by its position. -/
  | argument {index : Nat} (counts : Counts n "index" index) :
      Calls n "arg" (Argument.nameAt index)
  /-- A file is called by its path. -/
  | file {path : String} (reads : n.attribute? "path" = some path) : Calls n "file" path
  /-- There is one standard input. -/
  | standardInput : Calls n "stdin" standardInputName

/-- The error for a position below zero, by its amount. -/
def indexError (raw : String) (amount : Nat) : Error :=
  if amount ≤ 2 ^ 63 then .invalid (.negativeIndex (-amount))
  else .malformed (.notANumber "arg" "index" raw)

/-- The error for a size that no record can hold.  The size of an argument is shown without the
blanks around it. -/
def sizeError (tag name raw : String) (size : Nat) : Error :=
  if size < 2 ^ 64 then .invalid (.tooWide name size)
  else .malformed (.notANumber tag "size" (if tag = "arg" then Text.trim raw else raw))

variable {isFile : Path → Bool} {root root' n n' : Node} {tag element key raw raw' : String}
  {digits : List Char} {c : Configuration}

lemma Calls.reads_path {name : String} (h : Calls n "file" name) :
    n.attribute? "path" = some name := by
  generalize htag : "file" = tag at h
  cases h with
  | argument => exact absurd htag (by decide)
  | file reads => exact reads
  | standardInput => exact absurd htag (by decide)

/-! ## Attributes -/

lemma except_ok_bind {ε α β : Type} (a : α) (f : α → Except ε β) :
    (Except.ok a >>= f) = f a :=
  rfl

lemma except_error_bind {ε α β : Type} (e : ε) (f : α → Except ε β) :
    (Except.error e >>= f) = .error e :=
  rfl

lemma number_of_isNumeral (hdigits : IsNumeral digits) (hraw : (Text.trim raw).toList = digits) :
    number element key raw = if decimal digits < 2 ^ 64 then .ok (decimal digits)
      else .error (.malformed (.notANumber element key raw)) := by
  rw [number, hraw, hdigits.unsigned?_eq]
  by_cases hfits : decimal digits < 2 ^ 64
  · simp only [if_pos hfits]
  · simp only [if_neg hfits]

/-- A negative number that does not fit is tried again as one without a sign. -/
lemma position_of_negative (hdigits : IsNumeral digits) (hpos : 0 < decimal digits)
    (hraw : (Text.trim raw).toList = '-' :: digits) :
    position raw = .error (indexError raw (decimal digits)) := by
  rw [position, hraw, hdigits.signed?_minus, indexError]
  by_cases hfits : decimal digits ≤ 2 ^ 63
  · have hneg : -(decimal digits : Int) < 0 := by omega
    simp only [if_pos hfits, if_pos hneg]
  · simp only [if_neg hfits, number, hraw, Numeral.unsigned?_minus]

lemma checkWidth_of_tooWide {i : Input} (h : 2 ^ 31 - 1 < i.size) :
    checkWidth i = .error (.invalid (.tooWide i.name i.size)) :=
  if_pos h

/-! ## Elements -/

/-- The position is what is read first. -/
lemma argumentOf_of_negative (hdigits : IsNumeral digits) (hpos : 0 < decimal digits)
    (hraw : (Text.trim raw).toList = '-' :: digits) (hreads : n.attribute? "index" = some raw) :
    argumentOf n = .error (indexError raw (decimal digits)) := by
  rw [argumentOf_eq, required_eq_ok_iff.mpr (Node.attribute?_eq_some_iff.mp hreads), except_ok_bind,
    position_of_negative hdigits hpos hraw, except_error_bind]

lemma argumentSize_of_isNumeral (hdigits : IsNumeral digits)
    (hraw : (Text.trim raw).toList = digits) (hreads : n.attribute? "size" = some raw) :
    argumentSize n = number "arg" "size" (Text.trim raw) := by
  rw [argumentSize, hreads, Option.map_some]
  split
  · exact absurd ‹_› (by simp)
  · rename_i hblank
    rw [Option.some.inj hblank] at hraw
    exact absurd hraw.symm hdigits.ne_nil
  · rename_i hraw'
    rw [Option.some.inj hraw']

/-- An argument is as wide as its size if its value is no wider. -/
lemma admitArgument_of_tooWide {index size : Nat} {concolic : Bool} {value : Bytes}
    (hindex : 1 ≤ index) (hvalue : value.length ≤ 2 ^ 31 - 1) (hsize : 2 ^ 31 - 1 < size) :
    admitArgument index size concolic value
      = .error (.invalid (.tooWide (Argument.nameAt index) size)) := by
  have hmax : max size value.length = size := by omega
  rw [admitArgument, if_neg (Nat.one_le_iff_ne_zero.mp hindex)]
  cases concolic with
  | false =>
    have hwide : 2 ^ 31 - 1 < (Input.argument (.concrete index value size)).size := by
      simpa only [Input.size, Argument.concrete, hmax] using hsize
    rw [if_neg (by simp), checkWidth_of_tooWide hwide]
    simp only [Input.size, Input.name, Argument.name, Argument.concrete, hmax]
  | true =>
    have hwide : 2 ^ 31 - 1 < (Input.argument (.symbolic index size value)).size := by
      simpa only [Input.size, Argument.symbolic, hmax] using hsize
    have hne : (Argument.symbolic index size value).size ≠ 0 :=
      Nat.ne_of_gt (Nat.lt_of_le_of_lt (Nat.zero_le _) hwide)
    rw [if_pos rfl, if_neg hne, checkWidth_of_tooWide hwide]
    simp only [Input.size, Input.name, Argument.name, Argument.symbolic, hmax]

lemma argumentOf_of_tooWide {i : Input} (hdigits : IsNumeral digits)
    (hsize : 2 ^ 31 - 1 < decimal digits) (hraw : (Text.trim raw).toList = digits)
    (h : Node.Changed "arg" "size" raw raw' n n') (hok : argumentOf n' = .ok i) :
    ∃ name, Calls n "arg" name ∧
      argumentOf n = .error (sizeError "arg" name raw (decimal digits)) := by
  obtain ⟨a, -, ha⟩ := argumentOf_eq_ok_iff.mp hok
  obtain ⟨index, hindex, hspells⟩ := ha.counts
  obtain ⟨size, concolic, value, -, hmark, hvalue, hwidth, -⟩ := ha.declared
  have hindex' : n.HasAttribute "index" index := by
    rw [← Node.attribute?_eq_some_iff, h.others "index" (by decide)]
    exact Node.attribute?_eq_some_iff.mpr hindex
  have hmark' : argumentMark n = .ok concolic := by
    rw [argumentMark, h.others "concolic" (by decide)]
    exact argumentMark_eq_ok_iff.mpr hmark
  have hvalue' : Utf8.encode ((n.attribute? "value").getD "") = value := by
    rw [h.others "value" (by decide)]
    exact declaresValue_iff.mp hvalue
  have hshort : value.length ≤ 2 ^ 31 - 1 :=
    Nat.le_trans (hwidth ▸ Nat.le_max_right _ _) ha.narrow
  have hread : argumentOf n = (argumentSize n >>= fun size =>
      admitArgument a.index size concolic value) := by
    simp only [argumentOf_eq, required_eq_ok_iff.mpr hindex', position_eq_ok_iff.mpr hspells,
      hmark', hvalue', except_ok_bind]
  refine ⟨_, .argument ⟨index, hindex', hspells⟩, ?_⟩
  rw [hread, argumentSize_of_isNumeral hdigits hraw h.reads,
    number_of_isNumeral hdigits (by rw [Text.trim_trim, hraw]), sizeError]
  split
  · rw [except_ok_bind]
    exact admitArgument_of_tooWide ha.position hshort hsize
  · rw [except_error_bind, if_pos rfl]

lemma fileOf_of_tooWide {i : Input} (hdigits : IsNumeral digits)
    (hsize : 2 ^ 31 - 1 < decimal digits) (hraw : (Text.trim raw).toList = digits)
    (h : Node.Changed "file" "size" raw raw' n n') (hok : fileOf n' = .ok i) :
    ∃ name, Calls n "file" name ∧
      fileOf n = .error (sizeError "file" name raw (decimal digits)) := by
  obtain ⟨f, -, hf⟩ := fileOf_eq_ok_iff.mp hok
  obtain ⟨mark, hmark, htrue⟩ := hf.marked
  have hpath : n.attribute? "path" = some f.path :=
    (h.others "path" (by decide)).trans (Node.attribute?_eq_some_iff.mpr hf.path)
  have hsize' := Node.attribute?_eq_some_iff.mp h.reads
  have hmark' : n.HasAttribute "concolic" mark := by
    rw [← Node.attribute?_eq_some_iff, h.others "concolic" (by decide)]
    exact Node.attribute?_eq_some_iff.mpr hmark
  refine ⟨_, .file hpath, ?_⟩
  rw [fileOf, required_eq_ok_iff.mpr (Node.attribute?_eq_some_iff.mp hpath), except_ok_bind,
    required_eq_ok_iff.mpr hsize', except_ok_bind, number_of_isNumeral hdigits hraw, sizeError]
  split
  · have hwide : 2 ^ 31 - 1 < (Input.file ⟨f.path, decimal digits⟩).size := hsize
    rw [except_ok_bind, required_eq_ok_iff.mpr hmark', except_ok_bind,
      flag_eq_ok_iff.mpr (.inr ⟨htrue, rfl⟩), except_ok_bind, if_neg (by simp),
      if_neg (by omega), checkWidth_of_tooWide hwide]
    simp only [Input.name, Input.size]
  · rw [except_error_bind, if_neg (by decide)]

lemma standardInputOf_of_tooWide {found : Option Input} (hdigits : IsNumeral digits)
    (hsize : 2 ^ 31 - 1 < decimal digits) (hraw : (Text.trim raw).toList = digits)
    (h : Node.Changed "stdin" "size" raw raw' n n') (hok : standardInputOf n' = .ok found) :
    standardInputOf n = .error (sizeError "stdin" standardInputName raw (decimal digits)) := by
  obtain ⟨_, hn', -⟩ := standardInputOf_eq_ok_iff.mp hok
  obtain ⟨mark, hmark, htrue⟩ := hn'.marked
  have hsize' := Node.attribute?_eq_some_iff.mp h.reads
  have hmark' : n.HasAttribute "concolic" mark := by
    rw [← Node.attribute?_eq_some_iff, h.others "concolic" (by decide)]
    exact Node.attribute?_eq_some_iff.mpr hmark
  rw [standardInputOf, required_eq_ok_iff.mpr hsize', except_ok_bind,
    number_of_isNumeral hdigits hraw, sizeError]
  split
  · have hwide : 2 ^ 31 - 1 < (Input.standardInput (decimal digits)).size := hsize
    rw [except_ok_bind, required_eq_ok_iff.mpr hmark', except_ok_bind,
      flag_eq_ok_iff.mpr (.inr ⟨htrue, rfl⟩), except_ok_bind, if_neg (by simp),
      if_neg (by omega), checkWidth_of_tooWide hwide]
    simp only [Except.map, Input.name, Input.size]
  · rw [except_error_bind, if_neg (by decide)]

/-! ## Elements that are alike -/

lemma declareArgument_alike (c : Configuration) (n n' : Node) (h : n.Alike n') :
    declareArgument c n = declareArgument c n' :=
  declareArgument_congr c n n' (funext h.attribute?)

lemma declareFile_alike (c : Configuration) (n n' : Node) (h : n.Alike n') :
    declareFile c n = declareFile c n' :=
  declareFile_congr c n n' (funext h.attribute?)

/-- The program is named by the first of the elements. -/
lemma programText?_alike {l l' : List Node} (h : List.Forall₂ Node.Alike l l') :
    programText? l = programText? l' := by
  rcases h with _ | ⟨halike, -⟩
  · rfl
  · simp only [programText?, List.head?_cons, Option.map_some, halike.leadingText?]

/-! ## Trees -/

/-- What an accepted tree is read to, stage by stage.  The tree that it varies names the same
program. -/
lemma stages_of_varies (h : root.Varies tag key raw raw' root') (htag : tag ≠ "exec")
    (hok : (ofTree isFile root').result = .ok c) :
    ∃ executable c₁ c₂, (ofTree isFile root).result = (declareAll executable root).result ∧
      ((root'.elements "arg").foldlM declareArgument (new executable)).result = .ok c₁ ∧
      ((root'.elements "file").foldlM declareFile c₁).result = .ok c₂ ∧
      (declareStandardInput c₂ (root'.elements "stdin")).result = .ok c := by
  obtain ⟨executable, hexe, hok⟩ := Traced.result_bind_eq_ok_iff.mp hok
  split at hok
  · rename_i hfile
    obtain ⟨-, -, hok⟩ := Traced.result_bind_eq_ok_iff.mp hok
    obtain ⟨c₁, h₁, hok⟩ := Traced.result_bind_eq_ok_iff.mp hok
    obtain ⟨c₂, h₂, hok⟩ := Traced.result_bind_eq_ok_iff.mp hok
    refine ⟨executable, c₁, c₂, ?_, h₁, h₂, hok⟩
    have hexe' : executableOf root = .ok executable :=
      (executableOf_congr (programText?_alike (h.elements_of_ne htag))).trans hexe
    simp only [ofTree, Traced.result_bind, Traced.result_ofExcept, hexe', if_pos hfile,
      Traced.result_tell, Except.bind]
  · exact absurd hok (by simp)

/-- If one argument varies, the tree is refused if the argument is. -/
lemma argument_decides (h : root.Varies "arg" key raw raw' root')
    (hok : (ofTree isFile root').result = .ok c) :
    ∃ n ∈ root.elements "arg", ∃ n', Node.Changed "arg" key raw raw' n n' ∧
      (∃ i, argumentOf n' = .ok i) ∧
      ∀ e, argumentOf n = .error e → (ofTree isFile root).result = .error e := by
  obtain ⟨executable, c₁, c₂, hroot, h₁, -, -⟩ := stages_of_varies h (by decide) hok
  obtain ⟨l, n, r, l', n', r', hl, hl', halike, -, hchanged⟩ := h.elements
  rw [hl'] at h₁
  obtain ⟨b₁, b₂, hn', herror⟩ := Traced.result_foldlM_changed declareArgument_alike halike h₁
  obtain ⟨i, hi, -⟩ := Traced.result_bind_eq_ok_iff.mp hn'
  refine ⟨n, by simp [hl], n', hchanged, ⟨i, hi⟩, fun e he => ?_⟩
  have hn : (declareArgument b₁ n).result = .error e := by
    simp only [declareArgument, Traced.result_bind, Traced.result_ofExcept, he, Except.bind]
  rw [hroot]
  simp only [declareAll, Traced.result_bind, hl, herror n r e hn, Except.bind]

/-- If one file varies, the arguments are read as before, and the tree is refused if the file
is. -/
lemma file_decides (h : root.Varies "file" key raw raw' root')
    (hok : (ofTree isFile root').result = .ok c) :
    ∃ n ∈ root.elements "file", ∃ n', Node.Changed "file" key raw raw' n n' ∧
      (∃ i, fileOf n' = .ok i) ∧
      ∀ e, fileOf n = .error e → (ofTree isFile root).result = .error e := by
  obtain ⟨executable, c₁, c₂, hroot, h₁, h₂, -⟩ := stages_of_varies h (by decide) hok
  obtain ⟨l, n, r, l', n', r', hl, hl', halike, -, hchanged⟩ := h.elements
  rw [hl'] at h₂
  obtain ⟨b₁, b₂, hn', herror⟩ := Traced.result_foldlM_changed declareFile_alike halike h₂
  obtain ⟨i, hi, -⟩ := Traced.result_bind_eq_ok_iff.mp hn'
  refine ⟨n, by simp [hl], n', hchanged, ⟨i, hi⟩, fun e he => ?_⟩
  have hn : (declareFile b₁ n).result = .error e := by
    simp only [declareFile, Traced.result_bind, Traced.result_ofExcept, he, Except.bind]
  have hother : List.Forall₂ Node.Alike (root.elements "arg") (root'.elements "arg") :=
    h.elements_of_ne (by decide)
  have harguments := Traced.foldlM_congr declareArgument_alike hother (new executable)
  rw [hroot]
  simp only [declareAll, Traced.result_bind, harguments, h₁, hl, herror n r e hn, Except.bind]

/-- If the standard input varies, the arguments and the files are read as before, and the tree is
refused if the standard input is. -/
lemma standardInput_decides (h : root.Varies "stdin" key raw raw' root')
    (hok : (ofTree isFile root').result = .ok c) :
    ∃ n ∈ root.elements "stdin", ∃ n', Node.Changed "stdin" key raw raw' n n' ∧
      (∃ found, standardInputOf n' = .ok found) ∧
      ∀ e, standardInputOf n = .error e → (ofTree isFile root).result = .error e := by
  obtain ⟨executable, c₁, c₂, hroot, h₁, h₂, h₃⟩ := stages_of_varies h (by decide) hok
  obtain ⟨l, n, r, l', n', r', hl, hl', halike, halike', hchanged⟩ := h.elements
  -- there is no other element for the standard input
  obtain ⟨rfl, rfl⟩ : l' = [] ∧ r' = [] := by
    rw [hl'] at h₃
    rcases l' with _ | ⟨x, _ | ⟨y, l'⟩⟩
    · rcases r' with _ | ⟨y, r'⟩
      · exact ⟨rfl, rfl⟩
      · exact absurd h₃ (by simp [declareStandardInput])
    · exact absurd h₃ (by simp [declareStandardInput])
    · exact absurd h₃ (by simp [declareStandardInput])
  cases halike
  cases halike'
  rw [hl'] at h₃
  obtain ⟨found, hfound, -⟩ := Traced.result_bind_eq_ok_iff.mp h₃
  refine ⟨n, by simp [hl], n', hchanged, ⟨found, hfound⟩, fun e he => ?_⟩
  have hother : List.Forall₂ Node.Alike (root.elements "arg") (root'.elements "arg") :=
    h.elements_of_ne (by decide)
  have hother' : List.Forall₂ Node.Alike (root.elements "file") (root'.elements "file") :=
    h.elements_of_ne (by decide)
  have harguments := Traced.foldlM_congr declareArgument_alike hother (new executable)
  have hfiles := Traced.foldlM_congr declareFile_alike hother' c₁
  have hn : (declareStandardInput c₂ [n]).result = .error e := by
    simp only [declareStandardInput, Traced.result_bind, Traced.result_ofExcept, he, Except.bind]
  rw [hroot]
  simp only [declareAll, Traced.result_bind, harguments, h₁, hfiles, h₂, hl, List.nil_append, hn,
    Except.bind]

/-! ## Documents -/

lemma ofTree_of_negative (hdigits : IsNumeral digits) (hpos : 0 < decimal digits)
    (hraw : (Text.trim raw).toList = '-' :: digits)
    (h : AcceptedButFor isFile root "arg" "index" raw) :
    (ofTree isFile root).result = .error (indexError raw (decimal digits)) := by
  obtain ⟨raw', root', hvaries, c, hok⟩ := h
  obtain ⟨n, -, n', hchanged, -, hdecides⟩ := argument_decides hvaries hok
  exact hdecides _ (argumentOf_of_negative hdigits hpos hraw hchanged.reads)

lemma ofTree_of_tooWide (hdigits : IsNumeral digits) (hsize : 2 ^ 31 - 1 < decimal digits)
    (hraw : (Text.trim raw).toList = digits) (htag : tag ∈ ["arg", "file", "stdin"])
    (h : AcceptedButFor isFile root tag "size" raw) :
    ∃ n ∈ root.elements tag, n.attribute? "size" = some raw ∧ ∃ name, Calls n tag name ∧
      (ofTree isFile root).result = .error (sizeError tag name raw (decimal digits)) := by
  obtain ⟨raw', root', hvaries, c, hok⟩ := h
  simp only [List.mem_cons, List.not_mem_nil, or_false] at htag
  rcases htag with rfl | rfl | rfl
  · obtain ⟨n, hn, n', hchanged, ⟨i, hi⟩, hdecides⟩ := argument_decides hvaries hok
    obtain ⟨name, hname, herror⟩ := argumentOf_of_tooWide hdigits hsize hraw hchanged hi
    exact ⟨n, hn, hchanged.reads, name, hname, hdecides _ herror⟩
  · obtain ⟨n, hn, n', hchanged, ⟨i, hi⟩, hdecides⟩ := file_decides hvaries hok
    obtain ⟨name, hname, herror⟩ := fileOf_of_tooWide hdigits hsize hraw hchanged hi
    exact ⟨n, hn, hchanged.reads, name, hname, hdecides _ herror⟩
  · obtain ⟨n, hn, n', hchanged, ⟨found, hfound⟩, hdecides⟩ := standardInput_decides hvaries hok
    exact ⟨n, hn, hchanged.reads, _, .standardInput,
      hdecides _ (standardInputOf_of_tooWide hdigits hsize hraw hchanged hfound)⟩

/-- **A number out of range is refused for what it is only within the machine words.**  Let a
document be acceptable but for one number with any number of digits.

* If this is a negative position of an argument, the document is refused: as invalid, with the
  position, down to -2 to the 63rd, and as malformed below.
* If this is a size of an argument, a file or the standard input above the limit of records, the
  document is refused: as invalid, with the name of the input and the size, if the size is below
  2 to the 64th, and as malformed from there on. -/
theorem ofDocument_out_of_range {isFile : Path → Bool} {document raw : String} {root : Node}
    {digits : List Char} (hroot : treeOf document = .ok root) (hdigits : IsNumeral digits) :
    ((Text.trim raw).toList = '-' :: digits → 0 < decimal digits →
      AcceptedButFor isFile root "arg" "index" raw →
      (ofDocument isFile document).result = .error (indexError raw (decimal digits))) ∧
    ∀ tag ∈ ["arg", "file", "stdin"], (Text.trim raw).toList = digits →
      2 ^ 31 - 1 < decimal digits → AcceptedButFor isFile root tag "size" raw →
      ∃ n ∈ root.elements tag, n.attribute? "size" = some raw ∧ ∃ name, Calls n tag name ∧
        (ofDocument isFile document).result
          = .error (sizeError tag name raw (decimal digits)) := by
  rw [ofDocument_of_treeOf hroot]
  exact ⟨fun hraw hpos h => ofTree_of_negative hdigits hpos hraw h,
    fun tag htag hraw hsize h => ofTree_of_tooWide hdigits hsize hraw htag h⟩

/-! ### One argument and one file -/

/-- A document that declares an argument with this position and a file of this size. -/
def numbersDocument (index size : String) : String :=
  "<c><exec><![CDATA[/t]]></exec><arg index=\"" ++ index ++ "\"/><file path=\"/a\" size=\"" ++ size
    ++ "\" concolic=\"true\"/></c>"

/-- The element for the argument. -/
def numbersArgument (index : String) : Node :=
  .element "arg" [⟨none, "index", index⟩] []

/-- The element for the file. -/
def numbersFile (size : String) : Node :=
  .element "file" [⟨none, "path", "/a"⟩, ⟨none, "size", size⟩, ⟨none, "concolic", "true"⟩] []

/-- The tree of the document. -/
def numbersTree (index size : String) : Node :=
  .element "c" []
    [.element "exec" [] [.text "/t"], numbersArgument index, numbersFile size]

lemma ok_numbersTree : ∃ c, (ofTree (fun _ => true) (numbersTree "1" "1")).result = .ok c :=
  ⟨⟨.ofString "/t", [programArgument "/t", .concrete 1 [] 0], [⟨"/a", 1⟩], none⟩,
    by decide +kernel⟩

lemma acceptedButFor_index (index : String) :
    AcceptedButFor (fun _ => true) (numbersTree index "1") "arg" "index" index := by
  have hargument : (numbersArgument index).Varies "arg" "index" index "1" (numbersArgument "1") :=
    @Node.Varies.here _ _ _ _ [] _ [] (by simp)
  exact ⟨"1", numbersTree "1" "1", @Node.Varies.inside _ _ _ _ _ _ [_] _ _ _ hargument,
    ok_numbersTree⟩

lemma acceptedButFor_size (size : String) :
    AcceptedButFor (fun _ => true) (numbersTree "1" size) "file" "size" size := by
  have hfile : (numbersFile size).Varies "file" "size" size "1" (numbersFile "1") :=
    @Node.Varies.here _ _ _ _ [_] _ [] (by simp)
  exact ⟨"1", numbersTree "1" "1", @Node.Varies.inside _ _ _ _ _ _ [_, _] _ _ _ hfile,
    ok_numbersTree⟩

/-- The least signed 64-bit number as a position, and the first size that no record can hold. -/
theorem ofDocument_out_of_range_sample :
    (ofDocument (fun _ => true) (numbersDocument "-9223372036854775808" "1")).result
      = .error (.invalid (.negativeIndex (-9223372036854775808))) ∧
    (ofDocument (fun _ => true) (numbersDocument "1" "2147483648")).result
      = .error (.invalid (.tooWide "/a" 2147483648)) := by
  constructor
  · have hroot : treeOf (numbersDocument "-9223372036854775808" "1")
        = .ok (numbersTree "-9223372036854775808" "1") := by decide +kernel
    have hdigits : IsNumeral "9223372036854775808".toList := by decide
    have hrefused := (ofDocument_out_of_range hroot hdigits).1 (by decide +kernel)
      (by decide +kernel) (acceptedButFor_index _)
    have herror : indexError "-9223372036854775808" (decimal "9223372036854775808".toList)
        = .invalid (.negativeIndex (-9223372036854775808)) := by decide +kernel
    exact hrefused.trans (congrArg _ herror)
  · have hroot : treeOf (numbersDocument "1" "2147483648")
        = .ok (numbersTree "1" "2147483648") := by decide +kernel
    have hdigits : IsNumeral "2147483648".toList := by decide
    obtain ⟨n, hn, -, name, hname, hrefused⟩ := (ofDocument_out_of_range hroot hdigits).2 "file"
      (by decide) (by decide +kernel) (by decide +kernel) (acceptedButFor_size _)
    obtain rfl : n = numbersFile "2147483648" := by
      have helements : (numbersTree "1" "2147483648").elements "file"
          = [numbersFile "2147483648"] := by decide +kernel
      rw [helements] at hn
      exact List.mem_singleton.mp hn
    obtain rfl : name = "/a" := (Option.some.inj hname.reads_path).symm
    have herror : sizeError "file" "/a" "2147483648" (decimal "2147483648".toList)
        = .invalid (.tooWide "/a" 2147483648) := by decide +kernel
    exact hrefused.trans (congrArg _ herror)

/-- Below the least signed 64-bit number a position is malformed, and so is a size from 2 to the
64th on. -/
theorem not_invalid_out_of_range :
    (¬ ∀ (isFile : Path → Bool) (document raw : String) (root : Node) (digits : List Char),
      treeOf document = .ok root → IsNumeral digits → (Text.trim raw).toList = '-' :: digits →
        0 < decimal digits → AcceptedButFor isFile root "arg" "index" raw →
        ∃ cause, (ofDocument isFile document).result = .error (.invalid cause)) ∧
    ¬ ∀ (isFile : Path → Bool) (document raw tag : String) (root : Node) (digits : List Char),
      treeOf document = .ok root → IsNumeral digits → tag ∈ ["arg", "file", "stdin"] →
        (Text.trim raw).toList = digits → 2 ^ 31 - 1 < decimal digits →
        AcceptedButFor isFile root tag "size" raw →
        ∃ cause, (ofDocument isFile document).result = .error (.invalid cause) := by
  constructor
  · intro h
    have hroot : treeOf (numbersDocument "-9223372036854775809" "1")
        = .ok (numbersTree "-9223372036854775809" "1") := by decide +kernel
    obtain ⟨cause, hcause⟩ := h (fun _ => true) _ _ _ "9223372036854775809".toList hroot
      (by decide) (by decide +kernel) (by decide +kernel) (acceptedButFor_index _)
    have hmalformed : (ofTree (fun _ => true) (numbersTree "-9223372036854775809" "1")).result
        = .error (.malformed (.notANumber "arg" "index" "-9223372036854775809")) := by
      decide +kernel
    rw [ofDocument_of_treeOf hroot, hmalformed] at hcause
    exact absurd hcause (by simp)
  · intro h
    have hroot : treeOf (numbersDocument "1" "18446744073709551616")
        = .ok (numbersTree "1" "18446744073709551616") := by decide +kernel
    obtain ⟨cause, hcause⟩ := h (fun _ => true) _ _ "file" _ "18446744073709551616".toList hroot
      (by decide) (by decide) (by decide +kernel) (by decide +kernel)
      (acceptedButFor_size _)
    have hmalformed : (ofTree (fun _ => true) (numbersTree "1" "18446744073709551616")).result
        = .error (.malformed (.notANumber "file" "size" "18446744073709551616")) := by
      decide +kernel
    rw [ofDocument_of_treeOf hroot, hmalformed] at hcause
    exact absurd hcause (by simp)

end Concolic.Configuration
