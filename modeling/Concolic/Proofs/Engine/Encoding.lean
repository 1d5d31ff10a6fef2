/-
# Answers as lines

What an engine answers is written as a value, and the value as a line: an answer under `ok`,
with numbers for handles and descriptors and digit pairs in either case for bytes, and the
reason for a refusal under `error`.  A bridge that is sent such a line comes to the answer, and
to a refusal for any failure.
-/
import Concolic.Proofs.Engine.Lockstep
import Concolic.Proofs.Json.RoundTrip
import Concolic.Proofs.Text.Blank
import Concolic.Proofs.Text.Hex

namespace Concolic

open Bridge (newline)

/-- An object ends with its closing character. -/
lemma Json.exists_chars_object (fields : List (String × Json)) :
    ∃ cs, (Json.object fields).chars = cs ++ ['\x7d'] := by
  rw [chars_object]
  cases fields with
  | nil => exact ⟨['\x7b'], rfl⟩
  | cons f rest =>
    refine ⟨'\x7b' :: (fieldChars f ++ rest.flatMap fun g => ',' :: fieldChars g), ?_⟩
    rw [listed, following, ← List.append_assoc]
    rfl

namespace Reply

/-! ## Values -/

/-- What a call has been answered with as a value, given how bytes are spelled. -/
def payload (spell : Bytes → String) : (c : Call Nat Nat) → c.Answer → Json
  | .load _, project => .object [("project", .natural project)]
  | .entryState .., state => .object [("state", .natural state)]
  | .explore .., ⟨terminated, runnable⟩ =>
    .object [("terminated", .array (terminated.map .natural)),
      ("runnable", .array (runnable.map .natural))]
  | .solve .., bytes => .object [("bytes", .string (spell bytes))]
  | .lookupDescriptor .., none => .object [("fd", .null)]
  | .lookupDescriptor .., some descriptor => .object [("fd", .natural descriptor)]
  | .dumpDescriptor .., bytes => .object [("bytes", .string (spell bytes))]
  | .dumpPath .., bytes => .object [("bytes", .string (spell bytes))]

/-- What an engine has answered as a value.  Any failure is a refusal, for a reason that is
worded in some way. -/
def json (spell : Bytes → String) (wording : EngineError → String) {c : Call Nat Nat} :
    Except EngineError c.Answer → Json
  | .ok a => .object [("ok", payload spell c a)]
  | .error e => .object [("error", .string (wording e))]

/-- Bytes are spelled as digit pairs, in whatever case. -/
def IsSpelling (spell : Bytes → String) : Prop := ∀ bytes, Hex.Spells (spell bytes).toList bytes

/-- The handle holds in 64 bits. -/
def IsHandle (n : Nat) : Prop := n < handleLimit

/-- Handles hold in 64 bits and descriptors in 32. -/
def Fits : (c : Call Nat Nat) → c.Answer → Prop
  | .load _, project => IsHandle project
  | .entryState .., state => IsHandle state
  | .explore .., ⟨terminated, runnable⟩ => ∀ s ∈ terminated ++ runnable, IsHandle s
  | .lookupDescriptor .., none => True
  | .lookupDescriptor .., some descriptor => descriptor < descriptorLimit
  | .solve .., _ | .dumpDescriptor .., _ | .dumpPath .., _ => True

lemma naturalBelow?_of_lt {n limit : Nat} (h : n < limit) :
    Json.naturalBelow? limit (.natural n) = some n := if_pos h

lemma handles?_naturals {ns : List Nat} (h : ∀ n ∈ ns, IsHandle n) :
    handles? (.array (ns.map .natural)) = some ns := by
  show (ns.map Json.natural).mapM (Json.naturalBelow? handleLimit) = some ns
  induction ns with
  | nil => rfl
  | cons n ns ih =>
    obtain ⟨hn, hns⟩ := List.forall_mem_cons.mp h
    rw [List.map_cons, List.mapM_cons, naturalBelow?_of_lt hn, ih hns]
    rfl

variable {spell : Bytes → String} {wording : EngineError → String} {c : Call Nat Nat}

lemma bytes_of_isSpelling (h : IsSpelling spell) (b : Bytes) :
    bytes (.object [("bytes", .string (spell b))]) = .ok b := by
  have hfield : (onlyField? "bytes" (.object [("bytes", .string (spell b))])).bind Json.string?
      = some (spell b) := rfl
  rw [bytes, hfield]
  simp only [wellFormed, Hex.decode_of_spells (h b)]

/-- A value is taken for the answer that it is. -/
lemma decode_payload (h : IsSpelling spell) {a : c.Answer} (hfits : Fits c a) :
    decode c (payload spell c a) = .ok a := by
  cases c with
  | load executable =>
    show wellFormed (Json.naturalBelow? handleLimit (.natural a)) = .ok a
    rw [naturalBelow?_of_lt hfits]
    rfl
  | entryState project arguments files =>
    show wellFormed (Json.naturalBelow? handleLimit (.natural a)) = .ok a
    rw [naturalBelow?_of_lt hfits]
    rfl
  | explore state policy =>
    obtain ⟨terminated, runnable⟩ := a
    obtain ⟨hterminated, hrunnable⟩ := List.forall_mem_append.mp hfits
    show wellFormed (do
      let terminated ← handles? (.array (terminated.map .natural))
      let runnable ← handles? (.array (runnable.map .natural))
      pure (Exploration.mk terminated runnable)) = .ok ⟨terminated, runnable⟩
    rw [handles?_naturals hterminated, handles?_naturals hrunnable]
    rfl
  | lookupDescriptor state path =>
    rcases a with _ | descriptor
    · rfl
    · show wellFormed ((Json.naturalBelow? descriptorLimit (.natural descriptor)).map some)
        = .ok (some descriptor)
      rw [naturalBelow?_of_lt hfits]
      rfl
  | solve => exact bytes_of_isSpelling h a
  | dumpDescriptor => exact bytes_of_isSpelling h a
  | dumpPath => exact bytes_of_isSpelling h a

/-! ## Lines -/

/-- The bytes are a line with the value on it, in whatever form the value is written. -/
structure Holds (line : Bytes) (j : Json) : Prop where
  isLine : ∃ body, newline ∉ body ∧ line = body ++ [newline]
  parses : ∃ text, Utf8.decode? line = some text ∧ Json.parse (Text.trimEnd text) = .ok j

/-- What a bridge makes of a failure of the engine behind it. -/
def refusal (wording : EngineError → String) (e : EngineError) : EngineError :=
  .rejected (wording e)

lemma ofLine_of_parse {text : String} {j : Json} {r : Reply}
    (hparse : Json.parse (Text.trimEnd text) = .ok j) (hr : ofJson? j = some r) :
    ofLine text = .ok r := by
  unfold ofLine
  rw [hparse]
  simp only [hr]

/-- A call makes of a line the answer that it holds. -/
lemma reading_of_holds {answer : Except EngineError c.Answer} {line : Bytes}
    (hspell : IsSpelling spell) (hfits : ∀ a, answer = .ok a → Fits c a)
    (hline : Holds line (json spell wording answer)) :
    c.reading (some line) = answer.mapError (refusal wording) := by
  obtain ⟨text, htext, hparse⟩ := hline.parses
  have hlineText : Bridge.lineText (some line) = .ok text := by
    rw [Bridge.lineText]
    simp only [htext]
  rw [Call.reading_of_text hlineText]
  unfold answerOf
  rcases answer with e | a
  · -- a failure has become the reason for a refusal
    have hofLine : ofLine text = .ok (.refused (wording e)) := ofLine_of_parse hparse rfl
    simp only [hofLine]
    rfl
  · have hofLine : ofLine text = .ok (.answered (payload spell c a)) := ofLine_of_parse hparse rfl
    simp only [hofLine]
    exact decode_payload hspell (hfits a rfl)

/-- A value in its compact form, with a line break behind it, is a line. -/
lemma holds_print {fields : List (String × Json)}
    (h : Json.Writable Json.nestingLimit (.object fields)) :
    Holds (Utf8.encode ((Json.object fields).print ++ "\n")) (.object fields) := by
  have hend : Utf8.encode "\n" = [newline] := by decide
  refine ⟨⟨Utf8.encode (Json.object fields).print, ?_, by rw [Utf8.encode_append, hend]⟩,
    ⟨_, Utf8.decode?_encode _, ?_⟩⟩
  · intro hmem
    exact Json.newline_notMem_print (.object fields) (Utf8.mem_of_mem_encode (by decide) hmem)
  · -- the line break is white space behind the value, and goes before it is read
    obtain ⟨cs, hcs⟩ := Json.exists_chars_object fields
    have htrim :
        Text.trimEnd ((Json.object fields).print ++ "\n") = (Json.object fields).print := by
      rw [Json.print, hcs]
      exact Text.trimEnd_line (by decide)
    rw [htrim]
    exact Json.parse_print h

/-- The value of an answer in its compact form, with a line break behind it. -/
def line (wording : EngineError → String) (answer : Except EngineError c.Answer) : Bytes :=
  Utf8.encode ((json Hex.encode wording answer).print ++ "\n")

lemma writable_naturals {depth : Nat} {ns : List Nat} (h : ∀ n ∈ ns, IsHandle n) :
    Json.Writable (depth + 1) (.array (ns.map .natural)) := by
  refine .array fun j hj => ?_
  obtain ⟨n, hn, rfl⟩ := List.mem_map.mp hj
  exact .natural (h n hn)

lemma writable_field {depth : Nat} {name : String} {j : Json} (h : Json.Writable depth j) :
    Json.Writable (depth + 1) (.object [(name, j)]) := by
  refine .object fun f hf => ?_
  obtain rfl := List.mem_singleton.mp hf
  exact h

/-- What fits can be written. -/
lemma writable_payload {depth : Nat} {a : c.Answer} (hfits : Fits c a) :
    Json.Writable (depth + 2) (payload spell c a) := by
  cases c with
  | load executable => exact writable_field (.natural hfits)
  | entryState project arguments files => exact writable_field (.natural hfits)
  | explore state policy =>
    obtain ⟨terminated, runnable⟩ := a
    obtain ⟨hterminated, hrunnable⟩ := List.forall_mem_append.mp hfits
    refine .object fun f hf => ?_
    rcases List.mem_cons.mp hf with rfl | hf
    · exact writable_naturals hterminated
    · obtain rfl := List.mem_singleton.mp hf
      exact writable_naturals hrunnable
  | lookupDescriptor state path =>
    rcases a with _ | descriptor
    · exact writable_field .null
    · exact writable_field (.natural (Nat.lt_trans hfits (by decide)))
  | solve => exact writable_field (.string _)
  | dumpDescriptor => exact writable_field (.string _)
  | dumpPath => exact writable_field (.string _)

/-- The line that is written for an answer holds it. -/
lemma holds_line {answer : Except EngineError c.Answer}
    (hfits : ∀ a, answer = .ok a → Fits c a) :
    Holds (line wording answer) (json Hex.encode wording answer) := by
  rcases answer with e | a
  · exact holds_print (writable_field (.string _))
  · exact holds_print (writable_field (writable_payload (hfits a rfl)))

end Reply

end Concolic
