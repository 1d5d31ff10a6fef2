/-
# Requests are told apart by their lines

A request is sent as the compact form of a value and a line break.  No line break stands in the
form, so what is sent falls into the lines that it was put together from.  The form tells the
value (`Json.print_injective`), and the value tells the request up to what it leaves out
(`Request.told`): of a path it has the text that is shown, of a budget the whole milliseconds.
-/
import Concolic.Proofs.Engine.Lockstep
import Concolic.Proofs.Json.Injective
import Concolic.Proofs.Text.Hex
import Mathlib.Data.List.Forall2

namespace Concolic

open Json (IsWhole)

/-! ## What a line tells -/

/-- The policy with its budget as it is told, in whole milliseconds that hold in 64 bits. -/
def Policy.told : Policy → Policy
  | .singleFork => .singleFork
  | .timeout budget => .timeout (.ofMilliseconds budget.wireMilliseconds)

/-- The request as its line tells it: the executable has the path that is shown, and the policy
is the one that is told. -/
def Request.told : Request → Request
  | .call (.load executable) => .call (.load (.ofString executable.display))
  | .call (.explore state policy) => .call (.explore state policy.told)
  | r => r

lemma Policy.timeout_told_eq_iff {d d' : Duration} :
    (Policy.timeout d).told = (Policy.timeout d').told ↔
      d.wireMilliseconds = d'.wireMilliseconds := by
  simp only [told, Policy.timeout.injEq, Duration.ofMilliseconds, Duration.mk.injEq]
  omega

/-! ## Requests as values -/

lemma Binding.json_injective : Function.Injective Binding.json := by
  intro x y h
  cases x with
  | concrete bytes =>
    cases y with
    | concrete bytes' =>
      have hdigits : Hex.encode bytes = Hex.encode bytes' := by simpa [json] using h
      -- digits are told apart by decoding them
      have hread := Hex.decode_encode bytes
      rw [hdigits, Hex.decode_encode] at hread
      rw [Except.ok.inj hread]
    | symbolic unknown => simp [json] at h
  | symbolic unknown =>
    cases y with
    | concrete bytes => simp [json] at h
    | symbolic unknown' =>
      obtain ⟨name, width⟩ := unknown
      obtain ⟨name', width'⟩ := unknown'
      simpa [json, Json.natural] using h

lemma SimulatedFile.json_injective : Function.Injective SimulatedFile.json := by
  rintro ⟨path, name, width⟩ ⟨path', name', width'⟩ h
  simpa [json, Json.natural, and_assoc] using h

lemma Policy.json_eq_iff {p q : Policy} : p.json = q.json ↔ p.told = q.told := by
  cases p with
  | singleFork => cases q <;> simp [json, told]
  | timeout d =>
    cases q with
    | singleFork => simp [json, told]
    | timeout d' =>
      rw [timeout_told_eq_iff]
      simp [json, Json.natural]

lemma Policy.isWhole_json (p : Policy) : IsWhole p.json := by
  cases p with
  | singleFork => exact .object (by simp [IsWhole.string])
  | timeout d => exact .object (by simp [IsWhole.string, IsWhole.natural])

lemma Binding.isWhole_json (x : Binding) : IsWhole x.json := by
  cases x with
  | concrete bytes => exact .object (by simp [IsWhole.string])
  | symbolic unknown => exact .object (by simp [IsWhole.string, IsWhole.natural])

lemma SimulatedFile.isWhole_json (f : SimulatedFile) : IsWhole f.json :=
  .object (by simp [IsWhole.string, IsWhole.natural])

lemma Path.ofString_display_eq_iff {p q : Path} :
    ofString p.display = ofString q.display ↔ p.display = q.display := by
  rw [ofString, ofString, Path.mk.injEq, Utf8.encode_injective.eq_iff]

namespace Request

/-- The value of a request tells the request. -/
lemma json_eq_iff {r r' : Request} : r.json = r'.json ↔ r.told = r'.told := by
  have harguments (x y : List Binding) : x.map Binding.json = y.map Binding.json ↔ x = y :=
    (List.map_injective_iff.mpr Binding.json_injective).eq_iff
  have hfiles (x y : List SimulatedFile) :
      x.map SimulatedFile.json = y.map SimulatedFile.json ↔ x = y :=
    (List.map_injective_iff.mpr SimulatedFile.json_injective).eq_iff
  have hunknown (u v : Unknown) : u.name = v.name ∧ u.width = v.width ↔ u = v := by
    cases u
    cases v
    simp
  -- requests of different kinds differ in the name of the operation
  rcases r with ⟨_ | _ | _ | _ | _ | _ | _⟩ | _ <;>
    rcases r' with ⟨_ | _ | _ | _ | _ | _ | _⟩ | _ <;>
    simp [json, told, Json.natural, Path.ofString_display_eq_iff, Policy.json_eq_iff, harguments,
      hfiles, hunknown]

/-- All numbers of a request are whole. -/
lemma isWhole_json (r : Request) : IsWhole r.json := by
  have harguments (x : List Binding) : IsWhole (.array (x.map Binding.json)) :=
    .array (List.forall_mem_map.mpr fun b _ => b.isWhole_json)
  have hfiles (x : List SimulatedFile) : IsWhole (.array (x.map SimulatedFile.json)) :=
    .array (List.forall_mem_map.mpr fun f _ => f.isWhole_json)
  rcases r with ⟨_ | _ | _ | _ | _ | _ | _⟩ | _
  all_goals
    exact .object (by simp [IsWhole.string, IsWhole.natural, harguments, hfiles,
      Policy.isWhole_json])

variable {r r' : Request}

lemma line_eq_iff : r.line = r'.line ↔ r.told = r'.told := by
  rw [line, line, String.append_left_inj, text, text, ← json_eq_iff]
  constructor
  · exact Json.print_injective r.isWhole_json r'.isWhole_json
  · exact congrArg Json.print

/-! ## Lines -/

lemma encode_line (r : Request) :
    Utf8.encode r.line = Utf8.encode r.text ++ [Bridge.newline] := by
  rw [line, Utf8.encode_append]
  rfl

lemma newline_notMem_encode_text (r : Request) : Bridge.newline ∉ Utf8.encode r.text :=
  fun h => r.newline_notMem_text (Utf8.mem_of_mem_encode (by decide) h)

/-- What is sent for requests one after the other. -/
def stream (rs : List Request) : Bytes := rs.flatMap fun r => Utf8.encode r.line

lemma lines_stream (rs : List Request) :
    Bridge.lines (stream rs) = rs.map fun r => Utf8.encode r.line := by
  induction rs with
  | nil => rfl
  | cons r rs ih =>
    have hstream : stream (r :: rs) = Utf8.encode r.text ++ Bridge.newline :: stream rs := by
      rw [stream, List.flatMap_cons, encode_line, List.append_assoc]
      rfl
    rw [hstream, Bridge.lines_line r.newline_notMem_encode_text, ih, List.map_cons, encode_line]

/-- Streams are equal if they tell the same of one request after the other. -/
lemma stream_eq_iff {rs rs' : List Request} :
    stream rs = stream rs' ↔ rs.map told = rs'.map told := by
  have hmap {α : Type} (f : Request → α) :
      rs.map f = rs'.map f ↔ List.Forall₂ (fun r r' => f r = f r') rs rs' := by
    rw [← List.forall₂_eq_eq_eq, List.forall₂_map_left_iff, List.forall₂_map_right_iff]
  have hlines : rs.map (fun r => Utf8.encode r.line) = rs'.map (fun r => Utf8.encode r.line) ↔
      rs.map told = rs'.map told := by
    rw [hmap, hmap]
    simp only [Utf8.encode_injective.eq_iff, line_eq_iff]
  rw [← hlines]
  constructor
  · intro h
    rw [← lines_stream, h, lines_stream]
  · intro h
    rw [stream, stream, List.flatMap_def, List.flatMap_def, h]

/-- A bridge that is there receives a request as its line. -/
lemma received_send (b : Bridge) (r : Request) :
    (b.send r).2.received = b.received ++ if b.isAlive then [r.text] else [] := by
  rw [Bridge.send]
  split
  · simp only [Bridge.react]
    split <;> rfl
  · exact (List.append_nil _).symm

/-- **Requests are framed and told apart by their lines.**  What a bridge receives is a text
without a line break in it, and the one that is sent behind it; as bytes it has one line break,
too.  Requests are sent in the same way exactly if they are the same, an executable counting as
the text of its path and the budget of a timeout as whole milliseconds, rounded down and at most
as large as 64 bits hold.  Nor do requests run into one another: a stream of them falls into
their lines, and tells all of them. -/
theorem line_framing :
    (∀ r : Request, r.line = r.text ++ "\n" ∧ '\n' ∉ r.text.toList ∧
        (∃ bytes, Utf8.encode r.line = bytes ++ [Bridge.newline] ∧ Bridge.newline ∉ bytes) ∧
        ∀ b : Bridge,
          (b.send r).2.received = b.received ++ if b.isAlive then [r.text] else []) ∧
      (∀ r r' : Request, r.line = r'.line ↔ r.told = r'.told) ∧
      (∀ rs : List Request, Bridge.lines (stream rs) = rs.map fun r => Utf8.encode r.line) ∧
      (∀ rs rs' : List Request, stream rs = stream rs' ↔ rs.map told = rs'.map told) ∧
      (∀ text : String, (call (.load (.ofString text))).told = call (.load (.ofString text))) ∧
      ∀ d d' : Duration, (Policy.timeout d).told = (Policy.timeout d').told ↔
        min (d.nanoseconds / 1000000) 18446744073709551615
          = min (d'.nanoseconds / 1000000) 18446744073709551615 := by
  refine ⟨fun r => ⟨rfl, r.newline_notMem_text,
      ⟨Utf8.encode r.text, r.encode_line, r.newline_notMem_encode_text⟩,
      fun b => received_send b r⟩,
    fun _ _ => line_eq_iff, lines_stream, fun _ _ => stream_eq_iff, ?_,
    fun _ _ => Policy.timeout_told_eq_iff⟩
  intro text
  have hdisplay : (Path.ofString text).display = text := Utf8.lossy_encode text
  rw [told, hdisplay]

/-- Quotes, backslashes and line breaks in a name stay within their string, so a name cannot
stand for further fields. -/
example : (call (.solve 4 ⟨"a\",\"width\":1\n", 8⟩)).line
    = "\x7b\"op\":\"solve\",\"state\":4,\"symbol\":\"a\\\",\\\"width\\\":1\\n\","
      ++ "\"width\":8\x7d\n" := by
  decide +kernel

end Request

end Concolic
