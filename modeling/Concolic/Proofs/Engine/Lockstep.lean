/-
# Bridges keep in step

Every call sends one line and takes one line off the output, whatever that line says, so the
lines of the output belong to the calls one by one.  The argument has three parts:

* `Call.reading` is what a call makes of a line, or of the end of the output; of the call only
  the kind of its payload matters;
* `KeepsUp` says of a bridge that it goes on receiving lines and that nobody has to wait for
  its output; a call preserves it and drops the first line of what is still to be read;
* a session is a row of calls, so the lines are dropped in their order.
-/
import Concolic.Proofs.Engine.Line
import Concolic.Proofs.Json.Compact
import Mathlib.Logic.Function.Iterate

namespace Concolic

/-! ## What a call makes of a line -/

/-- The kinds of answers. -/
inductive Payload where
  /-- A program that has been loaded. -/
  | project
  /-- A state. -/
  | state
  /-- What an exploration has found. -/
  | exploration
  /-- Bytes. -/
  | bytes
  /-- A descriptor, if there is one. -/
  | descriptor
  deriving DecidableEq, Repr

/-- The kind of answer that a call asks for. -/
def Call.payload {P S : Type} : Call P S → Payload
  | .load _ => .project
  | .entryState .. => .state
  | .explore .. => .exploration
  | .solve .. => .bytes
  | .lookupDescriptor .. => .descriptor
  | .dumpDescriptor .. => .bytes
  | .dumpPath .. => .bytes

/-- The text of the next line of the output, if there is one. -/
def Bridge.lineText : Option Bytes → Except EngineError String
  | none => .error .closed
  | some line =>
    match Utf8.decode? line with
    | some text => .ok text
    | none => .error (.stream .notText)

/-- What is made of the next line of the output, given what is made of an answer. -/
def Reply.onLine {α : Type} (ofAnswer : Json → Except EngineError α) (line : Option Bytes) :
    Except EngineError α :=
  match Bridge.lineText line with
  | .error e => .error e
  | .ok text =>
    match ofLine text with
    | .error e => .error e
    | .ok (.refused reason) => .error (.rejected reason)
    | .ok (.answered payload) => ofAnswer payload

/-- What a call makes of the next line of the output. -/
def Call.reading (c : Call Nat Nat) : Option Bytes → Except EngineError c.Answer :=
  Reply.onLine (Reply.decode c)

lemma Call.reading_of_error {c : Call Nat Nat} {line : Option Bytes} {e : EngineError}
    (h : Bridge.lineText line = .error e) : c.reading line = .error e := by
  unfold reading Reply.onLine
  rw [h]

lemma Call.reading_of_text {c : Call Nat Nat} {line : Option Bytes} {text : String}
    (h : Bridge.lineText line = .ok text) : c.reading line = Reply.answerOf c text := by
  unfold reading Reply.onLine Reply.answerOf
  rcases hreply : Reply.ofLine text with e | ⟨payload⟩ | ⟨reason⟩ <;> simp only [h, hreply]

/-- Calls that ask for the same kind of answer make the same of every line. -/
lemma Call.reading_heq {c c' : Call Nat Nat} (h : c.payload = c'.payload) :
    HEq c.reading c'.reading := by
  cases c <;> cases c' <;> simp only [payload, reduceCtorEq] at h
  -- what is left are the pairs of calls that ask for the same kind of answer
  all_goals exact HEq.rfl

/-- A request stands on one line. -/
lemma Request.newline_notMem_text (r : Request) : '\n' ∉ r.text.toList :=
  Json.newline_notMem_print r.json

namespace Bridge

/-! ## Bridges that keep up -/

/-- What can still be read from a bridge. -/
def output (b : Bridge) : Bytes := b.unread ++ b.script.replies.flatten

/-- However many further requests it receives, the bridge has written that many lines and
`lead` more, or all that it has to say. -/
def Ahead (lead : Nat) (b : Bridge) : Prop :=
  ∀ n, n + lead ≤ (b.unread ++ (b.script.replies.take n).flatten).count newline ∨
    (b.script.replies.drop n).flatten = []

/-- The bridge is there to receive `n` requests and one more, and nobody has to wait for its
output. -/
structure KeepsUp (n : Nat) (b : Bridge) : Prop where
  receives : ∀ k ≤ n, (react^[k] b).isAlive = true
  ahead : b.Ahead 0

variable {b : Bridge} {n : Nat}

/-- A bridge that stays after its last output is there as long as it has output, or for ever if
it lingers. -/
lemma isAlive_iterate_react (halive : b.isAlive = true) (hstays : b.script.endsAfterLast = false)
    (hn : b.script.lingers = true ∨ n ≤ b.script.replies.length) :
    (react^[n] b).isAlive = true := by
  induction n generalizing b with
  | zero => exact halive
  | succ n ih =>
    rw [Function.iterate_succ_apply]
    rcases hreplies : b.script.replies with _ | ⟨reply, rest⟩
    · have hlingers : b.script.lingers = true := by simpa [hreplies] using hn
      exact ih (by simp [react, hreplies, hlingers]) (by simp [react, hreplies, hstays])
        (.inl (by simp [react, hreplies, hlingers]))
    · exact ih (by simp [react, hreplies, hstays]) (by simp [react, hreplies, hstays])
        (by simpa [react, hreplies] using hn)

/-- A bridge that answers every request with a line keeps up. -/
lemma keepsUp_new (command : String) {replies : List Bytes} {lingers : Bool}
    (h : ∀ r ∈ replies, newline ∈ r) (hn : lingers = true ∨ n ≤ replies.length) :
    (new command ⟨replies, false, lingers⟩).KeepsUp n := by
  have hstay : ∀ k ≤ n, lingers = true ∨ k ≤ replies.length :=
    fun k hk => hn.imp_right (Nat.le_trans hk)
  refine ⟨fun k hk => isAlive_iterate_react rfl rfl (hstay k hk), fun k => ?_⟩
  rcases Nat.le_total replies.length k with hk | hk
  · have hnone : (replies.drop k).flatten = [] := by
      rw [List.drop_eq_nil_of_le hk, List.flatten_nil]
    exact .inr hnone
  · -- each of the first replies has a line break
    have hcount : ∀ rs : List Bytes, (∀ r ∈ rs, newline ∈ r) →
        rs.length ≤ rs.flatten.count newline := by
      intro rs hrs
      induction rs with
      | nil => simp
      | cons r rs ih =>
        obtain ⟨hr, hrs⟩ := List.forall_mem_cons.mp hrs
        have hpos : 0 < r.count newline := List.count_pos_iff.mpr hr
        have hrest := ih hrs
        rw [List.flatten_cons, List.count_append, List.length_cons]
        omega
    have htaken := hcount (replies.take k) fun r hr => h r (List.mem_of_mem_take hr)
    rw [List.length_take, Nat.min_eq_left hk] at htaken
    exact .inl (by simpa [new] using htaken)

/-! ## Single steps -/

/-- Whether a bridge is there is a matter of its script alone. -/
lemma isAlive_iterate_congr {b b' : Bridge} (hscript : b'.script = b.script)
    (halive : b'.isAlive = b.isAlive) : (react^[n] b').isAlive = (react^[n] b).isAlive := by
  induction n generalizing b b' with
  | zero => exact halive
  | succ n ih =>
    rw [Function.iterate_succ_apply, Function.iterate_succ_apply]
    rcases hreplies : b.script.replies with _ | ⟨reply, rest⟩
    · exact ih (by simp [react, hscript, hreplies]) (by simp [react, hscript, hreplies])
    · exact ih (by simp [react, hscript, hreplies]) (by simp [react, hscript, hreplies])

/-- The reply to a request comes behind what has not been read; nothing else comes. -/
lemma Ahead.react (h : b.Ahead 0) : b.react.Ahead 1 := by
  intro n
  rcases hreplies : b.script.replies with _ | ⟨reply, rest⟩
  · simp [Bridge.react, hreplies]
  · have hn := h (n + 1)
    simpa [Bridge.react, hreplies, Nat.add_assoc] using hn

lemma output_react : b.react.output = b.output := by
  rcases hreplies : b.script.replies with _ | ⟨reply, rest⟩ <;> simp [react, output, hreplies]

lemma received_react : b.react.received = b.received := by
  rcases hreplies : b.script.replies with _ | ⟨reply, rest⟩ <;> simp [react, hreplies]

lemma readLine_of_nil (h : b.unread = []) : b.readLine = (lineText none, b) := by
  rw [readLine, h]
  rfl

lemma readLine_of_splitLine {line rest : Bytes} (hne : b.unread ≠ [])
    (hsplit : splitLine b.unread = (line, rest)) :
    b.readLine = (lineText (some line), { b with unread := rest }) := by
  rw [readLine, if_neg (by simpa using hne), hsplit, lineText]
  rcases htext : Utf8.decode? line with _ | text
  · simp only [htext]
  · simp only [htext]

/-- Reading takes the first line off the output, if there is one. -/
lemma Ahead.readLine (h : b.Ahead 1) : ∃ unread : Bytes,
    b.readLine = (lineText (lines b.output)[0]?, { b with unread := unread }) ∧
    lines ({ b with unread := unread } : Bridge).output = (lines b.output).tail ∧
    ({ b with unread := unread } : Bridge).Ahead 0 := by
  rcases Decidable.em (newline ∈ b.unread) with hmem | hmem
  · -- a whole line is there
    obtain ⟨line, rest, hunread, hline⟩ := List.eq_append_cons_of_mem hmem
    have hlines : lines b.output
        = (line ++ [newline]) :: lines (rest ++ b.script.replies.flatten) := by
      rw [output, hunread, List.append_assoc, List.cons_append, lines_line hline]
    have hsplit : splitLine b.unread = (line ++ [newline], rest) := by
      rw [hunread, splitLine_line hline]
    have hread := readLine_of_splitLine (List.ne_nil_of_mem hmem) hsplit
    refine ⟨rest, by rw [hread, hlines]; rfl, by rw [hlines]; rfl, fun n => ?_⟩
    refine (h n).imp_left fun hn => ?_
    rw [hunread, List.append_assoc, List.cons_append, count_line hline] at hn
    exact Nat.le_of_succ_le_succ hn
  · -- nothing more will come, so what is there is the last line or nothing
    have hrest : b.script.replies.flatten = [] := by
      have h0 := h 0
      rw [List.take_zero, List.flatten_nil, List.append_nil,
        List.count_eq_zero_of_not_mem hmem] at h0
      simpa using h0
    have hnone : ∀ n, (b.script.replies.drop n).flatten = [] := by
      intro n
      simp only [List.flatten_eq_nil_iff] at hrest ⊢
      exact fun reply hreply => hrest reply (List.mem_of_mem_drop hreply)
    have houtput : b.output = b.unread := by rw [output, hrest, List.append_nil]
    have hempty : ({ b with unread := [] } : Bridge).output = [] := hrest
    rcases Decidable.em (b.unread = []) with hnil | hne
    · have hb : ({ b with unread := [] } : Bridge) = b := by rw [← hnil]
      refine ⟨[], ?_, ?_, fun n => .inr (hnone n)⟩
      · rw [readLine_of_nil hnil, houtput, hnil, hb]
        rfl
      · rw [hempty, houtput, hnil]
        rfl
    · have hread := readLine_of_splitLine hne (splitLine_last hmem)
      refine ⟨[], ?_, ?_, fun n => .inr (hnone n)⟩
      · rw [hread, houtput, lines_last hmem hne]
        rfl
      · rw [hempty, houtput, lines_last hmem hne]
        rfl

/-- A call comes to what it makes of the line that it reads. -/
lemma answer_of_readLine {c : Call Nat Nat} {line : Option Bytes} {sent after : Bridge}
    (hsend : b.send (.call c) = (.ok (), sent)) (hread : sent.readLine = (lineText line, after)) :
    b.answer c = (c.reading line, after) := by
  rw [Bridge.answer, hsend]
  rcases htext : lineText line with e | text
  · rw [Call.reading_of_error htext]
    simp only [hread, htext]
  · rw [Call.reading_of_text htext]
    simp only [hread, htext]

/-- **One call.**  It sends its line, makes what it makes of the first line of the output, and
takes this line off, whatever it says. -/
lemma KeepsUp.answer (h : b.KeepsUp (n + 1)) (c : Call Nat Nat) : ∃ b' : Bridge,
    b.answer c = (c.reading (lines b.output)[0]?, b') ∧
    b'.received = b.received ++ [(Request.call c).text] ∧
    lines b'.output = (lines b.output).tail ∧ b'.KeepsUp n := by
  let sent : Bridge := { b with received := b.received ++ [(Request.call c).text] }
  have hsend : b.send (.call c) = (.ok (), sent.react) := if_pos (h.receives 0 (Nat.zero_le _))
  have hreceives : ∀ k ≤ n, (react^[k] sent.react).isAlive = true := by
    intro k hk
    have hsame : (react^[k + 1] sent).isAlive = (react^[k + 1] b).isAlive :=
      isAlive_iterate_congr rfl rfl
    exact hsame.trans (h.receives (k + 1) (Nat.succ_le_succ hk))
  have hahead : sent.react.Ahead 1 := Ahead.react h.ahead
  have houtput : sent.react.output = b.output := output_react
  obtain ⟨unread, hread, hlines, hahead'⟩ := hahead.readLine
  rw [houtput] at hread hlines
  refine ⟨{ sent.react with unread := unread }, ?_, received_react, hlines, fun k hk => ?_,
    hahead'⟩
  · exact answer_of_readLine hsend hread
  · have hsame : (react^[k] ({ sent.react with unread := unread } : Bridge)).isAlive
        = (react^[k] sent.react).isAlive := isAlive_iterate_congr rfl rfl
    exact hsame.trans (hreceives k hk)

/-! ## Sessions -/

/-- Calls in a row: what each of them is answered, and the bridge after them. -/
def session (b : Bridge) : List (Call Nat Nat) → List (Exchange Nat Nat) × Bridge
  | [] => ([], b)
  | c :: rest =>
    let (result, b') := b.answer c
    let (others, last) := b'.session rest
    (⟨c, result⟩ :: others, last)

/-- Calls in a row take as many lines, one after the other. -/
lemma KeepsUp.session {calls : List (Call Nat Nat)} (h : b.KeepsUp calls.length) :
    (b.session calls).1 = calls.mapIdx (fun n c => ⟨c, c.reading (lines b.output)[n]?⟩) ∧
      (b.session calls).2.received = b.received ++ calls.map (fun c => (Request.call c).text) ∧
      lines (b.session calls).2.output = (lines b.output).drop calls.length ∧
      (b.session calls).2.KeepsUp 0 := by
  induction calls generalizing b with
  | nil => exact ⟨rfl, by simp [Bridge.session], by simp [Bridge.session], h⟩
  | cons c rest ih =>
    obtain ⟨b', hanswer, hreceived, hlines, h'⟩ := h.answer c
    obtain ⟨hresults, hreceived', hlines', hlast⟩ := ih h'
    have hcons : b.session (c :: rest)
        = (⟨c, c.reading (lines b.output)[0]?⟩ :: (b'.session rest).1, (b'.session rest).2) := by
      rw [Bridge.session, hanswer]
    have hnext : ∀ n, (lines b'.output)[n]? = (lines b.output)[n + 1]? := by
      intro n
      rw [hlines, List.getElem?_tail]
    rw [hcons]
    refine ⟨?_, ?_, ?_, hlast⟩
    · rw [List.mapIdx_cons, hresults]
      simp only [hnext]
    · simp [hreceived', hreceived]
    · rw [hlines', hlines, List.drop_tail, List.length_cons]

lemma KeepsUp.close (h : b.KeepsUp 0) :
    b.close.1.received = b.received ++ [Request.shutdown.text] := by
  have hsend : b.send .shutdown
      = (.ok (), react { b with received := b.received ++ [Request.shutdown.text] }) :=
    if_pos (h.receives 0 (Nat.le_refl 0))
  rw [Bridge.close, hsend]
  exact received_react

/-- **The two ends stay in step.**  A bridge that goes on receiving lines and does not keep
anyone waiting receives the calls in order, one line for each, and then the request to end.
The calls take the lines of its output one by one, whatever they say: what a call comes to is
told by the kind of its answer and its own line, or by the end of the output if there is none.
So another line in the place of one of them changes what this one call comes to and no other. -/
theorem session_in_lockstep {b : Bridge} {calls : List (Call Nat Nat)}
    (keeps : b.KeepsUp calls.length) :
    (b.session calls).2.close.1.received
        = b.received ++ (calls.map Request.call ++ [Request.shutdown]).map Request.text ∧
      (∀ r : Request, '\n' ∉ r.text.toList) ∧
      (b.session calls).1 = calls.mapIdx (fun n c => ⟨c, c.reading (lines b.output)[n]?⟩) ∧
      (∀ c c' : Call Nat Nat, c.payload = c'.payload → HEq c.reading c'.reading) ∧
      (∀ c : Call Nat Nat, c.reading none = .error .closed) ∧
      lines (b.session calls).2.output = (lines b.output).drop calls.length ∧
      ∀ (b' : Bridge) (k : Nat) (line : Bytes), b'.KeepsUp calls.length →
        lines b'.output = (lines b.output).set k line →
          ∀ n, n ≠ k → (b'.session calls).1[n]? = (b.session calls).1[n]? := by
  obtain ⟨hresults, hreceived, hlines, hlast⟩ := keeps.session
  refine ⟨?_, Request.newline_notMem_text, hresults, fun c c' => Call.reading_heq, fun c => rfl,
    hlines, fun b' k line keeps' hset n hn => ?_⟩
  · rw [hlast.close, hreceived, List.map_append, List.map_map, List.append_assoc]
    rfl
  · obtain ⟨hresults', -⟩ := keeps'.session
    rw [hresults, hresults', List.getElem?_mapIdx, List.getElem?_mapIdx, hset,
      List.getElem?_set_ne hn.symm]

/-- An answer, a refusal, an answer to another call, bytes that are badly written, a text that
is no reply, a blank line, and bytes that are no text. -/
def sampleReplies : List Bytes :=
  [Utf8.encode ((Json.object [("ok", .object [("project", .natural 7)])]).print ++ "\n"),
    Utf8.encode ((Json.object [("error", .string "no")]).print ++ "\n"),
    Utf8.encode ((Json.object [("ok", .object [("bytes", .natural 5)])]).print ++ "\n"),
    Utf8.encode ((Json.object [("ok", .object [("bytes", .string "0g")])]).print ++ "\n"),
    Utf8.encode "hello\n", Utf8.encode "\n", [0xff, newline]]

/-- A call for each reply, and one more. -/
def sampleCalls : List (Call Nat Nat) :=
  [.load (Path.ofString "a\nb"), .lookupDescriptor 1 "c", .solve 1 ⟨"d", 4⟩, .solve 1 ⟨"e", 4⟩,
    .explore 7 .singleFork, .dumpDescriptor 1 3, .entryState 7 [] [], .dumpPath 1 "c"]

/-- A bridge that has not been asked anything yet and never goes away. -/
def sampleBridge (replies : List Bytes) : Bridge := new "sh" ⟨replies, false, true⟩

/-- Whatever the lines say, each call fails or succeeds by its own line, and another first line
changes the first result only. -/
theorem session_in_lockstep_sample :
    (sampleBridge sampleReplies).KeepsUp sampleCalls.length ∧
      ((sampleBridge sampleReplies).session sampleCalls).2.close.1.received.length = 9 ∧
      ((sampleBridge sampleReplies).session sampleCalls).2.close.1.received.getLast?
        = some "\x7b\"op\":\"shutdown\"\x7d" ∧
      (((sampleBridge sampleReplies).session sampleCalls).1.map fun x =>
          match x.answer with
          | .ok _ => none
          | .error e => some e)
        = [none, some (.rejected "no"),
          some (.protocol (.illFormed "an answer to another call")),
          some (.protocol (.badBytes (.badDigit 103 1))),
          some (.protocol (.illFormed "unexpected input after 0 characters")),
          some (.protocol (.illFormed "unexpected input after 0 characters")),
          some (.stream .notText), some .closed] ∧
      ∀ n, n ≠ 0 → ((sampleBridge (sampleReplies.set 0 [newline])).session sampleCalls).1[n]?
        = ((sampleBridge sampleReplies).session sampleCalls).1[n]? := by
  have keeps : (sampleBridge sampleReplies).KeepsUp sampleCalls.length :=
    keepsUp_new _ (by decide +kernel) (.inl rfl)
  have keeps' : (sampleBridge (sampleReplies.set 0 [newline])).KeepsUp sampleCalls.length :=
    keepsUp_new _ (by decide +kernel) (.inl rfl)
  obtain ⟨hreceived, -, hresults, -, -, -, hset⟩ := session_in_lockstep keeps
  refine ⟨keeps, ?_, ?_, ?_, hset _ 0 [newline] keeps' (by decide +kernel)⟩
  · rw [hreceived]
    decide +kernel
  · rw [hreceived]
    decide +kernel
  · rw [hresults]
    decide +kernel

end Bridge

end Concolic
