/-
# Bridges are transparent

An engine may be asked directly, or through a bridge that replies with lines on which its
answers are written.  A harvest comes to the same in both cases, except that every failure of
the engine arrives as a refusal.

* `Engine.IsPlain` says which engines can be put behind a bridge;
* `Bridge.Replays` says of a bridge that its next lines are those for given exchanges, and a
  call takes the first of them;
* two actions that go on side by side, the first one with the engine and the second one with a
  bridge that replays the exchanges of the first, come to related values.

The last part is an induction on how the actions go on.  Up to any point the calls are the same
in both runs, so the bridge has used up the lines for just these calls.
-/
import Concolic.Proofs.Run.Collection
import Concolic.Proofs.Run.Refusal
import Mathlib.Data.List.Forall2

namespace Concolic

variable {P S σ τ α β : Type}

/-- The answers of the engine can be written, and it fails only because there is no solution
or because it refuses a request. -/
structure Engine.IsPlain (E : Engine Nat Nat σ) : Prop where
  fits : ∀ {c s a s'}, E.answer c s = (.ok a, s') → Reply.Fits c a
  concernsState : ∀ {c s e s'}, E.answer c s = (.error e, s') → e.ConcernsState

namespace Exchange

/-- The call has failed, or its answer can be written. -/
def Fits (q : Exchange Nat Nat) : Prop := ∀ a, q.answer = .ok a → Reply.Fits q.call a

/-- The line holds what the call has been answered with. -/
def SaidBy (wording : EngineError → String) (q : Exchange Nat Nat) (line : Bytes) : Prop :=
  ∃ spell, Reply.IsSpelling spell ∧ Reply.Holds line (Reply.json spell wording q.answer)

variable {wording : EngineError → String} {x : List (Exchange Nat Nat)}

lemma saidBy_line {q : Exchange Nat Nat} (h : q.Fits) :
    q.SaidBy wording (Reply.line wording q.answer) :=
  ⟨Hex.encode, Hex.spells_encode, Reply.holds_line h⟩

/-- There are lines for all exchanges that fit. -/
lemma saidBy_lines (h : ∀ q ∈ x, q.Fits) :
    List.Forall₂ (SaidBy wording) x (x.map fun q => Reply.line wording q.answer) := by
  rw [List.forall₂_map_right_iff, List.forall₂_same]
  exact fun q hq => saidBy_line (h q hq)

end Exchange

variable {wording : EngineError → String}

/-! ## Bridges that replay exchanges -/

namespace Bridge

/-- The bridge has nothing left to say about earlier requests, and it replies to each of the
next ones with one line, which says what is answered in the exchanges. -/
structure Replays (wording : EngineError → String) (x : List (Exchange Nat Nat)) (b : Bridge) :
    Prop where
  isAlive : x ≠ [] → b.isAlive = true
  unread : b.unread = []
  replies : ∃ lines, List.Forall₂ (Exchange.SaidBy wording) x lines ∧ lines <+: b.script.replies

/-- **One call.**  The line for the first exchange is sent, read whole, and taken for the
answer. -/
lemma Replays.answer {b : Bridge} {q : Exchange Nat Nat} {x : List (Exchange Nat Nat)}
    (h : b.Replays wording (q :: x)) (hq : q.Fits) : ∃ b' : Bridge,
    b.answer q.call = (q.answer.mapError (Reply.refusal wording), b') ∧
      b'.received = b.received ++ [(Request.call q.call).text] ∧ b'.Replays wording x := by
  obtain ⟨_, hsaid, rest, hreplies⟩ := h.replies
  obtain ⟨line, lines, ⟨spell, hspell, hholds⟩, hrest, rfl⟩ := List.forall₂_cons_left_iff.mp hsaid
  obtain ⟨body, hbody, hline⟩ := hholds.isLine
  let sent : Bridge := { b with received := b.received ++ [(Request.call q.call).text] }
  have hreact : sent.react =
      { sent with
        script := { b.script with replies := lines ++ rest }
        unread := line
        isAlive := !(b.script.endsAfterLast && (lines ++ rest).isEmpty) } := by
    simp [sent, react, ← hreplies, h.unread]
  have hsend : b.send (.call q.call) = (.ok (), sent.react) :=
    if_pos (h.isAlive (List.cons_ne_nil _ _))
  have hread : sent.react.readLine = (lineText (some line), { sent.react with unread := [] }) := by
    refine readLine_of_splitLine ?_ ?_
    · simp [hreact, hline]
    · rw [hreact, hline]
      exact splitLine_line hbody
  have hanswer := answer_of_readLine hsend hread
  rw [Reply.reading_of_holds hspell hq hholds] at hanswer
  refine ⟨_, hanswer, received_react, fun hne => ?_, rfl, lines, hrest, rest, ?_⟩
  · -- there is a further line, so the process has not ended
    have hlines : lines ≠ [] := by
      rintro rfl
      exact hne (List.forall₂_nil_right_iff.mp hrest)
    simp [hreact, hlines]
  · rw [hreact]

end Bridge

/-! ## Two runs side by side -/

/-- The answer of a plain engine, and what a bridge makes of the line for it. -/
lemma Engine.IsPlain.corresponds {E : Engine Nat Nat σ} (plain : E.IsPlain) {c : Call Nat Nat}
    {answer : Except EngineError c.Answer} {s s' : σ} (ha : E.answer c s = (answer, s')) :
    Corresponds (EngineError.Refused wording) Eq answer
      (answer.mapError (Reply.refusal wording)) := by
  rcases answer with e | a
  · exact .error ⟨plain.concernsState ha, rfl⟩
  · exact .ok rfl

lemma Action.run_ask {m : Machine P S τ} {h : Host P S τ} {c : Call P S}
    {next : Except EngineError c.Answer → Action P S α} {answer : Except EngineError c.Answer}
    {before after : τ} (hs : h.session = some before)
    (ha : m.engine.answer c before = (answer, after)) :
    (Action.step (.ask c) next).run m h = (next answer).run m
      { h with session := some after, exchanges := h.exchanges ++ [⟨c, answer⟩] } := by
  simp only [Action.run, Host.perform, hs, ha]

variable {m : Machine Nat Nat σ} {h : Host Nat Nat σ} {s : σ}

/-- **Two runs.**  The first one asks a plain engine.  If the second one asks a bridge that
replays the exchanges of the first, both come to related values. -/
lemma Action.Alongside.run {R : α → β → Prop} {x : Action Nat Nat α} {y : Action Nat Nat β}
    (hxy : Alongside wording R x y) (plain : m.engine.IsPlain) (hs : h.session = some s) :
    ∃ told, (x.run m h).2.exchanges = h.exchanges ++ told ∧ (∀ q ∈ told, q.Fits) ∧
      ∀ {m' : Machine Nat Nat Bridge} {g : Host Nat Nat Bridge} {b : Bridge},
        m'.engine = bridgeEngine → g.session = some b → b.Replays wording told →
          R (x.run m h).1 (y.run m' g).1 ∧ ∃ b', (y.run m' g).2.session = some b' ∧
            b'.received = b.received ++ told.map fun q => (Request.call q.call).text := by
  induction hxy generalizing h s with
  | done hab =>
    exact ⟨[], by simp [Action.run], by simp, fun _ hb _ => ⟨hab, _, hb, by simp⟩⟩
  | @tell event event' next next' _ ih =>
    obtain ⟨told, htold, hfits, hrun⟩ := ih (h := { h with events := h.events ++ [event] }) hs
    refine ⟨told, htold, hfits, fun {m' g b} hm' hb hreplays => ?_⟩
    exact hrun (g := { g with events := g.events ++ [event'] }) hm' hb hreplays
  | @ask c next next' _ ih =>
    rcases ha : m.engine.answer c s with ⟨answer, after⟩
    have hq : Exchange.Fits ⟨c, answer⟩ :=
      fun a hanswer => plain.fits (ha.trans (Prod.ext hanswer rfl))
    obtain ⟨told, htold, hfits, hrun⟩ := ih _ _ (plain.corresponds ha) (s := after)
      (h := { h with session := some after, exchanges := h.exchanges ++ [⟨c, answer⟩] }) rfl
    rw [Action.run_ask hs ha]
    refine ⟨⟨c, answer⟩ :: told, by simp [htold], List.forall_mem_cons.mpr ⟨hq, hfits⟩,
      fun {m' g b} hm' hb hreplays => ?_⟩
    -- the second run goes on with what the bridge makes of the line
    obtain ⟨b', hanswer, hreceived, hreplays'⟩ := hreplays.answer hq
    have hbridge : m'.engine.answer c b = b.answer c := by rw [hm', bridgeEngine]
    rw [Action.run_ask hb (hbridge.trans hanswer)]
    obtain ⟨hresult, b'', hb'', hreceived'⟩ := hrun hm' (g := { g with
      session := some b'
      exchanges := g.exchanges ++ [⟨c, answer.mapError (Reply.refusal wording)⟩] }) rfl hreplays'
    exact ⟨hresult, b'', hb'', by simp [hreceived', hreceived]⟩

/-- **Bridges are transparent.**  What a harvest from a plain engine exchanges can be put on
lines.  A harvest over a bridge that replies with such lines makes the same calls and comes to
the same: the same outcomes and the same number of skipped states, or the same error, with a
refusal in the place of a failure of the engine. -/
theorem harvest_over_bridge {policy : Policy} {c : Configuration} {r : Except RunError Harvest}
    {h' : Host Nat Nat σ} {x : List (Exchange Nat Nat)} (wording : EngineError → String)
    (plain : m.engine.IsPlain) (session : h.session = some s)
    (ran : (harvest policy c).runOn m h = (r, h')) (exchanged : h'.exchanges = h.exchanges ++ x) :
    List.Forall₂ (Exchange.SaidBy wording) x (x.map fun q => Reply.line wording q.answer) ∧
      ∀ (m' : Machine Nat Nat Bridge) (g : Host Nat Nat Bridge) (b : Bridge),
        m'.engine = bridgeEngine → g.session = some b → b.Replays wording x →
          ((harvest policy c).runOn m' g).1 = r.mapError (RunError.refused wording) ∧
            ∃ b', ((harvest policy c).runOn m' g).2.session = some b' ∧
              b'.received = b.received ++ x.map fun q => (Request.call q.call).text := by
  have halongside : Work.Alongside wording Eq (harvest policy c : Work Nat Nat Harvest)
    (harvest policy c) := alongside_harvest policy c
  obtain ⟨told, htold, hfits, hrun⟩ := Action.Alongside.run halongside plain session
  obtain ⟨rfl, rfl⟩ := Prod.mk.inj ran
  obtain rfl := List.append_cancel_left (htold.symm.trans exchanged)
  refine ⟨Exchange.saidBy_lines hfits, fun m' g b hm' hb hreplays => ?_⟩
  obtain ⟨hresult, hbridge⟩ := hrun hm' hb hreplays
  exact ⟨hresult.eq_mapError, hbridge⟩

/-- An engine that finds two states.  There is no solution in the second one. -/
def plainEngine : Engine Nat Nat Unit where
  answer c s :=
    match c with
    | .load _ => (.ok (1 : Nat), s)
    | .entryState .. => (.ok (2 : Nat), s)
    | .explore .. => (.ok ⟨[3], [4]⟩, s)
    | .solve state unknown =>
      (if state = 3 then .ok [1, 2, 3, 4, 255] else .error (.unsatisfiable unknown.name), s)
    | .lookupDescriptor _ path => (.ok (if path = "/in/data.txt" then some 5 else none), s)
    | .dumpDescriptor .. => (.ok [10, 11, 12, 13], s)
    | .dumpPath .. => (.ok [7], s)

lemma isPlain_plainEngine : plainEngine.IsPlain := by
  constructor
  · intro c s a s' ha
    cases c with
    | load executable =>
      obtain rfl : (1 : Nat) = a := Except.ok.inj (congrArg Prod.fst ha)
      show 1 < Reply.handleLimit
      decide
    | entryState project arguments files =>
      obtain rfl : (2 : Nat) = a := Except.ok.inj (congrArg Prod.fst ha)
      show 2 < Reply.handleLimit
      decide
    | explore state policy =>
      obtain rfl : ⟨[3], [4]⟩ = a := Except.ok.inj (congrArg Prod.fst ha)
      show ∀ s ∈ [3, 4], s < Reply.handleLimit
      decide
    | lookupDescriptor state path =>
      obtain rfl : (if path = "/in/data.txt" then some 5 else none) = a :=
        Except.ok.inj (congrArg Prod.fst ha)
      split
      · show 5 < Reply.descriptorLimit
        decide
      · trivial
    | solve | dumpDescriptor | dumpPath => trivial
  · intro c s e s' he
    cases c with
    | solve state unknown =>
      have hfail : (if state = 3 then .ok [1, 2, 3, 4, 255]
          else .error (.unsatisfiable unknown.name))
          = (.error e : Except EngineError Bytes) := congrArg Prod.fst he
      split at hfail
      · exact nomatch hfail
      · exact .inl ⟨_, (Except.error.inj hfail).symm⟩
    | load | entryState | explore | lookupDescriptor | dumpDescriptor | dumpPath =>
      exact nomatch congrArg Prod.fst he

/-- The host on which this engine runs. -/
def plainHost : Host Nat Nat Unit := { Host.new ⟨[], []⟩ "" with session := some () }

/-- A machine that starts no further engines. -/
def stillMachine (E : Engine Nat Nat σ) : Machine Nat Nat σ where
  launch _ _ := (.error (.engine .closed), [])
  engine := E
  close s := (s, [])

/-- A harvest from this engine. -/
def plainRun : Except RunError Harvest × Host Nat Nat Unit :=
  (harvest .singleFork sampleConfiguration).runOn (stillMachine plainEngine) plainHost

/-- The host on which a bridge replays exchanges. -/
def replayingHost (x : List (Exchange Nat Nat)) : Host Nat Nat Bridge :=
  { Host.new ⟨[], []⟩ "" with
    session := some (.new "sh"
      ⟨x.map fun q => Reply.line EngineError.message q.answer, true, false⟩) }

/-- What is found with this engine. -/
def plainHarvest : Harvest where
  outcomes := [⟨[⟨.argument, "argv_1", 4, [1, 2, 3, 4, 255]⟩,
    ⟨.file, "data.txt", 3, [10, 11, 12, 13]⟩, ⟨.standardInput, "crete-stdin", 2, [7]⟩]⟩]
  skipped := 1

/-- The second state is skipped, with the engine and also over a bridge. -/
theorem harvest_over_bridge_sample :
    plainEngine.IsPlain ∧ plainRun.1 = .ok plainHarvest ∧
      ((harvest .singleFork sampleConfiguration).runOn (stillMachine bridgeEngine)
        (replayingHost plainRun.2.exchanges)).1 = .ok plainHarvest := by
  have ran : plainRun.1 = .ok plainHarvest := by decide +kernel
  have hrun : (harvest .singleFork sampleConfiguration).runOn (stillMachine plainEngine) plainHost
      = (plainRun.1, plainRun.2) := rfl
  obtain ⟨hsaid, hover⟩ := harvest_over_bridge EngineError.message isPlain_plainEngine rfl hrun
    (List.nil_append _).symm
  obtain ⟨hresult, -⟩ := hover (stillMachine bridgeEngine)
    (replayingHost plainRun.2.exchanges) _ rfl rfl
    ⟨fun _ => rfl, rfl, _, hsaid, List.prefix_rfl⟩
  refine ⟨isPlain_plainEngine, ran, ?_⟩
  rw [hresult, ran]
  rfl

end Concolic
