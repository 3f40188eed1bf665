/-
Module: FrontEnd.Proofs.LexerCalls
Layer: Proofs
Purpose: Lexers in use. However a caller mixes single reads, the iteration and findings of its own,
  it gets the tokens that lexing the whole text gives, in the same order; and the log keeps what the
  lexer and the caller report, in the order of the calls.
Imports: FrontEnd.Proofs.RunTransport
Trusted boundary: none
Main exports: Call, Event, Lexer.perform, Lexer.drive, Lexer.Expects, Lexer.Expects.nextToken,
  Stage, Stage.LeadsTo, Stage.perform, Stage.drive, FollowsLex, drive_follows_lex
Open obligations: none
-/
import FrontEnd.Proofs.RunTransport

namespace FrontEnd

open Lexer (isBlank)
open Text (utf8Size)

/-! ### Calls and what comes of them -/

/-- What a caller can ask of a lexer: one token, one token of the iteration, some or all further
    tokens of the iteration, or to log a finding of the caller. -/
inductive Call where
  | nextToken
  | next
  | take (count : Nat)
  | remaining
  | emit (diagnostic : Diagnostic)
deriving DecidableEq, Repr

/-- The finding that a call brings from outside. -/
def Call.foreign : Call → List Diagnostic
  | .emit diagnostic => [diagnostic]
  | _ => []

/-- A call with what the lexer reports of its own in it, which is nothing in a call that brings a
    finding. -/
structure Exchange where
  call : Call
  own : List Diagnostic
  apart : call.foreign = [] ∨ own = []

/-- What the log gains in a call. -/
def Exchange.logged (exchange : Exchange) : List Diagnostic :=
  exchange.own ++ exchange.call.foreign

/-- What a caller sees: a token that was read by itself, or what one step of the iteration gave. -/
inductive Event where
  | read (token : Token)
  | yielded (item : Option Token)
deriving DecidableEq, Repr

namespace Lexer

/-- One call. The iteration is asked for another token until there are enough of them, or there is
    none; so whoever takes fewer tokens than wanted has seen the iteration stop. -/
def perform (lexer : Lexer) : Call → Except Fault (List Event × Lexer)
  | .nextToken => do
      let (token, lexer) ← lexer.nextToken
      return ([.read token], lexer)
  | .next => do
      let (item, lexer) ← lexer.next?
      return ([.yielded item], lexer)
  | .take count => do
      let (tokens, lexer) ← lexer.take count
      let stop := if tokens.length < count then [.yielded none] else []
      return (tokens.map (fun token => .yielded (some token)) ++ stop, lexer)
  | .remaining => do
      let (tokens, lexer) ← lexer.remaining
      return (tokens.map (fun token => .yielded (some token)) ++ [.yielded none], lexer)
  | .emit diagnostic => return ([], lexer.emit diagnostic)

/-- Calls one after the other. -/
def drive (lexer : Lexer) : List Call → Except Fault (List Event × Lexer)
  | [] => return ([], lexer)
  | call :: calls => do
      let (events, lexer) ← lexer.perform call
      let (later, lexer) ← lexer.drive calls
      return (events ++ later, lexer)

end Lexer

/-- The token that an event hands out. -/
def Event.token? : Event → Option Token
  | .read token => some token
  | .yielded item => item

/-- The tokens that events hand out. -/
def handedOut (events : List Event) : List Token :=
  events.filterMap Event.token?

/-- The tokens without those that end a text. -/
def proper (tokens : List Token) : List Token :=
  tokens.filter fun token => !token.isEndOfFile

/-- The end of the text was handed out. -/
def Ended (events : List Event) : Prop :=
  ∃ token ∈ handedOut events, token.isEndOfFile = true

/-- The iteration has handed out the end of the text. -/
def IterationEnded (events : List Event) : Prop :=
  ∃ token, Event.yielded (some token) ∈ events ∧ token.isEndOfFile = true

/-! ### One token -/

namespace Lexer

/-- The lexer stands in a text, and certain tokens and findings are still to come. -/
structure Expects (lexer : Lexer) (text : List Char) (later : List Token)
    (foundLater : List Diagnostic) : Prop where
  run : ∃ before, text = before ++ lexer.rest ∧ lexer.position = utf8Size before ∧
    Run lexer.file lexer.reportedUntil before lexer.rest later foundLater

/-- What reading a token does to what is still to come: the end of the text comes again and again,
    any other token is gone, together with what was reported about it. -/
inductive Advances (text : List Char) (token : Token) (own : List Diagnostic) (next : Lexer) :
    List Token → List Diagnostic → Prop where
  | last (ends : token = .endOfFile (utf8Size text)) (silent : own = [])
      (again : next.Expects text [token] []) : Advances text token own next [token] []
  | further {later : List Token} {foundLater : List Diagnostic}
      (more : token.isEndOfFile = false) (expects : next.Expects text later foundLater) :
      Advances text token own next (token :: later) (own ++ foundLater)

theorem Advances.head_eq {text : List Char} {token : Token} {own foundLater : List Diagnostic}
    {next : Lexer} {later : List Token} (advances : Advances text token own next later foundLater) :
    later.head? = some token := by
  cases advances with
  | last => rfl
  | further => rfl

/-- A lexer that stands in a text that fits reads the first of the tokens to come. -/
theorem Expects.nextToken {lexer : Lexer} {text : List Char} {later : List Token}
    {foundLater : List Diagnostic} (expects : lexer.Expects text later foundLater)
    (fits : utf8Size text ≤ Offset.limit) :
    ∃ token next own, lexer.nextToken = .ok (token, next) ∧
      next.finished = lexer.finished ∧ next.log = lexer.log.emitAll own ∧
      lexer.position ≤ next.position ∧ next.position = token.span.stop ∧
      Advances text token own next later foundLater := by
  obtain ⟨before, rfl, position, run⟩ := expects.run
  rw [Text.utf8Size_append, ← position] at fits
  generalize left : lexer.rest = rest at run
  cases run with
  | finish blank =>
      rw [← left] at blank ⊢
      have place : utf8Size before + utf8Size lexer.rest = utf8Size (before ++ lexer.rest) :=
        (Text.utf8Size_append ..).symm
      refine ⟨_, _, [], nextToken_of_blank blank fits, rfl, rfl, Nat.le_add_right _ _, rfl, ?_⟩
      rw [position, place]
      refine .last rfl rfl ⟨before ++ lexer.rest, by simp, rfl, ?_⟩
      have again : Run lexer.file lexer.reportedUntil (before ++ lexer.rest) [] _ [] :=
        .finish (List.forall_mem_nil _)
      exact again
  | @step _ reported _ _ blanks lexeme error later found split blank shape verdict more =>
      rw [← left] at split
      obtain ⟨error', reported', verdict', step⟩ := nextToken_of_lexeme split blank shape fits
      rw [position] at verdict' step
      obtain ⟨rfl, rfl⟩ := verdict.unique verdict'
      refine ⟨_, _, error.toList.map (·.toDiagnostic lexer.file), step, rfl, rfl, ?_, rfl, ?_⟩
      · change lexer.position ≤ utf8Size before + utf8Size blanks + utf8Size lexeme.text
        omega
      · refine .further ?_ ⟨before ++ blanks ++ lexeme.text, ?_, ?_, more⟩
        · have kind := shape.kind_ne_endOfFile
          simpa [Token.isEndOfFile] using kind
        · simp [← left, split]
        · simp only [Text.utf8Size_append]

/-- The iteration goes on like single reads until it has handed out the end of the text. -/
theorem next?_of_unfinished {lexer next : Lexer} {token : Token}
    (unfinished : lexer.finished = false) (step : lexer.nextToken = .ok (token, next)) :
    lexer.next? = .ok (some token, { next with finished := token.isEndOfFile }) := by
  simp [next?, unfinished, step, bind, Except.bind, pure, Except.pure]

/-- Then it has stopped. -/
theorem next?_of_finished {lexer : Lexer} (finished : lexer.finished = true) :
    lexer.next? = .ok (none, lexer) := by
  simp [next?, finished, pure, Except.pure]

/-- The iteration gives nothing more, and so there are no tokens to collect. -/
theorem remaining_of_finished {lexer : Lexer} (finished : lexer.finished = true) :
    lexer.remaining = .ok ([], lexer) := by
  rw [remaining, if_pos finished]

end Lexer

/-! ### Events in order -/

@[simp] theorem handedOut_append (front back : List Event) :
    handedOut (front ++ back) = handedOut front ++ handedOut back :=
  List.filterMap_append

@[simp] theorem proper_append (front back : List Token) :
    proper (front ++ back) = proper front ++ proper back :=
  List.filter_append ..

theorem iterationEnded_append {front back : List Event} :
    IterationEnded (front ++ back) ↔ IterationEnded front ∨ IterationEnded back := by
  simp only [IterationEnded, List.mem_append, or_and_right, exists_or]

/-- An event may follow certain others in a text of some size: the iteration stops just when it has
    handed out the end of the text, which is always the same token, and nothing but this token is
    handed out after it. -/
structure Event.MayFollow (size : Nat) (earlier : List Event) (event : Event) : Prop where
  stops : ∀ item, event = .yielded item → (item = none ↔ IterationEnded earlier)
  ends : ∀ token, event.token? = some token → token.isEndOfFile = true →
    token = .endOfFile size
  stays : ∀ token, event.token? = some token → Ended earlier → token.isEndOfFile = true

/-- Each event may follow the ones before it. -/
def Orderly (size : Nat) (events : List Event) : Prop :=
  ∀ front event back, events = front ++ event :: back → event.MayFollow size front

theorem Orderly.concat {size : Nat} {events : List Event} {event : Event}
    (orderly : Orderly size events) (follows : event.MayFollow size events) :
    Orderly size (events ++ [event]) :=
  Text.forall_split_concat orderly follows

/-- Where the tokens that were handed out end. -/
def lastStop (events : List Event) : Nat :=
  ((handedOut events).getLast?.map fun token => token.span.stop).getD 0

theorem lastStop_concat {events : List Event} {event : Event} {token : Token}
    (hands : event.token? = some token) : lastStop (events ++ [event]) = token.span.stop := by
  simp [lastStop, handedOut, hands]

theorem lastStop_of_none {events : List Event} {event : Event} (hands : event.token? = none) :
    lastStop (events ++ [event]) = lastStop events := by
  simp [lastStop, handedOut, hands]

/-! ### What every call preserves -/

/-- A lexer in use over a text with certain tokens and findings, when certain events have happened
    and the lexer has reported certain findings of its own. -/
structure Stage (text : List Char) (tokens : List Token) (found : List Diagnostic)
    (events : List Event) (own : List Diagnostic) (lexer : Lexer) : Prop where
  /-- What was handed out and reported, and what is still to come, are those of the text. Once the
      text has ended, only its end is still to come. -/
  expects : ∃ later foundLater, lexer.Expects text later foundLater ∧
    tokens = proper (handedOut events) ++ later ∧ found = own ++ foundLater ∧
    (Ended events → later = [.endOfFile (utf8Size text)] ∧ foundLater = [])
  finished : lexer.finished = true ↔ IterationEnded events
  position : lexer.position = lastStop events
  orderly : Orderly (utf8Size text) events

namespace Stage

variable {text : List Char} {tokens : List Token} {found own : List Diagnostic}
  {events : List Event} {lexer : Lexer}

/-- A token that comes next in the text may be handed out next. -/
theorem mayFollow {next : Lexer} {token : Token} {event : Event}
    {added foundLater : List Diagnostic} {later : List Token}
    (advances : Lexer.Advances text token added next later foundLater)
    (ended : Ended events → later = [.endOfFile (utf8Size text)])
    (hands : event.token? = some token)
    (stops : ∀ item, event = .yielded item → (item = none ↔ IterationEnded events)) :
    event.MayFollow (utf8Size text) events := by
  refine ⟨stops, ?_, ?_⟩
  · rintro other same last
    obtain rfl := Option.some.inj (hands.symm.trans same)
    cases advances with
    | last ends => exact ends
    | further more =>
        rw [more] at last
        cases last
  · rintro other same past
    obtain rfl := Option.some.inj (hands.symm.trans same)
    have first := advances.head_eq
    rw [ended past] at first
    cases first
    rfl

/-- Reading a token hands out the next token of the text, in whatever event it is handed out. -/
theorem hand_out (stage : Stage text tokens found events own lexer)
    (fits : utf8Size text ≤ Offset.limit) :
    ∃ token next added, lexer.nextToken = .ok (token, next) ∧
      next.finished = lexer.finished ∧ next.log = lexer.log.emitAll added ∧
      lexer.position ≤ next.position ∧
      ∀ event finished, event.token? = some token →
        (∀ item, event = .yielded item → (item = none ↔ IterationEnded events)) →
        (finished = true ↔ IterationEnded (events ++ [event])) →
        Stage text tokens found (events ++ [event]) (own ++ added) { next with finished } := by
  obtain ⟨later, foundLater, expects, tokensEq, foundEq, ended⟩ := stage.expects
  obtain ⟨token, next, added, step, same, logged, forward, position, advances⟩ :=
    expects.nextToken fits
  refine ⟨token, next, added, step, same, logged, forward, ?_⟩
  intro event finished hands stops flag
  have follows := mayFollow advances (fun past => (ended past).1) hands stops
  have handed : handedOut (events ++ [event]) = handedOut events ++ [token] := by
    simp [handedOut, hands]
  refine ⟨?_, flag, position.trans (lastStop_concat hands).symm, stage.orderly.concat follows⟩
  rw [handed, proper_append]
  cases advances with
  | last ends silent again =>
      have last : token.isEndOfFile = true := by
        rw [ends]
        rfl
      refine ⟨[token], [], ⟨again.run⟩, ?_, ?_, ?_⟩
      · simpa [proper, last] using tokensEq
      · simpa [silent] using foundEq
      · intro _
        exact ⟨congrArg (fun token => [token]) ends, rfl⟩
  | @further later foundLater more expectsMore =>
      refine ⟨later, foundLater, ⟨expectsMore.run⟩, ?_, ?_, ?_⟩
      · simpa [proper, more] using tokensEq
      · simpa using foundEq
      · rintro ⟨other, member, last⟩
        rw [handed] at member
        rcases List.mem_append.mp member with before | now
        · obtain ⟨same, -⟩ := List.cons.inj (ended ⟨other, before, last⟩).1
          rw [same] at more
          cases more
        · rw [List.mem_singleton.mp now, more] at last
          cases last

/-- What a lexer at a stage leads to, when certain other events have happened and it has reported
    more of its own: it is at a later stage, and it has not moved back. -/
structure LeadsTo (stage : Stage text tokens found events own lexer) (new : List Event)
    (added : List Diagnostic) (next : Lexer) : Prop where
  logged : next.log = lexer.log.emitAll added
  forward : lexer.position ≤ next.position
  reached : Stage text tokens found (events ++ new) (own ++ added) next

theorem LeadsTo.refl (stage : Stage text tokens found events own lexer) :
    stage.LeadsTo [] [] lexer where
  logged := rfl
  forward := Nat.le_refl _
  reached := by simpa using stage

theorem LeadsTo.trans {stage : Stage text tokens found events own lexer} {new later : List Event}
    {added addedLater : List Diagnostic} {next final : Lexer} (first : stage.LeadsTo new added next)
    (second : first.reached.LeadsTo later addedLater final) :
    stage.LeadsTo (new ++ later) (added ++ addedLater) final where
  logged := by rw [second.logged, first.logged, Log.emitAll_append]
  forward := Nat.le_trans first.forward second.forward
  reached := by
    rw [← List.append_assoc, ← List.append_assoc]
    exact second.reached

/-- A single read. -/
theorem nextToken (stage : Stage text tokens found events own lexer)
    (fits : utf8Size text ≤ Offset.limit) :
    ∃ token next added, lexer.nextToken = .ok (token, next) ∧
      stage.LeadsTo [.read token] added next := by
  obtain ⟨token, next, added, step, same, logged, forward, handing⟩ := stage.hand_out fits
  have flag : next.finished = true ↔ IterationEnded (events ++ [.read token]) := by
    rw [same, stage.finished, iterationEnded_append]
    simp [IterationEnded]
  exact ⟨token, next, added, step, logged, forward,
    handing (.read token) next.finished rfl (by simp) flag⟩

/-- An iteration that has handed out the end of the text has nothing more to give. -/
theorem stop (stage : Stage text tokens found events own lexer) (past : IterationEnded events) :
    stage.LeadsTo [.yielded none] [] lexer := by
  have nothing : Event.token? (.yielded none) = none := rfl
  have handed : handedOut (events ++ [.yielded none]) = handedOut events := by
    simp [handedOut, nothing]
  refine ⟨rfl, Nat.le_refl _, ?_⟩
  rw [List.append_nil]
  constructor
  · obtain ⟨later, foundLater, expects, tokensEq, foundEq, ended⟩ := stage.expects
    refine ⟨later, foundLater, expects, ?_, foundEq, ?_⟩
    · rw [handed]
      exact tokensEq
    · intro now
      rw [Ended, handed] at now
      exact ended now
  · rw [stage.finished, iterationEnded_append]
    simp [IterationEnded]
  · rw [lastStop_of_none nothing, stage.position]
  · apply stage.orderly.concat
    constructor
    · rintro item ⟨⟩
      simp [past]
    · rintro token ⟨⟩
    · rintro token ⟨⟩

/-- An iteration that goes on hands out the next token of the text. -/
theorem yield (stage : Stage text tokens found events own lexer)
    (fits : utf8Size text ≤ Offset.limit) (unfinished : lexer.finished = false) :
    ∃ token next added, lexer.nextToken = .ok (token, next) ∧ next.finished = false ∧
      stage.LeadsTo [.yielded (some token)] added { next with finished := token.isEndOfFile } := by
  have going : ¬ IterationEnded events := by
    rw [← stage.finished, unfinished]
    exact Bool.false_ne_true
  obtain ⟨token, next, added, step, same, logged, forward, handing⟩ := stage.hand_out fits
  refine ⟨token, next, added, step, same.trans unfinished, logged, forward, ?_⟩
  apply handing (.yielded (some token)) token.isEndOfFile rfl
  · rintro item ⟨⟩
    simp [going]
  · rw [iterationEnded_append, or_iff_right going]
    simp [IterationEnded]

/-- One step of the iteration. -/
theorem next (stage : Stage text tokens found events own lexer)
    (fits : utf8Size text ≤ Offset.limit) :
    ∃ item next added, lexer.next? = .ok (item, next) ∧
      stage.LeadsTo [.yielded item] added next := by
  cases flag : lexer.finished with
  | true =>
      exact ⟨none, lexer, [], Lexer.next?_of_finished flag, stage.stop (stage.finished.mp flag)⟩
  | false =>
      obtain ⟨token, next, added, step, -, leads⟩ := stage.yield fits flag
      exact ⟨some token, _, added, Lexer.next?_of_unfinished flag step, leads⟩

/-- Some steps of the iteration, up to its stop. -/
theorem take (stage : Stage text tokens found events own lexer)
    (fits : utf8Size text ≤ Offset.limit) (count : Nat) :
    ∃ handed next added, lexer.take count = .ok (handed, next) ∧
      stage.LeadsTo
        (handed.map (fun token => .yielded (some token))
          ++ if handed.length < count then [.yielded none] else [])
        added next := by
  induction count generalizing events own lexer with
  | zero =>
      exact ⟨[], lexer, [], rfl, LeadsTo.refl stage⟩
  | succ count ih =>
      obtain ⟨item, next, added, step, leads⟩ := stage.next fits
      cases item with
      | none =>
          refine ⟨[], next, added, ?_, by simpa using leads⟩
          simp [Lexer.take, step, bind, Except.bind, pure, Except.pure]
      | some token =>
          obtain ⟨handed, last, addedLater, taken, leadsLater⟩ := ih leads.reached
          refine ⟨token :: handed, last, added ++ addedLater, ?_, ?_⟩
          · simp [Lexer.take, step, taken, bind, Except.bind, pure, Except.pure]
          · simpa using leads.trans leadsLater

/-- All steps of the iteration, up to its stop. -/
theorem remaining (stage : Stage text tokens found events own lexer)
    (fits : utf8Size text ≤ Offset.limit) :
    ∃ handed next added, lexer.remaining = .ok (handed, next) ∧
      stage.LeadsTo (handed.map (fun token => .yielded (some token)) ++ [.yielded none])
        added next := by
  induction size : lexer.rest.length using Nat.strong_induction_on
    generalizing events own lexer with
  | _ length ih =>
      cases flag : lexer.finished with
      | true =>
          exact ⟨[], lexer, [], Lexer.remaining_of_finished flag,
            stage.stop (stage.finished.mp flag)⟩
      | false =>
          obtain ⟨token, next, added, step, unfinished, leads⟩ := stage.yield fits flag
          cases last : token.isEndOfFile with
          | true =>
              rw [last] at leads
              have stopped := leads.reached.stop (leads.reached.finished.mp rfl)
              refine ⟨[token], _, added, Lexer.remaining_of_last flag step last, ?_⟩
              simpa using leads.trans stopped
          | false =>
              have shorter : next.rest.length < length := by
                rw [← size]
                exact Lexer.nextToken_rest_length_lt step last
              rw [last, ← unfinished] at leads
              obtain ⟨handed, final, addedLater, taken, leadsLater⟩ :=
                ih next.rest.length shorter leads.reached rfl
              refine ⟨token :: handed, final, added ++ addedLater,
                Lexer.remaining_of_step flag step last taken, ?_⟩
              simpa using leads.trans leadsLater

/-- The answer to a call, with what it adds to the log: what the lexer reports of its own, or the
    finding that the call brings. The lexer never moves back. -/
structure Answers (stage : Stage text tokens found events own lexer) (call : Call)
    (new : List Event) (added : List Diagnostic) (next : Lexer) : Prop where
  performed : lexer.perform call = .ok (new, next)
  logged : next.log.toList = lexer.log.toList ++ (added ++ call.foreign)
  apart : call.foreign = [] ∨ added = []
  forward : lexer.position ≤ next.position
  reached : Stage text tokens found (events ++ new) (own ++ added) next

/-- A call that brings no finding adds to the log just what the lexer reports. -/
theorem LeadsTo.answers {stage : Stage text tokens found events own lexer} {call : Call}
    {new : List Event} {added : List Diagnostic} {next : Lexer}
    (leads : stage.LeadsTo new added next) (silent : call.foreign = [])
    (performed : lexer.perform call = .ok (new, next)) : stage.Answers call new added next where
  performed := performed
  logged := by rw [leads.logged, Log.toList_emitAll, silent, List.append_nil]
  apart := Or.inl silent
  forward := leads.forward
  reached := leads.reached

/-- What a call preserves: it is answered, and the lexer is at a later stage. -/
theorem perform (stage : Stage text tokens found events own lexer)
    (fits : utf8Size text ≤ Offset.limit) (call : Call) :
    ∃ new added next, stage.Answers call new added next := by
  cases call with
  | nextToken =>
      obtain ⟨token, next, added, step, leads⟩ := stage.nextToken fits
      refine ⟨_, added, next, leads.answers rfl ?_⟩
      simp [Lexer.perform, step, bind, Except.bind, pure, Except.pure]
  | next =>
      obtain ⟨item, next, added, step, leads⟩ := stage.next fits
      refine ⟨_, added, next, leads.answers rfl ?_⟩
      simp [Lexer.perform, step, bind, Except.bind, pure, Except.pure]
  | take count =>
      obtain ⟨handed, next, added, step, leads⟩ := stage.take fits count
      refine ⟨_, added, next, leads.answers rfl ?_⟩
      simp [Lexer.perform, step, bind, Except.bind, pure, Except.pure]
  | remaining =>
      obtain ⟨handed, next, added, step, leads⟩ := stage.remaining fits
      refine ⟨_, added, next, leads.answers rfl ?_⟩
      simp [Lexer.perform, step, bind, Except.bind, pure, Except.pure]
  | emit diagnostic =>
      refine ⟨[], [], lexer.emit diagnostic, rfl, ?_, Or.inr rfl, Nat.le_refl _, ?_⟩
      · simp [Lexer.emit, Call.foreign]
      · obtain ⟨later, foundLater, expects, rest⟩ := stage.expects
        simpa using ⟨⟨later, foundLater, ⟨expects.run⟩, rest⟩, stage.finished, stage.position,
          stage.orderly⟩

/-- What any sequence of calls preserves. -/
theorem drive (stage : Stage text tokens found events own lexer)
    (fits : utf8Size text ≤ Offset.limit) (calls : List Call) :
    ∃ (new : List Event) (next : Lexer) (exchanges : List Exchange),
      lexer.drive calls = .ok (new, next) ∧ exchanges.map Exchange.call = calls ∧
      next.log.toList = lexer.log.toList ++ exchanges.flatMap Exchange.logged ∧
      lexer.position ≤ next.position ∧
      Stage text tokens found (events ++ new) (own ++ exchanges.flatMap Exchange.own) next := by
  induction calls generalizing events own lexer with
  | nil =>
      refine ⟨[], lexer, [], rfl, rfl, by simp, Nat.le_refl _, ?_⟩
      simpa using stage
  | cons call calls ih =>
      obtain ⟨new, added, next, answers⟩ := stage.perform fits call
      obtain ⟨newLater, final, exchanges, driven, callsEq, loggedLater, forwardLater, stageFinal⟩ :=
        ih answers.reached
      refine ⟨new ++ newLater, final, { call, own := added, apart := answers.apart } :: exchanges,
        ?_, ?_, ?_, Nat.le_trans answers.forward forwardLater, ?_⟩
      · simp [Lexer.drive, answers.performed, driven, bind, Except.bind, pure, Except.pure]
      · rw [List.map_cons, callsEq]
      · rw [loggedLater, answers.logged, List.flatMap_cons, List.append_assoc]
        rfl
      · simpa using stageFinal

end Stage

/-! ### Using a lexer -/

/-- What was seen of a lexer over a text follows what lexing the whole text gives, when the lexer
    began with some log and answered certain calls. -/
structure FollowsLex (text : String) (tokens : List Token) (found : List Diagnostic) (start : Log)
    (calls : List Call) (events : List Event) (after : Lexer) : Prop where
  /-- The tokens are handed out from the first on and in order, each once. -/
  stream : proper (handedOut events) <+: proper tokens
  complete : Ended events → proper (handedOut events) = proper tokens
  /-- The end of the text is handed out at the end of the text. -/
  point : ∀ token ∈ handedOut events, token.isEndOfFile = true →
    token = .endOfFile text.utf8ByteSize
  /-- After the end of the text, single reads give nothing but the end of the text. -/
  stays : ∀ earlier token later, events = earlier ++ .read token :: later → Ended earlier →
    token = .endOfFile text.utf8ByteSize
  /-- The iteration stops once it has handed out the end of the text itself, and not before. -/
  stops : ∀ earlier item later, events = earlier ++ .yielded item :: later →
    (item = none ↔ IterationEnded earlier)
  position : after.position = lastStop events
  forward : ∀ more moreEvents final, after.drive more = .ok (moreEvents, final) →
    after.position ≤ final.position
  /-- Each call adds to the log what the lexer reports in it, or the finding that it brings. -/
  log : ∃ exchanges : List Exchange, exchanges.map Exchange.call = calls ∧
    after.log.toList = start.toList ++ exchanges.flatMap Exchange.logged ∧
    exchanges.flatMap Exchange.own <+: found ∧
    (Ended events → exchanges.flatMap Exchange.own = found)

/-- A lexer that has read nothing is at the first stage. -/
theorem Run.stage {file : FileId} {text : List Char} {tokens : List Token}
    {found : List Diagnostic} (run : Run file 0 [] text tokens found) (log : Log) :
    Stage text tokens found [] [] { file, rest := text, log } := by
  have nothing : ¬ Ended [] := by simp [Ended, handedOut]
  constructor
  · exact ⟨tokens, found, ⟨[], rfl, rfl, run⟩, rfl, rfl, fun ended => absurd ended nothing⟩
  · simp [IterationEnded]
  · rfl
  · intro front event back split
    simp at split

/-- What is seen at a later stage follows the lexing of the text. -/
theorem Stage.followsLex {text : String} {tokens : List Token} {found : List Diagnostic}
    {start after : Lexer} {calls : List Call} {events : List Event} {exchanges : List Exchange}
    (stage : Stage text.toList tokens found events (exchanges.flatMap Exchange.own) after)
    (fits : utf8Size text.toList ≤ Offset.limit) (callsEq : exchanges.map Exchange.call = calls)
    (logged : after.log.toList = start.log.toList ++ exchanges.flatMap Exchange.logged) :
    FollowsLex text tokens found start.log calls events after := by
  obtain ⟨later, foundLater, expects, rfl, rfl, ended⟩ := stage.expects
  have again : proper (proper (handedOut events)) = proper (handedOut events) := by simp [proper]
  have size : text.utf8ByteSize = utf8Size text.toList := Text.utf8ByteSize_eq text
  constructor
  · rw [proper_append, again]
    exact List.prefix_append ..
  · intro past
    rw [proper_append, again, (ended past).1]
    simp [proper, Token.isEndOfFile, Token.endOfFile]
  · intro token member last
    obtain ⟨event, listed, hands⟩ := List.mem_filterMap.mp member
    obtain ⟨earlier, later, split⟩ := List.append_of_mem listed
    rw [size]
    exact (stage.orderly earlier event later split).ends token hands last
  · intro earlier token later split past
    have follows := stage.orderly earlier _ later split
    rw [size]
    exact follows.ends token rfl (follows.stays token rfl past)
  · intro earlier item later split
    exact (stage.orderly earlier _ later split).stops item rfl
  · exact stage.position
  · intro more moreEvents final driven
    obtain ⟨_, next, _, driven', -, -, forward, -⟩ := stage.drive fits more
    cases driven.symm.trans driven'
    exact forward
  · refine ⟨exchanges, callsEq, logged, List.prefix_append .., fun past => ?_⟩
    rw [(ended past).2, List.append_nil]

/-- However a lexer is used, what it hands out and reports follows the lexing of the whole text. All
    calls succeed, on any text for which there is a lexer. -/
theorem drive_follows_lex (file : FileId) (text : String) (log : Log) (lexer : Lexer)
    (started : Lexer.start file text log = .ok lexer) (calls : List Call) :
    ∃ tokens found events after, Lexes file text tokens found ∧
      lexer.drive calls = .ok (events, after) ∧
      FollowsLex text tokens found log calls events after := by
  have fits : text.utf8ByteSize ≤ Offset.limit := by
    by_contra large
    rw [Lexer.start, if_neg large] at started
    cases started
  rw [Lexer.start, if_pos fits] at started
  cases started
  obtain ⟨tokens, found, -, run⟩ := lex_run file .empty fits
  have stage := run.stage log
  have fitsText : utf8Size text.toList ≤ Offset.limit := by
    rwa [← Text.utf8ByteSize_eq]
  obtain ⟨events, after, exchanges, driven, callsEq, logged, -, stageAfter⟩ :=
    stage.drive fitsText calls
  exact ⟨tokens, found, events, after, lexes_of_run fits run, driven,
    stageAfter.followsLex fitsText callsEq logged⟩

/-- Calls of every sort over a text with a malformed number, up to its end and beyond. -/
theorem drive_follows_lex_mixed :
    Lexer.start ⟨0⟩ "a1.2.3 @" .empty
        = .ok { file := ⟨0⟩, rest := "a1.2.3 @".toList, log := .empty } ∧
      ∃ tokens found events after, Lexes ⟨0⟩ "a1.2.3 @" tokens found ∧
        Lexer.drive { file := ⟨0⟩, rest := "a1.2.3 @".toList, log := .empty }
          [.take 2, .nextToken, .emit default, .nextToken, .nextToken, .remaining, .next,
            .nextToken] = .ok (events, after) ∧
        FollowsLex "a1.2.3 @" tokens found .empty
          [.take 2, .nextToken, .emit default, .nextToken, .nextToken, .remaining, .next,
            .nextToken] events after :=
  have started : Lexer.start ⟨0⟩ "a1.2.3 @" .empty
      = .ok { file := ⟨0⟩, rest := "a1.2.3 @".toList, log := .empty } := rfl
  ⟨started, drive_follows_lex ⟨0⟩ _ .empty _ started _⟩

end FrontEnd
