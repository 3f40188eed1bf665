/-
Module: FrontEnd.Proofs.SessionHistory
Layer: Proofs
Purpose: Sessions as append-only histories. Whatever is asked of a session, and in whatever order,
  its files are the texts registered so far, and its log is what was emitted and what was found in
  lexed texts since it was last drained; texts are lexed alike under all handles and at all times.
Imports: FrontEnd.Session, FrontEnd.Proofs.RunTransport, Mathlib.Data.List.DropRight,
  Mathlib.Data.List.Forall2
Trusted boundary: none
Main exports: Log.Counts, SourceMap.entries, Session.Request, Session.Answer, Session.perform,
  Session.run, Session.Turn, Turn.Adds, Turn.After, Session.Keeps, Session.Keeps.perform,
  session_keeps_history
Open obligations: none
-/
import FrontEnd.Session
import FrontEnd.Proofs.RunTransport
import Mathlib.Data.List.DropRight
import Mathlib.Data.List.Forall2

namespace FrontEnd

/-! ### Counts -/

/-- The counts of a log fit its findings. -/
structure Log.Counts (log : Log) : Prop where
  total : log.countOf .error + log.countOf .warning + log.countOf .note + log.countOf .help
    = log.size
  hasError : log.hasError = true ↔ 0 < log.size
  hasErrors : log.hasErrors = true ↔ 0 < log.countOf .error

/-- Each finding has one severity. -/
theorem Log.counts (log : Log) : log.Counts := by
  have size : log.size = log.toList.length := by
    rw [size, toList, Array.length_toList]
  constructor
  · simp only [countOf, size]
    induction log.toList with
    | nil =>
        rfl
    | cons diagnostic found ih =>
        cases severity : diagnostic.severity <;> simp [severity] <;> omega
  · rw [hasError, isEmpty, Log.size, Bool.not_eq_true', Array.isEmpty_eq_false_iff,
      Array.size_pos_iff]
  · rw [hasErrors, countOf, List.any_eq_true, List.countP_pos_iff]
    rfl

/-! ### Registering texts -/

/-- A text is refused because it is too large, registered behind all others, or registered nowhere
    because the handles have run out. -/
theorem SourceMap.tryAddFile_cases (sources : SourceMap) (name text : String) :
    (Offset.limit < text.utf8ByteSize ∧
      sources.tryAddFile name text = .ok (.error (.tooLarge name text.utf8ByteSize))) ∨
    (text.utf8ByteSize ≤ Offset.limit ∧ sources.size ≤ Offset.limit ∧
      ∃ file : SourceFile, file.name = name ∧ file.text = text ∧
        sources.tryAddFile name text =
          .ok (.ok (⟨sources.size⟩, { sources with files := sources.files.push file }))) ∨
    (text.utf8ByteSize ≤ Offset.limit ∧ Offset.limit < sources.size ∧
      sources.tryAddFile name text = .error .tooManyFiles) := by
  unfold tryAddFile SourceFile.ofText
  by_cases fits : text.utf8ByteSize ≤ Offset.limit
  · right
    rw [dif_pos fits]
    by_cases left : sources.size ≤ Offset.limit
    · exact Or.inl ⟨fits, left, _, rfl, rfl, if_pos left⟩
    · exact Or.inr ⟨fits, Nat.lt_of_not_le left, if_neg left⟩
  · left
    rw [dif_neg fits]
    exact ⟨Nat.lt_of_not_le fits, rfl⟩

/-- The names and texts of the files, in the order of their handles. -/
def SourceMap.entries (sources : SourceMap) : List (String × String) :=
  sources.files.toList.map fun file => (file.name, file.text)

/-- They are what the handles lead to. -/
theorem SourceMap.entries_eq_iff {sources : SourceMap} {entries : List (String × String)} :
    sources.entries = entries ↔
      ∀ id : FileId, (sources.get? id).map (fun file => (file.name, file.text))
        = entries[id.index]? := by
  have listed (index : Nat) : (sources.get? ⟨index⟩).map (fun file => (file.name, file.text))
      = sources.entries[index]? := by
    rw [get?, SourceMap.entries, List.getElem?_map, Array.getElem?_toList]
  constructor
  · rintro rfl id
    exact listed id.index
  · intro known
    apply List.ext_getElem?
    intro index
    rw [← listed, known]

/-- A file is its name and its text. -/
theorem SourceFile.eq_of_name_text {file other : SourceFile} (name : file.name = other.name)
    (text : file.text = other.text) : file = other := by
  obtain ⟨_, _, lineStarts, rfl, _⟩ := file
  obtain ⟨_, _, lineStarts', rfl, _⟩ := other
  cases name
  cases text
  rfl

namespace Session

/-! ### Requests and answers -/

/-- What can be asked of a session. -/
inductive Request where
  | addFile (name text : String)
  | tryAddFile (name text : String)
  | lexFile (id : FileId)
  | emit (diagnostic : Diagnostic)
  | drain
deriving DecidableEq, Repr

/-- What a session answers. A request that stops with a fault leaves the session as it was. -/
inductive Answer where
  | registered (id : FileId)
  | refused (reason : SourceError)
  | lexed (tokens : Option (List Token))
  | emitted
  | drained (found : List Diagnostic)
  | stopped (fault : Fault)
deriving DecidableEq, Repr

/-- A request and the answer to it. -/
structure Turn where
  request : Request
  answer : Answer
deriving DecidableEq, Repr

/-- Answer a request. -/
def perform (session : Session) : Request → Answer × Session
  | .addFile name text =>
      match session.addFile name text with
      | .ok (id, next) => (.registered id, next)
      | .error fault => (.stopped fault, session)
  | .tryAddFile name text =>
      match session.tryAddFile name text with
      | .ok (.ok (id, next)) => (.registered id, next)
      | .ok (.error reason) => (.refused reason, session)
      | .error fault => (.stopped fault, session)
  | .lexFile id =>
      match session.lexFile id with
      | .ok (tokens, next) => (.lexed tokens, next)
      | .error fault => (.stopped fault, session)
  | .emit diagnostic => (.emitted, session.emit diagnostic)
  | .drain => (.drained session.drain.1, session.drain.2)

/-- Answer requests one after the other. -/
def run (session : Session) : List Request → List Turn × Session
  | [] => ([], session)
  | request :: requests =>
      let (answer, next) := session.perform request
      let (turns, last) := next.run requests
      ({ request, answer } :: turns, last)

theorem run_append (session : Session) (earlier later : List Request) :
    session.run (earlier ++ later) =
      ((session.run earlier).1 ++ ((session.run earlier).2.run later).1,
        ((session.run earlier).2.run later).2) := by
  induction earlier generalizing session with
  | nil =>
      rfl
  | cons request earlier ih =>
      simp only [List.cons_append, run, ih]

/-! ### Histories -/

/-- The name and the text that a request wants to be registered. -/
def Request.source? : Request → Option (String × String)
  | .addFile name text | .tryAddFile name text => some (name, text)
  | _ => none

namespace Turn

/-- The handle that was given out in a turn. -/
def handle? (turn : Turn) : Option FileId :=
  match turn.answer with
  | .registered id => some id
  | _ => none

/-- The name and the text that were registered in a turn. -/
def registered? (turn : Turn) : Option (String × String) :=
  turn.handle?.bind fun _ => turn.request.source?

/-- Whether the log was drained in a turn. -/
def isDrain (turn : Turn) : Bool :=
  turn.request == .drain

/-- What a turn adds to the log, when certain names and texts are registered: a finding that was
    emitted, or what is found when the text of a file is lexed with an empty log. -/
inductive Adds (files : List (String × String)) : Turn → List Diagnostic → Prop where
  | registering {request : Request} {answer : Answer} (asked : request.source?.isSome) :
      Adds files { request, answer } []
  | lexing {id : FileId} {name text : String} {tokens : List Token} {log : Log}
      (known : files[id.index]? = some (name, text))
      (lexed : lex id text .empty = .ok (tokens, log)) :
      Adds files { request := .lexFile id, answer := .lexed (some tokens) } log.toList
  | unknown {id : FileId} : Adds files { request := .lexFile id, answer := .lexed none } []
  | emitting {diagnostic : Diagnostic} :
      Adds files { request := .emit diagnostic, answer := .emitted } [diagnostic]

end Turn

/-- The names and texts that were registered, in the order of their registration. -/
def registrations (turns : List Turn) : List (String × String) :=
  turns.filterMap Turn.registered?

/-- The turns since the log was last drained. -/
def sinceDrain (turns : List Turn) : List Turn :=
  turns.rtakeWhile fun turn => !turn.isDrain

/-- The log after some turns: what was added to it since it was last drained, in order. -/
def Holds (turns : List Turn) (found : List Diagnostic) : Prop :=
  ∃ pieces, List.Forall₂ (Turn.Adds (registrations turns)) (sinceDrain turns) pieces ∧
    found = pieces.flatten

/-- What can be answered to a request after some turns. Texts that fit get the handles in order, as
    long as there are handles; the tokens of a file are those of its text under any handle and with
    any log. -/
inductive Turn.After (turns : List Turn) : Turn → Prop where
  | registered {request : Request} {name text : String}
      (asked : request.source? = some (name, text)) (fits : text.utf8ByteSize ≤ Offset.limit)
      (left : (registrations turns).length ≤ Offset.limit) :
      After turns { request, answer := .registered ⟨(registrations turns).length⟩ }
  | noHandle {request : Request} {name text : String}
      (asked : request.source? = some (name, text)) (fits : text.utf8ByteSize ≤ Offset.limit)
      (none : Offset.limit < (registrations turns).length) :
      After turns { request, answer := .stopped .tooManyFiles }
  | refused {name text : String} (large : Offset.limit < text.utf8ByteSize) :
      After turns
        { request := .tryAddFile name text
          answer := .refused (.tooLarge name text.utf8ByteSize) }
  | rejected {name text : String} (large : Offset.limit < text.utf8ByteSize) :
      After turns
        { request := .addFile name text
          answer := .stopped (.sourceRejected (.tooLarge name text.utf8ByteSize)) }
  | lexed {id : FileId} {name text : String} {tokens : List Token}
      (known : (registrations turns)[id.index]? = some (name, text))
      (alike : ∀ other log, ∃ after, lex other text log = .ok (tokens, after)) :
      After turns { request := .lexFile id, answer := .lexed (some tokens) }
  | unknown {id : FileId} (unknown : (registrations turns)[id.index]? = none) :
      After turns { request := .lexFile id, answer := .lexed none }
  | emitted {diagnostic : Diagnostic} :
      After turns { request := .emit diagnostic, answer := .emitted }
  | drained {found : List Diagnostic} (holds : Holds turns found) :
      After turns { request := .drain, answer := .drained found }

/-- A session keeps its history: handles were given out in order, each handle leads to the name and
    the text that were registered under it and no other handle leads anywhere, each answer is right
    after the turns before it, and the log holds what was added since it was last drained. -/
structure Keeps (turns : List Turn) (session : Session) : Prop where
  handles : turns.filterMap Turn.handle? =
    (List.range (registrations turns).length).map FileId.mk
  files : ∀ id : FileId, (session.sources.get? id).map (fun file => (file.name, file.text))
    = (registrations turns)[id.index]?
  answers : ∀ front turn back, turns = front ++ turn :: back → Turn.After front turn
  log : Holds turns session.log.toList
  counts : session.log.Counts

/-! ### What every turn preserves -/

section Turns

variable {turns : List Turn} {turn : Turn} {session next : Session} {found added : List Diagnostic}

theorem registrations_append (front back : List Turn) :
    registrations (front ++ back) = registrations front ++ registrations back :=
  List.filterMap_append

theorem registrations_concat (turns : List Turn) (turn : Turn) :
    registrations (turns ++ [turn]) = registrations turns ++ turn.registered?.toList := by
  rw [registrations_append]
  cases registered : turn.registered? with
  | none =>
      rw [registrations, registrations, List.filterMap_cons_none registered]
      rfl
  | some source =>
      rw [registrations, registrations, List.filterMap_cons_some registered]
      rfl

theorem registrations_of_none (turns : List Turn) (nothing : turn.registered? = none) :
    registrations (turns ++ [turn]) = registrations turns := by
  rw [registrations_concat, nothing, Option.toList_none, List.append_nil]

/-- Further registrations make no difference to what a turn adds. -/
theorem Turn.Adds.append {files : List (String × String)} (adds : turn.Adds files added)
    (more : List (String × String)) : turn.Adds (files ++ more) added := by
  cases adds with
  | registering asked =>
      exact .registering asked
  | lexing known lexed =>
      obtain ⟨listed, -⟩ := List.getElem?_eq_some_iff.mp known
      exact .lexing ((List.getElem?_append_left listed).trans known) lexed
  | unknown =>
      exact .unknown
  | emitting =>
      exact .emitting

/-- A turn that does not drain the log adds to it. -/
theorem Holds.concat (holds : Holds turns found) (stays : turn.isDrain = false)
    (adds : turn.Adds (registrations turns) added) :
    Holds (turns ++ [turn]) (found ++ added) := by
  obtain ⟨pieces, pairs, rfl⟩ := holds
  refine ⟨pieces ++ [added], ?_, by simp⟩
  rw [registrations_concat, sinceDrain, List.rtakeWhile_concat_pos _ _ _ (by simp [stays])]
  refine List.rel_append (pairs.imp fun _ _ earlier => earlier.append _) ?_
  exact .cons (adds.append _) .nil

/-- After a turn that drains the log there is nothing in it. -/
theorem Holds.drain (turns : List Turn) (drains : turn.isDrain = true) :
    Holds (turns ++ [turn]) [] := by
  refine ⟨[], ?_, rfl⟩
  rw [sinceDrain, List.rtakeWhile_concat_neg _ _ _ (by simp [drains])]
  exact .nil

/-- A turn gives out a handle if it registers a text, and it is the next one. -/
theorem Turn.After.handle?_eq (after : turn.After turns) :
    turn.handle? = turn.registered?.map fun _ => ⟨(registrations turns).length⟩ := by
  cases after with
  | registered asked =>
      simp only [registered?, handle?, Option.bind_some, asked]
      rfl
  | _ => rfl

/-- There are as many files as registrations. -/
theorem Keeps.size_eq (keeps : Keeps turns session) :
    session.sources.size = (registrations turns).length := by
  rw [← SourceMap.entries_eq_iff.mpr keeps.files, SourceMap.entries, List.length_map,
    Array.length_toList, SourceMap.size]

/-- A session keeps a history with one more turn. -/
theorem Keeps.concat (keeps : Keeps turns session) (after : turn.After turns)
    (files : ∀ id : FileId, (next.sources.get? id).map (fun file => (file.name, file.text))
      = (registrations (turns ++ [turn]))[id.index]?)
    (log : Holds (turns ++ [turn]) next.log.toList) : Keeps (turns ++ [turn]) next where
  handles := by
    have handle := after.handle?_eq
    rw [List.filterMap_append, keeps.handles, registrations_concat, List.length_append]
    cases registered : turn.registered? with
    | none =>
        rw [registered] at handle
        simp [handle]
    | some source =>
        rw [registered] at handle
        simp [handle, List.range_succ]
  files := files
  answers := Text.forall_split_concat keeps.answers after
  log := log
  counts := next.log.counts

/-- A turn that registers nothing and does not drain the log may add to it. -/
theorem Keeps.advance (keeps : Keeps turns session) (after : turn.After turns)
    (nothing : turn.registered? = none) (stays : turn.isDrain = false)
    (adds : turn.Adds (registrations turns) added) {log : Log}
    (logged : log.toList = session.log.toList ++ added) :
    Keeps (turns ++ [turn]) { session with log } := by
  apply keeps.concat after
  · rw [registrations_of_none turns nothing]
    exact keeps.files
  · rw [logged]
    exact keeps.log.concat stays adds

/-- A turn that adds nothing either leaves the session as it was. -/
theorem Keeps.stay (keeps : Keeps turns session) (after : turn.After turns)
    (nothing : turn.registered? = none) (stays : turn.isDrain = false)
    (adds : turn.Adds (registrations turns) []) : Keeps (turns ++ [turn]) session :=
  keeps.advance after nothing stays adds (List.append_nil _).symm

/-- A turn in which a text is registered. -/
theorem Keeps.register (keeps : Keeps turns session) {request : Request} {file : SourceFile}
    (asked : request.source? = some (file.name, file.text))
    (left : session.sources.size ≤ Offset.limit) :
    Keeps (turns ++ [{ request, answer := .registered ⟨session.sources.size⟩ }])
      { session with sources := { files := session.sources.files.push file } } := by
  rw [keeps.size_eq] at left ⊢
  have registered : Turn.registered?
      { request, answer := .registered ⟨(registrations turns).length⟩ }
        = some (file.name, file.text) := asked
  have stays : Turn.isDrain { request, answer := .registered ⟨(registrations turns).length⟩ }
      = false := by
    cases request with
    | drain => cases asked
    | _ => rfl
  apply keeps.concat (.registered asked file.size_le left)
  · apply SourceMap.entries_eq_iff.mp
    rw [registrations_concat, registered, ← SourceMap.entries_eq_iff.mpr keeps.files,
      SourceMap.entries, SourceMap.entries, Array.toList_push, List.map_append]
    rfl
  · have log := keeps.log.concat stays (.registering (by rw [asked]; rfl))
    rwa [List.append_nil] at log

/-- A turn in which a file is lexed. -/
theorem Keeps.lex (keeps : Keeps turns session) {id : FileId} {file : SourceFile}
    (known : session.sources.get? id = some file) :
    ∃ tokens after, session.perform (.lexFile id) = (.lexed (some tokens), after) ∧
      Keeps (turns ++ [{ request := .lexFile id, answer := .lexed (some tokens) }]) after := by
  obtain ⟨tokens, alike⟩ := exists_lexes file.size_le
  obtain ⟨found, lexes⟩ := alike id
  obtain ⟨log, lexed, logged⟩ := lexes session.log
  obtain ⟨own, lexedOwn, loggedOwn⟩ := lexes .empty
  have listed : (registrations turns)[id.index]? = some (file.name, file.text) := by
    rw [← keeps.files id, known]
    rfl
  rw [Log.toList_empty, List.nil_append] at loggedOwn
  rw [← loggedOwn] at logged
  refine ⟨tokens, { session with log }, ?_, ?_⟩
  · simp only [Session.perform, lexFile, known, lexed, bind, Except.bind, pure, Except.pure]
  · have others (other : FileId) (log : Log) :
        ∃ after, FrontEnd.lex other file.text log = .ok (tokens, after) := by
      obtain ⟨found, lexes⟩ := alike other
      obtain ⟨after, lexed, -⟩ := lexes log
      exact ⟨after, lexed⟩
    exact keeps.advance (.lexed listed others) rfl rfl (.lexing listed lexedOwn) logged

/-- A session keeps its history whatever is asked of it. -/
theorem Keeps.perform (keeps : Keeps turns session) (request : Request) :
    Keeps (turns ++ [{ request, answer := (session.perform request).1 }])
      (session.perform request).2 := by
  cases request with
  | addFile name text =>
      rcases session.sources.tryAddFile_cases name text
        with ⟨large, tried⟩ | ⟨fits, left, file, rfl, rfl, tried⟩ | ⟨fits, none, tried⟩
      all_goals
        simp only [Session.perform, addFile, SourceMap.addFile, tried, bind, Except.bind, pure,
          Except.pure, throw, throwThe, MonadExceptOf.throw]
      · exact keeps.stay (.rejected large) rfl rfl (.registering rfl)
      · exact keeps.register rfl left
      · rw [keeps.size_eq] at none
        exact keeps.stay (.noHandle rfl fits none) rfl rfl (.registering rfl)
  | tryAddFile name text =>
      rcases session.sources.tryAddFile_cases name text
        with ⟨large, tried⟩ | ⟨fits, left, file, rfl, rfl, tried⟩ | ⟨fits, none, tried⟩
      all_goals
        simp only [Session.perform, tryAddFile, tried, bind, Except.bind, pure, Except.pure]
      · exact keeps.stay (.refused large) rfl rfl (.registering rfl)
      · exact keeps.register rfl left
      · rw [keeps.size_eq] at none
        exact keeps.stay (.noHandle rfl fits none) rfl rfl (.registering rfl)
  | lexFile id =>
      cases known : session.sources.get? id with
      | none =>
          have unlisted : (registrations turns)[id.index]? = none := by
            rw [← keeps.files id, known]
            rfl
          simp only [Session.perform, lexFile, known, pure, Except.pure]
          exact keeps.stay (.unknown unlisted) rfl rfl .unknown
      | some file =>
          obtain ⟨tokens, after, performed, kept⟩ := keeps.lex known
          rw [performed]
          exact kept
  | emit diagnostic =>
      exact keeps.advance .emitted rfl rfl .emitting (session.log.toList_emit diagnostic)
  | drain =>
      apply keeps.concat (.drained keeps.log)
      · rw [registrations_of_none turns rfl]
        exact keeps.files
      · exact Holds.drain turns rfl

/-- A session keeps its history through any run. -/
theorem Keeps.run (keeps : Keeps turns session) (requests : List Request) :
    Keeps (turns ++ (session.run requests).1) (session.run requests).2 := by
  induction requests generalizing turns session with
  | nil =>
      rw [Session.run, List.append_nil]
      exact keeps
  | cons request requests ih =>
      have rest := ih (keeps.perform request)
      rw [List.append_assoc] at rest
      exact rest

/-- A session in which nothing has happened keeps the empty history. -/
theorem Keeps.empty : Keeps [] empty where
  handles := rfl
  files _ := rfl
  answers front turn back split := by simp at split
  log := ⟨[], .nil, rfl⟩
  counts := Log.counts _

/-- A file stays what it is in any longer history. -/
theorem Keeps.get?_of_append {more : List Turn} {id : FileId} {file : SourceFile}
    (keeps : Keeps turns session) (keepsNext : Keeps (turns ++ more) next)
    (known : session.sources.get? id = some file) : next.sources.get? id = some file := by
  have listed := keeps.files id
  have listedNext := keepsNext.files id
  rw [known, Option.map_some] at listed
  obtain ⟨inFront, -⟩ := List.getElem?_eq_some_iff.mp listed.symm
  rw [registrations_append, List.getElem?_append_left inFront] at listedNext
  obtain ⟨other, knownNext, same⟩ := Option.map_eq_some_iff.mp (listedNext.trans listed.symm)
  obtain ⟨name, text⟩ := Prod.mk.inj same
  rw [knownNext, SourceFile.eq_of_name_text name text]

end Turns

/-- In a run, there is a turn for each request. -/
theorem map_request_run (session : Session) (requests : List Request) :
    (session.run requests).1.map Turn.request = requests := by
  induction requests generalizing session with
  | nil =>
      rfl
  | cons request requests ih =>
      rw [run, List.map_cons, ih]

end Session

open Session in
/-- A session keeps its history through any run, and through any continuation of the run: handles
    are given out in order and stay with their files, texts are lexed alike at all times, and the
    log holds, in the order of the turns, what was added to it since it was last drained. -/
theorem session_keeps_history (earlier later : List Request) :
    ∃ turns session more last,
      Session.empty.run earlier = (turns, session) ∧ turns.map Turn.request = earlier ∧
      session.run later = (more, last) ∧ more.map Turn.request = later ∧
      Session.empty.run (earlier ++ later) = (turns ++ more, last) ∧
      Keeps turns session ∧ Keeps (turns ++ more) last ∧
      ∀ id file, session.sources.get? id = some file → last.sources.get? id = some file := by
  have kept := Keeps.empty.run earlier
  have keptLast := kept.run later
  rw [List.nil_append] at kept keptLast
  refine ⟨_, _, _, _, rfl, map_request_run _ _, rfl, map_request_run _ _, run_append .., kept,
    keptLast, ?_⟩
  exact fun id file known => kept.get?_of_append keptLast known

end FrontEnd
