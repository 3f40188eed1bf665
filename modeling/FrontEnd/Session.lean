/-
Module: FrontEnd.Session
Layer: Session
Purpose: A session of the front end: the files registered so far and the log of all findings.
Imports: FrontEnd.Source.Map, FrontEnd.Lexer.Basic
Trusted boundary: none
Main exports: Session, Session.addFile, Session.tryAddFile, Session.lexFile, Session.emit,
  Session.drain
Open obligations: none
-/
import FrontEnd.Source.Map
import FrontEnd.Lexer.Basic

namespace FrontEnd

/-- The state of a session. -/
structure Session where
  sources : SourceMap := .empty
  log : Log := .empty
deriving Inhabited

namespace Session

/-- A session in which nothing has happened. -/
def empty : Session := {}

/-- Register a text that the caller knows to fit. -/
def addFile (session : Session) (name text : String) : Except Fault (FileId × Session) := do
  let (id, sources) ← session.sources.addFile name text
  return (id, { session with sources })

/-- Register a text, reporting one that is too large. -/
def tryAddFile (session : Session) (name text : String) :
    Except Fault (Except SourceError (FileId × Session)) := do
  match ← session.sources.tryAddFile name text with
  | .error reason => return .error reason
  | .ok (id, sources) => return .ok (id, { session with sources })

/-- The tokens of a registered file, with what the lexer reports added to the log. -/
def lexFile (session : Session) (id : FileId) : Except Fault (Option (List Token) × Session) := do
  match session.sources.get? id with
  | none => return (none, session)
  | some file =>
      let (tokens, log) ← lex id file.text session.log
      return (some tokens, { session with log })

/-- Add a finding to the log. -/
def emit (session : Session) (diagnostic : Diagnostic) : Session :=
  { session with log := session.log.emit diagnostic }

/-- Take all findings out of the log. -/
def drain (session : Session) : List Diagnostic × Session :=
  (session.log.toList, { session with log := .empty })

end Session

end FrontEnd
