import NaturalDeduction.Session.Basic

/-!
# Conversations

Commands are taken from a script as a whole, or typed one at a time at a prompt. Either way the
replies are reported in the log.

## Main definitions

* `Reply.report`: how a reply is reported
* `Session.reports`: what is reported of some commands
* `Session.answerOn`: what comes of a typed line on a machine
* `Session.converseOn`, `Session.converse`: what is written in a conversation, and where it leads
-/

namespace NaturalDeduction

/-- A failure is reported as a warning. A success is reported on demand, or if it takes several
rows. -/
def Reply.report (verbose : Bool) (r : Reply) : List Record :=
  if !r.ok then [.warning ("⚠️  " ++ r.message)]
  else if verbose || r.message.toList.contains '\n' then [.info r.message]
  else []

/-- What comes of typed lines: the session that they leave and what is written. -/
structure Exchange where
  session : Session
  written : String
  /-- Whether there was no room for a formula. -/
  broken : Bool

namespace Session

/-- The reports of some commands, each after the command itself on demand. -/
def reports (verbose : Bool) (commands : List String) (replies : List Reply) : List Record :=
  (commands.zip replies).flatMap fun (command, reply) =>
    (if verbose then [.info ("> " ++ command)] else []) ++ reply.report verbose

def prompt : String := "fitch> "

/-- The proof as it is shown. -/
def drawing (s : Session) : Record := .info (s.document.render s.symbols)

/-- The session after a typed line and what is written in between: what the log says about the line,
the reply, and the proof if the line was carried out and did not end the session. A blank line does
nothing. -/
def answerOn (m : Machine) (level : Level) (s : Session) (line : String) : Exchange :=
  if Text.strip line.toList = [] then ⟨s, "", false⟩
  else
    let r := s.executeOn m line
    match r.reply with
    | none => ⟨r.session, Log.write level r.log, true⟩
    | some reply =>
      let written := Log.write level (r.log ++ reply.report true)
      if reply.ok && !r.session.finished then
        if m.draws r.session.symbols r.session.document.toProof then
          ⟨r.session, written ++ Log.write level [r.session.drawing], false⟩
        else ⟨r.session, written, true⟩
      else ⟨r.session, written, false⟩

/-- The session after some typed lines, which are read until it is ended, and all that is written
until then, prompts included. -/
def converseOn (m : Machine) (level : Level) (s : Session) : List String → Exchange
  | [] => ⟨s, if s.finished then "" else prompt, false⟩
  | line :: lines =>
    if s.finished then ⟨s, "", false⟩
    else
      let x := s.answerOn m level line
      if x.broken then ⟨x.session, prompt ++ x.written, true⟩
      else
        let y := x.session.converseOn m level lines
        ⟨y.session, prompt ++ x.written ++ y.written, y.broken⟩

/-- A conversation where there is room for every formula. -/
def converse (level : Level) (s : Session) (lines : List String) : Session × String :=
  let x := s.converseOn .unlimited level lines
  (x.session, x.written)

/-- What is written when a session is over: the proof and its sequent. -/
def closing (s : Session) : List Record :=
  [s.drawing, .info ("\n>>> " ++ s.document.sequent s.symbols ++ " <<<")]

end Session

end NaturalDeduction
