import NaturalDeduction.Formula.Reader
import NaturalDeduction.Proof.Layout
import NaturalDeduction.Proof.Procedure
import NaturalDeduction.Session.Command

/-!
# Sessions

A session carries out commands on a document and answers each of them, unless there is no room for
a formula that has to be written or compared. A list of commands is carried out until one of them
ends the session or, on demand, until the first that fails.

## Main definitions

* `Session`: a document and how it is shown
* `Reply`: the answer to a command
* `Session.executeOn`: what comes of a line on a machine
* `Session.execute`: the effect of a line and the answer to it, with room for every formula
* `Session.runOn`, `Session.run`: the same for several lines
-/

namespace NaturalDeduction

structure Session where
  document : Document
  symbols : SymbolSet
  /-- Whether the session has been ended. -/
  finished : Bool
deriving DecidableEq

structure Reply where
  ok : Bool
  message : String
deriving DecidableEq

/-- The session at its start. -/
def Session.start (strict : Bool) (symbols : SymbolSet) : Session :=
  ⟨Document.empty strict, symbols, false⟩

/-! ## Messages -/

def helpText : String :=
  "   ".intercalate
    ["[a]ssume F", "[s]ubproof F", "e[n]d", "[d]elete", "[r]eiterate I", "[i]ntro C ...",
     "[e]lim C ...", "show", "[q]uit"]

/-- What is said when an inference is refused. -/
def Inference.hint {ι : Type} : Inference ι → String
  | reiterate _ => "Invalid index"
  | andIntro .. => "Selected assumptions are not valid"
  | andElim .. => "Select first the AND statement to eliminate, then one of its sides"
  | orIntro .. => "Select the left or right prop used in the input expression"
  | orElim .. => "Select the or to eliminate then the 2 subproofs"
  | notIntro _ => "Subproof assumption does not generate an absurdum"
  | notElim _ => "Expression selected is not a double negation"
  | impliesIntro _ => "Invalid subproof"
  | impliesElim .. => "Choose the implication to eliminate then the truth"
  | iffIntro .. => "Select the left subproof then the right subproof"
  | iffElim .. => "Choose the double implication to eliminate then the truth"
  | absurdIntro .. => "The selected lines do not contradict each other"
  | absurdElim .. => "The assumption you selected is not an absurdum"

/-- What is said when an operation is refused. -/
def Operation.hint : Operation → String
  | assume _ => "Assumptions can only be added before the first deduction"
  | suppose _ => "Invalid subproof"
  | discharge => "No subproof is open"
  | delete => "The proof is empty"
  | infer i => i.hint

/-- What is said about the line at the end of a document. -/
def Document.lastLineMessage (d : Document) : String :=
  match d.lines.getLast? with
  | some l => "Added line " ++ toString (d.lines.length - 1) ++ ": " ++ l.formula.text .ascii
  | none => ""

/-- What is said when an operation has led to a document. -/
def Operation.success (d : Document) : Operation → String
  | assume _ | suppose _ | infer _ => d.lastLineMessage
  | discharge => "Closed subproof, now at depth " ++ toString d.cursor
  | delete => "Deleted line " ++ toString d.lines.length

/-! ## Carrying out commands -/

/-- What comes of a command: the session that it leaves, what the log says about it, and the reply.
There is no reply if there is no room for a formula. -/
structure Response where
  session : Session
  log : List Record
  reply : Option Reply

/-- What comes of several commands. -/
structure Course where
  session : Session
  log : List Record
  replies : List Reply
  /-- Whether there was no room for a formula. -/
  broken : Bool

/-- The records of the reading of a line. -/
def Reading.records (r : Reading) : List Record :=
  match r.formulaText with
  | some text => Formula.trialRecords (.text text)
  | none => []

/-- Add what the log says about a line before and after it is carried out; nothing if it has no
words. -/
def Response.logged (line : String) (reading : Reading) (r : Response) : Response :=
  let stripped := String.ofList (Text.strip line.toList)
  let result := r.reply.toList.map fun reply => Log.commandResult stripped reply.ok reply.message
  { r with log := if stripped = "" then [] else reading.records ++ r.log ++ result }

@[simp] theorem Response.session_logged (line : String) (reading : Reading) (r : Response) :
    (r.logged line reading).session = r.session := by
  simp only [logged]

@[simp] theorem Response.reply_logged (line : String) (reading : Reading) (r : Response) :
    (r.logged line reading).reply = r.reply := by
  simp only [logged]

namespace Session

/-- Carry out a command on a machine, or complain that there is none. -/
def respond (m : Machine) (s : Session) : Except Complaint Command → Response
  | .error c => ⟨s, [], some ⟨false, c.message⟩⟩
  | .ok (.operate op) =>
    match s.document.call m op with
    | (.ok (), k) => ⟨{ s with document := k.document }, k.log, some ⟨true, op.success k.document⟩⟩
    | (.error (.refused _), k) => ⟨{ s with document := k.document }, k.log, some ⟨false, op.hint⟩⟩
    | (.error .overflow, k) => ⟨{ s with document := k.document }, k.log, none⟩
  | .ok .draw =>
    if m.draws s.symbols s.document.toProof then
      ⟨s, [], some ⟨true, s.document.render s.symbols⟩⟩
    else ⟨s, [], none⟩
  | .ok .help => ⟨s, [], some ⟨true, helpText⟩⟩
  | .ok .quit => ⟨{ s with finished := true }, [], some ⟨true, "Bye"⟩⟩

/-- Carry out a line on a machine. -/
def executeOn (m : Machine) (s : Session) (line : String) : Response :=
  let reading := Command.read line
  (s.respond m reading.outcome).logged line reading

theorem session_executeOn (m : Machine) (s : Session) (line : String) :
    (s.executeOn m line).session = (s.respond m (Command.read line).outcome).session := by
  rw [executeOn, Response.session_logged]

theorem reply_executeOn (m : Machine) (s : Session) (line : String) :
    (s.executeOn m line).reply = (s.respond m (Command.read line).outcome).reply := by
  rw [executeOn, Response.reply_logged]

/-- Carry out a line where there is room for every formula, so that there is always a reply. -/
def execute (s : Session) (line : String) : Session × Reply :=
  let r := s.executeOn .unlimited line
  (r.session, r.reply.getD ⟨false, ""⟩)

/-- Whether a run ends after a line. -/
def stops (stopOnError : Bool) (s : Session) (reply : Reply) : Bool :=
  s.finished || (stopOnError && !reply.ok)

/-- Carry out lines on a machine until the run ends. -/
def runOn (m : Machine) (stopOnError : Bool) (s : Session) : List String → Course
  | [] => ⟨s, [], [], false⟩
  | line :: lines =>
    let r := s.executeOn m line
    match r.reply with
    | none => ⟨r.session, r.log, [], true⟩
    | some reply =>
      if r.session.stops stopOnError reply then ⟨r.session, r.log, [reply], false⟩
      else
        let c := r.session.runOn m stopOnError lines
        ⟨c.session, r.log ++ c.log, reply :: c.replies, c.broken⟩

/-- Carry out lines where there is room for every formula. -/
def run (stopOnError : Bool) (s : Session) (lines : List String) : Session × List Reply :=
  let c := s.runOn .unlimited stopOnError lines
  (c.session, c.replies)

end Session

end NaturalDeduction
