import NaturalDeduction.CommandLine.Dialogue
import NaturalDeduction.CommandLine.GraphFile
import NaturalDeduction.CommandLine.Options
import NaturalDeduction.CommandLine.Usage
import NaturalDeduction.Workspace.ScriptFile

/-!
# The program

The program reads its options, carries out a script or a conversation, shows the proof and saves
its diagram on demand. All that it meets is given to it at the start: the files, the typed lines,
the library that makes images of diagrams, and the machine that it runs on.

## Main definitions

* `World`: what the program meets
* `Outcome`: what the program leaves behind
* `Performance`: the course of a script or a conversation
* `Program.run`: the outcome for given arguments
-/

namespace NaturalDeduction

structure World where
  files : FileTree
  /-- The lines typed at the prompt. -/
  typed : List String
  /-- Whether the user interrupts after the last of them. -/
  interrupted : Bool
  graphviz : Graphviz
  machine : Machine

/-- Why the program breaks off without an exit code of its own. -/
inductive Crash where
  | script (e : ScriptError)
  | graph (e : GraphError)
  /-- There is no room for a formula. -/
  | overflow
deriving DecidableEq

inductive Ending where
  | exit (code : Nat)
  | misuse (e : UsageError)
  | crash (cause : Crash)
deriving DecidableEq

structure Outcome where
  written : String
  ending : Ending
  files : FileTree

/-- The course of the program up to the diagram: what is written and, unless it ends early, the exit
code and the session. -/
inductive Performance where
  | crashed (written : String) (cause : Crash)
  | halted (written : String) (code : Nat)
  | complete (written : String) (code : Nat) (session : Session)

namespace Options

def level (o : Options) : Level := if o.debug then .debug else .info

def symbols (o : Options) : SymbolSet := if o.ascii then .ascii else .logic

/-- The session at the start of the program. -/
def session (o : Options) : Session := Session.start o.strict o.symbols

end Options

namespace Program

/-- The exit code of a script: whether one of its commands failed. -/
def replayCode (replies : List Reply) : Nat :=
  if replies.any (!·.ok) then 1 else 0

/-- The record that a script has been read. -/
def loadedRecord (path : Path) (commands : List String) : Record :=
  .info ("📋 Script loaded: " ++ path.text ++ " (" ++ toString commands.length ++ " commands)")

/-- Show the proof in the end, if there is room for it. -/
def close (m : Machine) (o : Options) (written : String) (code : Nat) (s : Session) : Performance :=
  if m.draws s.symbols s.document.toProof then
    .complete (written ++ Log.write o.level s.closing) code s
  else .crashed written .overflow

/-- The course of a script that was read, or could not be. The replies are reported after all
commands have been carried out. -/
def perform (m : Machine) (o : Options) (path : Path) :
    Except ScriptError (List String) → Performance
  | .error .invalidPath => .crashed "" (.script .invalidPath)
  | .error e => .halted (Log.write o.level [.error ("Script file error: " ++ e.message)]) 2
  | .ok commands =>
    let c := o.session.runOn m o.stopOnError commands
    let records := loadedRecord path commands :: c.log
    if c.broken then .crashed (Log.write o.level records) .overflow
    else
      let reports := Session.reports o.verbose commands c.replies
      close m o (Log.write o.level (records ++ reports)) (replayCode c.replies) c.session

/-- The conversation, which begins with some help. -/
def conversation (m : Machine) (o : Options) (typed : List String) : Exchange :=
  let x := o.session.converseOn m o.level typed
  { x with written := Log.write o.level [.info helpText] ++ x.written }

/-- The course of a conversation. -/
def converse (m : Machine) (o : Options) (typed : List String) (interrupted : Bool) :
    Performance :=
  let x := conversation m o typed
  if x.broken then .crashed x.written .overflow
  else if interrupted && !x.session.finished then
    .halted (x.written ++ Log.write o.level [.error "Session interrupted by user"]) 3
  else close m o x.written 0 x.session

/-- The outcome of a course: a complete one saves the diagram on demand. -/
def conclude (o : Options) (w : World) : Performance → Outcome
  | .crashed written cause => ⟨written, .crash cause, w.files⟩
  | .halted written code => ⟨written, .exit code, w.files⟩
  | .complete written code s =>
    if o.graph.getD "" = "" then ⟨written, .exit code, w.files⟩
    else
      match Graph.save w.graphviz w.files (o.graph.getD "") o.graphFormat
        (s.document.diagram.dot s.symbols) with
      | (files, .ok records) => ⟨written ++ Log.write o.level records, .exit code, files⟩
      | (files, .error e) => ⟨written, .crash (.graph e), files⟩

/-- The outcome of the program. -/
def run (arguments : List String) (w : World) : Outcome :=
  match Options.parse arguments with
  | .error e => ⟨"", .misuse e, w.files⟩
  | .ok .help => ⟨usage, .exit 0, w.files⟩
  | .ok (.run o) =>
    conclude o w <|
      match o.script with
      | some text =>
        perform w.machine o (Path.ofString text) (w.files.script (Path.ofString text))
      | none => converse w.machine o w.typed w.interrupted

end Program

end NaturalDeduction
