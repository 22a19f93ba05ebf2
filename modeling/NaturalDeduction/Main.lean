import NaturalDeduction.CommandLine.Program

/-!
# Command line

Finds out what the program meets, and brings about what the program decides: text is written and
files are stored. There is no library that makes images, so that only the source of a diagram is
stored.

## Main definitions

* `Terminal.meet`: what the program meets
* `main`: run the program with the given arguments
-/

namespace NaturalDeduction.Terminal

/-- Write what comes after the text that is there already. -/
def write (text : String) (shown : String) : IO Unit := do
  let out ← IO.getStdout
  out.putStr (text.drop shown.length).toString
  out.flush

/-- How a place is called. -/
def pathOf (p : Place) : String :=
  let start := match p.base with
    | .root => "/"
    | .above levels => String.join (List.replicate levels "../")
  start ++ "/".intercalate p.names

/-- What stands at a place. -/
def look (p : Place) : IO (Option Entry) := do
  try
    return some (.file (← IO.FS.readBinFile (pathOf p)).toList)
  catch
    | .noFileOrDirectory .. => return none
    | .inappropriateType _ code _ =>
      -- The code of the system comes with either sign.
      return if code = 21 ∨ code = -21 then some .directory else none
    | e => throw e

/-- Look at all places that a text leads through. -/
def survey (files : FileTree) (text : String) : IO FileTree := do
  if text.toList.contains '\x00' then return files
  let mut files := files
  let mut place := Place.start text
  for part in Path.components text do
    match files.step place part with
    | .error _ => break
    | .ok next =>
      place := next
      if let some entry ← look next then files := files.insert next entry
  return files

/-- Store the files and directories that are new. -/
def store (before after : FileTree) : IO Unit := do
  for (place, entry) in after.entries do
    if !before.entries.contains (place, entry) then
      match entry with
      | .directory => IO.FS.createDirAll (pathOf place)
      | .file bytes => IO.FS.writeBinFile (pathOf place) ⟨bytes.toArray⟩

/-- The lines that are typed until the session or the input ends, and what is written until then. -/
partial def talk (o : Options) (typed : List String) (shown : String) :
    IO (List String × String) := do
  let x := Program.conversation .unlimited o typed
  write x.written shown
  if x.session.finished then return (typed, x.written)
  let line ← (← IO.getStdin).getLine
  if line.isEmpty then return (typed, x.written)
  talk o (typed ++ [(line.dropEndWhile (· == '\n')).toString]) x.written

/-- What the program meets, and what has been written on the way. -/
def meet (arguments : List String) : IO (World × String) := do
  let library := Graphviz.withoutProgram (fun _ => true) "there is no program that makes images"
  match Options.parse arguments with
  | .ok (.run o) =>
    let scripts := o.script.toList.map fun text => (Path.ofString text).text
    let diagrams := o.graph.toList.map Graph.location
    let files ← (scripts ++ diagrams).foldlM survey FileTree.empty
    let (typed, shown) ← if o.script.isSome then pure ([], "") else talk o [] ""
    return (⟨files, typed, false, library, .unlimited⟩, shown)
  | _ => return (⟨.empty, [], false, library, .unlimited⟩, "")

/-- Tell how the program ends. -/
def finish : Ending → IO UInt32
  | .exit code => return code.toUInt32
  | .misuse e => do
    IO.eprintln ("run_fitch.py: error: " ++ e.message)
    return 2
  | .crash (.script e) => throw (IO.userError e.message)
  | .crash (.graph _) => throw (IO.userError "the diagram cannot be saved")
  | .crash .overflow => throw (IO.userError "a formula is nested too deeply")

end NaturalDeduction.Terminal

open NaturalDeduction in
def main (arguments : List String) : IO UInt32 := do
  let (w, shown) ← Terminal.meet arguments
  let outcome := Program.run arguments w
  Terminal.write outcome.written shown
  Terminal.store w.files outcome.files
  Terminal.finish outcome.ending
