import NaturalDeduction.Log
import NaturalDeduction.Proof.Diagram
import NaturalDeduction.Workspace.FileTree

/-!
# Graph files

The diagram of a proof is handed over to a library, which has an image made of it by another
program. What the library does is not up to the proof assistant, so it is a parameter.

## Main definitions

* `Graphviz`: the library
* `Graph.location`: where the diagram is saved
* `Graph.store`: save the source of a diagram
* `Graph.save`: the files and the records that come of a diagram
-/

namespace NaturalDeduction

/-- Why there is no image of a diagram. -/
inductive RenderError where
  /-- The program that makes images is missing or fails. -/
  | program (cause : String)
  | file (e : FileError)
deriving DecidableEq

/-- A library that has images made of diagrams. -/
structure Graphviz where
  /-- Whether there are images of a format. -/
  knows : String → Bool
  /-- Have an image made of the diagram with the given source: what becomes of the files, and where
  the image is. -/
  render : FileTree → (path format dot : String) → FileTree × Except RenderError String

/-- Why a diagram cannot be saved. -/
inductive GraphError where
  | missingFormat
  | unknownFormat
  | file (e : FileError)
deriving DecidableEq

namespace Graph

/-- The directory of the diagrams that are given by a name only. -/
def folder : String := "proof_visualizations"

/-- A name without a directory is put into the directory of diagrams. -/
def isBare (name : String) : Bool := !name.toList.contains '/'

/-- Where a diagram is saved. -/
def location (name : String) : String := if isBare name then folder ++ "/" ++ name else name

/-- What is said when the image has been made. -/
def successRecord (image : String) : Record := .info ("Proof graph saved to " ++ image)

/-- What is said when the image cannot be made. -/
def failureRecord (path format cause : String) : Record :=
  .warning ("Failed to render proof graph to " ++ path ++ "." ++ format ++ ": " ++ cause ++
    ". Ensure Graphviz executables (dot) are in your system's PATH.")

/-- Create the directory of diagrams if it is needed. -/
def prepare (files : FileTree) (name : String) : FileTree × Except FileError Unit :=
  if isBare name then files.makeDirectories folder else (files, .ok ())

/-- Save the source of a diagram, in a directory that is created if it is missing. -/
def store (files : FileTree) (path dot : String) : FileTree × Except FileError Unit :=
  match files.makeDirectories (Path.parent path) with
  | (files', .error e) => (files', .error e)
  | (files', .ok ()) => files'.write path dot.toUTF8.toList

/-- Save the diagram with the given source. The directory of diagrams comes before the look at the
format, so it is there even if the format is unknown. -/
def save (g : Graphviz) (files : FileTree) (name : String) (format : Option String)
    (dot : String) : FileTree × Except GraphError (List Record) :=
  match prepare files name with
  | (files', .error e) => (files', .error (.file e))
  | (files', .ok ()) =>
    match format with
    | none => (files', .error .missingFormat)
    | some format =>
      if g.knows format then
        match g.render files' (location name) format dot with
        | (files'', .ok image) => (files'', .ok [successRecord image])
        | (files'', .error (.program cause)) =>
          (files'', .ok [failureRecord (location name) format cause])
        | (files'', .error (.file e)) => (files'', .error (.file e))
      else (files', .error .unknownFormat)

end Graph

/-- The library where the program that makes images is missing: the source of the diagram is saved,
and that is all. -/
def Graphviz.withoutProgram (knows : String → Bool) (cause : String) : Graphviz where
  knows := knows
  render files path _ dot :=
    match Graph.store files path dot with
    | (files', .error e) => (files', .error (.file e))
    | (files', .ok ()) => (files', .error (.program cause))

end NaturalDeduction
