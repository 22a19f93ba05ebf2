import NaturalDeduction.Workspace.Path

/-!
# Files and directories

The files and directories that the program can reach. Those in the current directory are known;
the directories around it and the root are taken to hold nothing else.

## Main definitions

* `Place`: where a path leads
* `FileTree`: what stands where
* `FileTree.locate`: the place that a text leads to
* `FileTree.read`: the contents of a file
* `FileTree.makeDirectories`: create a directory and those around it
* `FileTree.write`: create or replace a file
-/

namespace NaturalDeduction

inductive FileError where
  | notFound
  | notDirectory
  | isDirectory
  | alreadyExists
  | nameTooLong
  /-- A null character ends a name, so no name can hold one. -/
  | nullCharacter
deriving DecidableEq

inductive Entry where
  | file (bytes : List UInt8)
  | directory
deriving DecidableEq

/-- The directories that are there from the start. -/
inductive Base where
  /-- The directory so many levels above the current one. -/
  | above (levels : Nat)
  | root
deriving DecidableEq

/-- A place is given by the names that lead to it. -/
structure Place where
  base : Base
  names : List String
deriving DecidableEq

namespace Place

/-- The current directory. -/
def current : Place := ⟨.above 0, []⟩

/-- The directory around a place; the root is around itself. -/
def up (p : Place) : Place :=
  match p.names, p.base with
  | [], .above n => ⟨.above (n + 1), []⟩
  | [], .root => p
  | names, base => ⟨base, names.dropLast⟩

/-- The place that a component leads to from a directory. -/
def follow (p : Place) (part : String) : Place :=
  if part = "" ∨ part = "." then p
  else if part = ".." then p.up
  else { p with names := p.names ++ [part] }

/-- The place where a text starts. -/
def start (text : String) : Place :=
  if Path.rootOf text = "" then current else ⟨.root, []⟩

end Place

/-- Files and directories by their places. -/
structure FileTree where
  entries : List (Place × Entry)
deriving DecidableEq

namespace FileTree

def empty : FileTree := ⟨[]⟩

/-- The greatest number of bytes in a name. -/
def maxName : Nat := 255

/-- The greatest number of bytes in a path. -/
def maxPath : Nat := 4095

/-- What stands at a place. -/
def entry? (t : FileTree) (p : Place) : Option Entry :=
  if p.names = [] then some .directory else t.entries.lookup p

/-- Put something at a place, instead of what stood there. -/
def insert (t : FileTree) (p : Place) (e : Entry) : FileTree :=
  ⟨t.entries.filter (·.1 ≠ p) ++ [(p, e)]⟩

/-- Follow one component, if there is a directory to follow it from. -/
def step (t : FileTree) (p : Place) (part : String) : Except FileError Place :=
  match t.entry? p with
  | none => .error .notFound
  | some (.file _) => .error .notDirectory
  | some .directory =>
    if maxName < part.utf8ByteSize then .error .nameTooLong else .ok (p.follow part)

/-- Follow components from a place. -/
def walk (t : FileTree) : Place → List String → Except FileError Place
  | p, [] => .ok p
  | p, part :: parts => do
    let p' ← t.step p part
    t.walk p' parts

/-- The place that a text leads to. Only what stands on the way has to be there. -/
def locate (t : FileTree) (text : String) : Except FileError Place :=
  if text.toList.contains '\x00' then .error .nullCharacter
  else if maxPath < text.utf8ByteSize then .error .nameTooLong
  else t.walk (Place.start text) (Path.components text)

/-- What a text leads to. -/
def find? (t : FileTree) (text : String) : Option Entry :=
  match t.locate text with
  | .ok p => t.entry? p
  | .error _ => none

/-- The contents of a file. -/
def read (t : FileTree) (text : String) : Except FileError (List UInt8) := do
  let p ← t.locate text
  match t.entry? p with
  | some (.file bytes) => return bytes
  | some .directory => throw .isDirectory
  | none => throw .notFound

/-- Create a directory in an existing one, unless it is there. -/
def makeDirectory (t : FileTree) (text : String) : FileTree × Except FileError Unit :=
  match t.locate text with
  | .error e => (t, .error e)
  | .ok p =>
    match t.entry? p with
    | some .directory => (t, .ok ())
    | some (.file _) => (t, .error .alreadyExists)
    | none => (t.insert p .directory, .ok ())

/-- A text extended by one component after the other. -/
def extensions (text : String) : List String → List String
  | [] => []
  | part :: parts => (text ++ "/" ++ part) :: extensions (text ++ "/" ++ part) parts

/-- The texts up to each component of a text. -/
def stages (text : String) : List String :=
  match Path.components text with
  | [] => []
  | part :: parts => part :: extensions part parts

/-- Create directories one after the other. Only the last of them must not be a file: that one of
the others is a file shows when the next is created. -/
def makeEach (t : FileTree) : List String → FileTree × Except FileError Unit
  | [] => (t, .ok ())
  | [text] => t.makeDirectory text
  | text :: texts =>
    if (t.find? text).isSome then t.makeEach texts
    else
      match t.makeDirectory text with
      | (t', .ok ()) => t'.makeEach texts
      | (t', .error e) => (t', .error e)

/-- Create a directory and the missing ones around it. -/
def makeDirectories (t : FileTree) (text : String) : FileTree × Except FileError Unit :=
  t.makeEach (stages text)

/-- Create or replace a file in an existing directory. -/
def write (t : FileTree) (text : String) (bytes : List UInt8) : FileTree × Except FileError Unit :=
  match t.locate text with
  | .error e => (t, .error e)
  | .ok p =>
    match t.entry? p with
    | some .directory => (t, .error .isDirectory)
    | _ => (t.insert p (.file bytes), .ok ())

end FileTree

end NaturalDeduction
