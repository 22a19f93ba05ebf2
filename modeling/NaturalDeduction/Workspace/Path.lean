import NaturalDeduction.Text.Pieces

/-!
# Paths

A path names a file or a directory, from the current directory or from the root. It is written
without empty and `.` components; `..` is kept, since what it means depends on the directories.

## Main definitions

* `Path`: the components of a path
* `Path.ofString`: the path that a text denotes
* `Path.text`: the path as it is written
* `Path.parent`: the text of a path up to its last component
-/

namespace NaturalDeduction

structure Path where
  /-- The slashes at the start: none for a path from the current directory. -/
  root : String
  parts : List String
deriving DecidableEq

namespace Path

/-- The pieces of a text between slashes. -/
def components (text : String) : List String :=
  (Text.pieces (· = '/') text.toList).map String.ofList

/-- Two slashes at the start are kept; one, or three and more, are one. -/
def rootOf (text : String) : String :=
  match (text.toList.takeWhile (· = '/')).length with
  | 0 => ""
  | 2 => "//"
  | _ => "/"

def ofString (text : String) : Path :=
  ⟨rootOf text, (components text).filter fun part => part ≠ "" ∧ part ≠ "."⟩

/-- The path as it is written; the current directory is a point. -/
def text (p : Path) : String :=
  let written := p.root ++ "/".intercalate p.parts
  if written = "" then "." else written

/-- The text of a path up to its last slash, without the slashes at its end unless it consists of
slashes only. -/
def parent (text : String) : String :=
  let head := (text.toList.reverse.dropWhile (· ≠ '/')).reverse
  let stripped := (head.reverse.dropWhile (· = '/')).reverse
  String.ofList (if stripped = [] then head else stripped)

end Path

end NaturalDeduction
