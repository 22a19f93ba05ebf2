import NaturalDeduction.Text.Blank
import NaturalDeduction.Text.Pieces
import NaturalDeduction.Text.Utf8
import NaturalDeduction.Workspace.FileTree

/-!
# Script files

A script holds one command on each line. Blank lines and lines that start with `#` are comments.
It is read from a file, which has to be encoded in UTF-8. Its carriage returns are taken for line
feeds.

## Main definitions

* `Script.isCommand`: whether a line without surrounding blanks is a command
* `Script.commands`: the commands of a script
* `ScriptError`: why a script cannot be read
* `Text.ofFile`: the text in a file
* `FileTree.script`: the commands of a script file
-/

namespace NaturalDeduction

namespace Script

/-- A command is neither empty nor a comment. -/
def isCommand (cs : List Char) : Bool :=
  match cs with
  | [] => false
  | c :: _ => c != '#'

/-- The commands of a script, without surrounding blanks. The empty lines that `Text.lines` finds
inside a pair of carriage return and line feed and after the last line break are no commands. -/
def commands (text : String) : List String :=
  (((Text.lines text.toList).map Text.strip).filter isCommand).map String.ofList

end Script

inductive ScriptError where
  /-- The path holds a null character, so it is no path. -/
  | invalidPath
  | unreachable (path : Path) (e : FileError)
  | undecodable (path : Path) (fault : Text.Utf8.Fault)
deriving DecidableEq

/-- The number and the description of an error of the file system. -/
def FileError.description : FileError → String
  | notFound => "[Errno 2] No such file or directory"
  | alreadyExists => "[Errno 17] File exists"
  | notDirectory => "[Errno 20] Not a directory"
  | isDirectory => "[Errno 21] Is a directory"
  | nameTooLong => "[Errno 36] File name too long"
  | nullCharacter => "embedded null byte"

def ScriptError.message : ScriptError → String
  | invalidPath => FileError.nullCharacter.description
  | unreachable path .notFound => "Script file not found: " ++ path.text
  | unreachable path e =>
    "Could not read script file " ++ path.text ++ ": " ++ e.description ++ ": " ++
      Text.quote path.text
  | undecodable path fault =>
    "Could not read script file " ++ path.text ++ ": " ++ fault.message

/-- The text in a file with the given contents. -/
def Text.ofFile (bytes : List UInt8) : Except Text.Utf8.Fault String :=
  (Text.Utf8.decode bytes).map fun text => String.ofList (unifyBreaks text.toList)

/-- The commands of a script with the given contents. -/
def Script.ofBytes (path : Path) (bytes : List UInt8) : Except ScriptError (List String) :=
  match Text.ofFile bytes with
  | .ok text => .ok (commands text)
  | .error fault => .error (.undecodable path fault)

/-- The commands of a script whose file has been looked for. -/
def Script.ofContents (path : Path) :
    Except FileError (List UInt8) → Except ScriptError (List String)
  | .ok bytes => ofBytes path bytes
  | .error .nullCharacter => .error .invalidPath
  | .error e => .error (.unreachable path e)

/-- The commands of a script file. -/
def FileTree.script (t : FileTree) (path : Path) : Except ScriptError (List String) :=
  Script.ofContents path (t.read path.text)

end NaturalDeduction
