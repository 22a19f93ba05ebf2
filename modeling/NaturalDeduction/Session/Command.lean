import NaturalDeduction.Formula.Parser
import NaturalDeduction.Proof.Inference
import NaturalDeduction.Text.Blank
import NaturalDeduction.Text.Numeral

/-!
# Commands

A command is one line of text: a keyword, which may be shortened to one letter, and what it is
applied to. The rules of inference are named by the keyword for introduction or elimination and a
connective; then follow the indices of the cited lines and, for some rules, a formula.

## Main definitions

* `Command`: what a line asks for
* `Complaint`: why a line is not a command
* `Keyword`: the keywords
* `RuleForm`: what follows the name of a rule
* `Command.read`: the command of a line
-/

namespace NaturalDeduction

inductive Command where
  | operate (op : Operation)
  | draw
  | help
  | quit
deriving DecidableEq

inductive RuleKind where
  | introduction
  | elimination
deriving DecidableEq

def RuleKind.verb : RuleKind → String
  | introduction => "intro"
  | elimination => "elim"

inductive Complaint where
  | noCommand
  | unknownCommand (word : String)
  | notFormula
  | notIndex
  | noConnective (kind : RuleKind)
  | unknownConnective (word : String)
  | argumentCount (expected got : Nat)
deriving DecidableEq

def Complaint.message : Complaint → String
  | noCommand => "Empty command"
  | unknownCommand word => "Unknown command '" ++ word ++ "'"
  | notFormula => "The input expression is not valid"
  | notIndex => "The input value is not a valid index"
  | noConnective kind =>
    "Choose a connective to " ++ kind.verb ++ ": and, or, not, implies, iff, absurd"
  | unknownConnective word => "Unknown connective '" ++ word ++ "'"
  | argumentCount expected got =>
    "Expected " ++ toString expected ++ " argument(s), got " ++ toString got

/-! ## Keywords -/

inductive Keyword where
  | assume
  | suppose
  | discharge
  | delete
  | reiterate
  | rule (kind : RuleKind)
  | draw
  | help
  | quit
deriving DecidableEq

/-- The spellings of the keywords. -/
def Keyword.names : List (String × Keyword) :=
  [("assume", assume), ("a", assume), ("subproof", suppose), ("s", suppose),
   ("end", discharge), ("n", discharge), ("delete", delete), ("d", delete),
   ("reiterate", reiterate), ("r", reiterate), ("intro", rule .introduction),
   ("i", rule .introduction), ("elim", rule .elimination), ("e", rule .elimination),
   ("show", draw), ("help", help), ("h", help), ("quit", quit), ("q", quit)]

/-- The keyword that a word spells, in any letter case. -/
def Keyword.ofWord? (word : List Char) : Option Keyword :=
  names.lookup (String.ofList (Text.lowerAscii word))

/-- The spellings of the connectives. -/
def Connective.names : List (String × Connective) :=
  [("and", binary .and), ("n", binary .and), ("or", binary .or), ("o", binary .or),
   ("not", not), ("t", not), ("implies", binary .implies), ("i", binary .implies),
   ("iff", binary .iff), ("f", binary .iff), ("absurd", absurd), ("a", absurd)]

/-- The connective that a word spells, in any letter case. -/
def Connective.ofWord? (word : List Char) : Option Connective :=
  names.lookup (String.ofList (Text.lowerAscii word))

/-! ## Reading -/

/-- What comes of reading a line. -/
structure Reading where
  /-- The text that was tried as a formula, if the reading got that far. -/
  formulaText : Option String
  outcome : Except Complaint Command

namespace Reading

def complain (c : Complaint) : Reading := ⟨none, .error c⟩

def command (c : Command) : Reading := ⟨none, .ok c⟩

/-- Read a formula that completes an operation. -/
def formula (cs : List Char) (op : Formula → Operation) : Reading where
  formulaText := some (String.ofList cs)
  outcome :=
    match Formula.parse (String.ofList cs) with
    | .ok f => .ok (.operate (op f))
    | .error _ => .error .notFormula

/-- Read an index that completes an operation. -/
def index (cs : List Char) (op : LineRef → Operation) : Reading :=
  match Text.integer? cs with
  | some i => command (.operate (op (.number i)))
  | none => complain .notIndex

end Reading

/-- What follows the name of a rule. -/
inductive RuleForm where
  | one (build : LineRef → Inference LineRef)
  | two (build : LineRef → LineRef → Inference LineRef)
  | three (build : LineRef → LineRef → LineRef → Inference LineRef)
  | oneAndFormula (build : LineRef → Formula → Inference LineRef)

def RuleKind.form : RuleKind → Connective → RuleForm
  | introduction, .binary .and => .two .andIntro
  | introduction, .binary .or => .oneAndFormula .orIntro
  | introduction, .not => .one .notIntro
  | introduction, .binary .implies => .one .impliesIntro
  | introduction, .binary .iff => .two .iffIntro
  | introduction, .absurd => .two .absurdIntro
  | elimination, .binary .and => .oneAndFormula .andElim
  | elimination, .binary .or => .three .orElim
  | elimination, .not => .one .notElim
  | elimination, .binary .implies => .two .impliesElim
  | elimination, .binary .iff => .two .iffElim
  | elimination, .absurd => .oneAndFormula .absurdElim

/-- Read what follows the name of a rule. The number of words is looked at first, then the
indices from left to right, then the formula, which takes up all words after the index. -/
def RuleForm.read (cs : List Char) : RuleForm → Reading
  | one build =>
    match Text.words cs with
    | [a] => .index a fun i => .infer (build i)
    | ws => .complain (.argumentCount 1 ws.length)
  | two build =>
    match Text.words cs with
    | [a, b] =>
      match Text.integer? a with
      | some i => .index b fun j => .infer (build (.number i) j)
      | none => .complain .notIndex
    | ws => .complain (.argumentCount 2 ws.length)
  | three build =>
    match Text.words cs with
    | [a, b, c] =>
      match Text.integer? a, Text.integer? b with
      | some i, some j => .index c fun k => .infer (build (.number i) (.number j) k)
      | _, _ => .complain .notIndex
    | ws => .complain (.argumentCount 3 ws.length)
  | oneAndFormula build =>
    match Text.splitWords 1 cs with
    | [a, text] =>
      match Text.integer? a with
      | some i => .formula text fun f => .infer (build (.number i) f)
      | none => .complain .notIndex
    | ws => .complain (.argumentCount 2 ws.length)

/-- Read the connective and the arguments of a rule. -/
def RuleKind.read (kind : RuleKind) (cs : List Char) : Reading :=
  match Text.firstWord? cs with
  | none => .complain (.noConnective kind)
  | some (word, rest) =>
    match Connective.ofWord? word with
    | none => .complain (.unknownConnective (String.ofList word))
    | some c => (kind.form c).read rest

/-- Read what follows a keyword. The keywords without arguments ignore it. -/
def Keyword.read (cs : List Char) : Keyword → Reading
  | assume => .formula cs .assume
  | suppose => .formula cs .suppose
  | discharge => .command (.operate .discharge)
  | delete => .command (.operate .delete)
  | reiterate => .index cs fun i => .infer (.reiterate i)
  | rule kind => kind.read cs
  | draw => .command .draw
  | help => .command .help
  | quit => .command .quit

/-- Read a line. -/
def Command.read (line : String) : Reading :=
  match Text.firstWord? (Text.strip line.toList) with
  | none => .complain .noCommand
  | some (word, rest) =>
    match Keyword.ofWord? word with
    | none => .complain (.unknownCommand (String.ofList word))
    | some keyword => keyword.read rest

end NaturalDeduction
