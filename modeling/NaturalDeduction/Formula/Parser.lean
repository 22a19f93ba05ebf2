import NaturalDeduction.Formula.Token
import NaturalDeduction.Text.Blank

/-!
# Reading formulas

A formula is an atom, falsehood, a negation sign followed by a formula, or a pair of parentheses
around a formula or around two formulas with a binary connective between them.

Tokens are read one at a time. What has been read so far is kept as a stack of unfinished
formulas, so each token either continues the reading or is reported at once, before anything
after it is looked at.

## Main definitions

* `Frame`: an unfinished formula
* `Progress`: the state of a reading
* `Progress.next?`: the state after one more token
* `ParseError`: why a text is not a formula
* `Formula.parse`: the formula that a text spells
-/

namespace NaturalDeduction

/-- A formula of which the last part is still to come. -/
inductive Frame where
  /-- A negation sign. -/
  | negation
  /-- An opening parenthesis. -/
  | group
  /-- An opening parenthesis, a formula and a connective. -/
  | operand (op : BinOp) (left : Formula)
deriving DecidableEq

/-- The state of a reading; the innermost unfinished formula comes first. -/
inductive Progress where
  /-- A formula has to follow. -/
  | awaiting (stack : List Frame)
  /-- A formula has been completed. -/
  | holding (f : Formula) (stack : List Frame)
deriving DecidableEq

namespace Progress

/-- The state after a formula has been completed: the negation signs before it apply to it. -/
def complete (f : Formula) : List Frame → Progress
  | .negation :: stack => complete (.not f) stack
  | stack => holding f stack

/-- The state after one more token, if the token can follow. -/
def next? : Progress → Token → Option Progress
  | awaiting stack, .atom name => some (complete (.atom name) stack)
  | awaiting stack, .symbol .absurd => some (complete .absurd stack)
  | awaiting stack, .symbol .not => some (awaiting (.negation :: stack))
  | awaiting stack, .opening => some (awaiting (.group :: stack))
  | holding f (.group :: stack), .symbol (.binary op) => some (awaiting (.operand op f :: stack))
  | holding f (.group :: stack), .closing => some (complete f stack)
  | holding f (.operand op l :: stack), .closing => some (complete (.binary op l f) stack)
  | _, _ => none

end Progress

inductive ParseError where
  | blank
  | illegal (i : Illegal)
  | unexpected (l : Lexeme)
  | unexpectedEnd
  | notText (kind : String)
deriving DecidableEq

def Illegal.message (i : Illegal) : String :=
  "Illegal character '" ++ i.char.toString ++ "' encountered at position " ++ toString i.position

def ParseError.message : ParseError → String
  | blank => "Input formula is empty."
  | illegal i => "Parse failed: " ++ i.message
  | unexpected l =>
    "Syntax error near '" ++ String.ofList l.text ++ "' (type: " ++ l.token.kind ++
      ") at position " ++ toString l.start
  | unexpectedEnd => "Syntax error: Unexpected end of formula"
  | notText kind => "'" ++ kind ++ "' object has no attribute 'strip'"

namespace Progress

/-- Read lexemes up to the first that cannot follow. -/
def read : Progress → List Lexeme → Except ParseError Progress
  | p, [] => .ok p
  | p, l :: ls =>
    match p.next? l.token with
    | some q => q.read ls
    | none => .error (.unexpected l)

/-- The formula that has been read when the text ends. -/
def finish : Progress → Except ParseError Formula
  | holding f [] => .ok f
  | _ => .error .unexpectedEnd

end Progress

/-- The formula of a scanned text. An illegal character is reported only if every lexeme before
it could follow. -/
def Scan.parse (s : Scan) : Except ParseError Formula :=
  match (Progress.awaiting []).read s.lexemes, s.illegal with
  | .error e, _ => .error e
  | .ok _, some i => .error (.illegal i)
  | .ok p, none => p.finish

/-- The formula that a text spells. -/
def Formula.parse (text : String) : Except ParseError Formula :=
  if Text.strip text.toList = [] then .error .blank else (scan text).parse

end NaturalDeduction
