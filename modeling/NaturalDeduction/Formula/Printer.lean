import NaturalDeduction.Formula.Basic
import NaturalDeduction.Text.Quoted

/-!
# Written formulas

A formula is written with ASCII symbols or with the symbols of logic. Every compound formula has
its own pair of parentheses. The outline of a formula spells out its construction: the name of the
main connective, followed by its named parts.

## Main definitions

* `SymbolSet`: the two sets of symbols
* `Connective.symbol`: the symbol of a connective
* `Formula.text`: the written formula
* `SymbolSet.label`: a text in the symbols of logic, respelled for a set
* `Formula.kind`: the name of the main connective
* `Formula.outline`: the whole construction
-/

namespace NaturalDeduction

inductive SymbolSet where
  | ascii
  | logic
deriving DecidableEq

def BinOp.symbol : SymbolSet → BinOp → String
  | .ascii, .and => "&"
  | .ascii, .or => "|"
  | .ascii, .implies => "=>"
  | .ascii, .iff => "<=>"
  | .logic, .and => "∧"
  | .logic, .or => "∨"
  | .logic, .implies => "→"
  | .logic, .iff => "↔"

def Connective.symbol : SymbolSet → Connective → String
  | .ascii, .absurd => "#"
  | .ascii, .not => "~"
  | .logic, .absurd => "⊥"
  | .logic, .not => "¬"
  | s, .binary op => op.symbol s

/-- The written formula. -/
def Formula.text (s : SymbolSet) : Formula → String
  | atom name => name
  | absurd => Connective.absurd.symbol s
  | not f => "(" ++ Connective.not.symbol s ++ f.text s ++ ")"
  | binary op l r => "(" ++ l.text s ++ " " ++ op.symbol s ++ " " ++ r.text s ++ ")"

/-- The ASCII spelling of a symbol of logic; any other character spells itself. -/
def SymbolSet.asciiSpelling : Char → List Char
  | '∧' => ['&']
  | '∨' => ['|']
  | '¬' => ['~']
  | '→' => ['=', '>']
  | '↔' => ['<', '=', '>']
  | '⊥' => ['#']
  | c => [c]

/-- A text that may hold symbols of logic, as it is written in a set of symbols. -/
def SymbolSet.label : SymbolSet → String → String
  | .logic, text => text
  | .ascii, text => String.ofList (text.toList.flatMap asciiSpelling)

@[simp] theorem SymbolSet.label_logic (text : String) : SymbolSet.logic.label text = text := rfl

/-! ## Outlines -/

def BinOp.kind : BinOp → String
  | .and => "And"
  | .or => "Or"
  | .implies => "Implies"
  | .iff => "Iff"

namespace Formula

def kind : Formula → String
  | atom _ => "Atom"
  | absurd => "Absurd"
  | not _ => "Not"
  | binary op _ _ => op.kind

def outline : Formula → String
  | atom name => "Atom(name=" ++ Text.quote name ++ ")"
  | absurd => "Absurd()"
  | not f => "Not(operand=" ++ f.outline ++ ")"
  | binary op l r => op.kind ++ "(left=" ++ l.outline ++ ", right=" ++ r.outline ++ ")"

end Formula

end NaturalDeduction
