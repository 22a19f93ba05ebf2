import NaturalDeduction.Proof.Basic
import NaturalDeduction.Text.Blank

/-!
# Drawn proofs

A proof is drawn with one row for each line: its index, a bar for each nesting level, its formula,
and its justification in a column of its own. A separator row stands below the premises and below
every hypothesis. The last row marks the depth of the next line.

## Main definitions

* `Glyphs`: what the bars, separators and marks are made of
* `Proof.rows`: the rows of a drawn proof
* `Proof.render`: the drawn proof
* `Proof.sequent`: premises and conclusion in one line
-/

namespace NaturalDeduction

structure Glyphs where
  bar : String
  rule : String
  underline : String
  marker : String
  turnstile : String

def SymbolSet.glyphs : SymbolSet → Glyphs
  | .ascii => ⟨"|", "+", "----", ">", "|-"⟩
  | .logic => ⟨"│", "├", "────", "▸", "⊢"⟩

namespace Text

/-- Fill a text with spaces on the left, up to a width. -/
def padLeft (width : Nat) (text : String) : String :=
  String.ofList (text.toList.leftpad width ' ')

/-- Fill a text with spaces on the right, up to a width. -/
def padRight (width : Nat) (text : String) : String :=
  String.ofList (text.toList.rightpad width ' ')

end Text

/-- The bars of the nesting levels around a line. -/
def Glyphs.bars (g : Glyphs) (depth : Int) : String :=
  String.join (List.replicate depth.toNat (g.bar ++ " "))

/-- The bars and the formula of a line. -/
def Line.body (s : SymbolSet) (l : Line) : String :=
  s.glyphs.bars l.depth ++ s.glyphs.bar ++ " " ++ l.formula.text s

namespace Proof

/-- The width of the greatest index. -/
def numberWidth (p : Proof) : Nat := (toString (p.lines.length - 1)).length

/-- The width of the widest body. -/
def bodyWidth (s : SymbolSet) (p : Proof) : Nat :=
  (p.lines.map fun l => (l.body s).length).foldl max 0

/-- The space in front of a row without an index. -/
def gutter (p : Proof) : String := String.ofList (List.replicate p.numberWidth ' ') ++ " "

/-- The row of the line at an index. -/
def lineRow (s : SymbolSet) (p : Proof) (i : Nat) (l : Line) : String :=
  Text.padLeft p.numberWidth (toString i) ++ " " ++ Text.padRight (p.bodyWidth s) (l.body s) ++
    "   " ++ s.label l.justification.text

/-- Whether a separator stands below a line: below the last premise and every hypothesis. -/
def isSeparated (p : Proof) (i : Nat) (l : Line) : Bool :=
  i + 1 = p.boundary || (l.isAssumption && 0 < l.depth)

def separatorRow (s : SymbolSet) (p : Proof) (depth : Int) : String :=
  p.gutter ++ s.glyphs.bars depth ++ s.glyphs.rule ++ s.glyphs.underline

def markerRow (s : SymbolSet) (p : Proof) : String :=
  p.gutter ++ s.glyphs.bars p.cursor ++ s.glyphs.marker

/-- The rows that a line takes up. -/
def rowsAt (s : SymbolSet) (p : Proof) (i : Nat) (l : Line) : List String :=
  if p.isSeparated i l then [p.lineRow s i l, p.separatorRow s l.depth] else [p.lineRow s i l]

def rows (s : SymbolSet) (p : Proof) : List String :=
  (p.lines.zipIdx.flatMap fun (l, i) => p.rowsAt s i l) ++ [p.markerRow s]

/-- The drawn proof. -/
def render (s : SymbolSet) (p : Proof) : String := "\n".intercalate (p.rows s)

/-- The premises and the conclusion; a question mark stands for a conclusion that is missing. -/
def sequent (s : SymbolSet) (p : Proof) : String :=
  let premises := ", ".intercalate (p.premises.map fun l => l.formula.text s)
  let goal := (p.conclusion?.map (Formula.text s)).getD "?"
  String.ofList (Text.strip (premises ++ " " ++ s.glyphs.turnstile ++ " " ++ goal).toList)

end Proof

end NaturalDeduction
