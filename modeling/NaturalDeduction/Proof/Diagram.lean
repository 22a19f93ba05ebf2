import NaturalDeduction.Proof.Basic
import NaturalDeduction.Proof.Scope

/-!
# Diagrams

The diagram of a proof has a node for each line, a cluster for each subproof and an edge from
each cited line to the line that cites it. It is written in the DOT language.

## Main definitions

* `Layer`: nodes and clusters side by side
* `Layer.ofLines`: the nodes and clusters of some lines
* `Diagram`: nodes, clusters and edges
* `Diagram.dot`: the text of a diagram
-/

namespace NaturalDeduction

/-- Nodes and clusters in order; a cluster holds a layer of its own. -/
inductive Layer where
  | nil
  | node (index : Nat) (line : Line) (rest : Layer)
  | cluster (opener : Nat) (inner rest : Layer)
deriving DecidableEq

namespace Layer

/-- The nodes and clusters of indexed lines that stand inside a scope of the given depth: an
assumption of greater depth opens a cluster, which reaches as far as its subproof. -/
def ofLines (depth : Int) (ls : List (Line × Nat)) : Layer :=
  match ls with
  | [] => nil
  | (l, i) :: rest =>
    if l.isAssumption && depth < l.depth then
      cluster i (node i l (ofLines l.depth (rest.takeWhile fun m => !m.1.closes l.depth)))
        (ofLines depth (rest.dropWhile fun m => !m.1.closes l.depth))
    else node i l (ofLines depth rest)
termination_by ls.length
decreasing_by
  · exact Nat.lt_succ_of_le (List.takeWhile_sublist _).length_le
  · exact Nat.lt_succ_of_le (List.dropWhile_sublist _).length_le
  · simp

end Layer

structure Diagram where
  layer : Layer
  /-- The cited and the citing line of each citation. -/
  edges : List (Int × Nat)
deriving DecidableEq

def Proof.diagram (p : Proof) : Diagram where
  layer := Layer.ofLines 0 p.lines.zipIdx
  edges := p.lines.zipIdx.flatMap fun (l, i) => l.justification.cited.map fun cited => (cited, i)

/-! ## The DOT language -/

namespace Dot

/-- Escape the quotes of a text. The flag says whether an odd number of backslashes stands before
the text: the last of them already escapes a quote. -/
def escapeQuotes (escaped : Bool) : List Char → List Char
  | [] => []
  | '\\' :: cs => '\\' :: escapeQuotes (!escaped) cs
  | '"' :: cs =>
    if escaped then '"' :: escapeQuotes false cs
    else '\\' :: '"' :: escapeQuotes false cs
  | c :: cs => c :: escapeQuotes false cs

def quote (text : String) : String :=
  "\"" ++ String.ofList (escapeQuotes false text.toList) ++ "\""

def nodeName (index : Nat) : String := "L" ++ toString index

/-- The name of a cited node. The minus sign of a negative index has to be quoted. -/
def citedName : Int → String
  | .ofNat index => nodeName index
  | index => quote ("L" ++ toString index)

def indent (level : Nat) : String := String.ofList (List.replicate level '\t')

def fillColor (l : Line) : String :=
  if l.isAssumption then
    if l.depth = 0 then "lightskyblue" else "lightgoldenrodyellow"
  else "white"

def nodeStatement (s : SymbolSet) (index : Nat) (l : Line) : String :=
  let label := toString index ++ ": " ++ l.formula.text s ++ "\n" ++ s.label l.justification.text
  nodeName index ++ " [label=" ++ quote label ++ " fillcolor=" ++ fillColor l ++
    " shape=box style=filled]"

/-- The statements of a layer, each indented by the given level. -/
def layerStatements (s : SymbolSet) (level : Nat) : Layer → List String
  | .nil => []
  | .node index l rest => (indent level ++ nodeStatement s index l) :: layerStatements s level rest
  | .cluster opener inner rest =>
    (indent level ++ "subgraph cluster_" ++ toString opener ++ " \x7b") ::
      (indent (level + 1) ++ "color=grey fontsize=10 label=\"subproof " ++ toString opener ++
        "\" style=rounded") ::
      (layerStatements s (level + 1) inner ++ (indent level ++ "\x7d") ::
        layerStatements s level rest)

def edgeStatement (edge : Int × Nat) : String :=
  indent 1 ++ citedName edge.1 ++ " -> " ++ nodeName edge.2

end Dot

/-- The text of a diagram in the DOT language. -/
def Diagram.dot (s : SymbolSet) (d : Diagram) : String :=
  let rows :=
    ["// Fitch proof", "digraph \x7b", "\tnodesep=0.4 rankdir=TB ranksep=0.4"] ++
      Dot.layerStatements s 1 d.layer ++ d.edges.map Dot.edgeStatement ++ ["\x7d"]
  String.join (rows.map (· ++ "\n"))

end NaturalDeduction
