import NaturalDeduction.CommandLine.Dialogue
import NaturalDeduction.CommandLine.GraphFile
import NaturalDeduction.CommandLine.Options
import NaturalDeduction.CommandLine.Program
import NaturalDeduction.CommandLine.Usage
import NaturalDeduction.Formula.Basic
import NaturalDeduction.Formula.Parser
import NaturalDeduction.Formula.Printer
import NaturalDeduction.Formula.Reader
import NaturalDeduction.Formula.Token
import NaturalDeduction.Log
import NaturalDeduction.Main
import NaturalDeduction.Proof.Basic
import NaturalDeduction.Proof.Diagram
import NaturalDeduction.Proof.Document
import NaturalDeduction.Proof.Inference
import NaturalDeduction.Proof.Layout
import NaturalDeduction.Proof.Line
import NaturalDeduction.Proof.Procedure
import NaturalDeduction.Proof.Scope
import NaturalDeduction.Proofs.Acceptance
import NaturalDeduction.Proofs.Alignment
import NaturalDeduction.Proofs.Atomicity
import NaturalDeduction.Proofs.Chain
import NaturalDeduction.Proofs.Changes
import NaturalDeduction.Proofs.Citation
import NaturalDeduction.Proofs.Clusters
import NaturalDeduction.Proofs.Completeness
import NaturalDeduction.Proofs.Construction
import NaturalDeduction.Proofs.Deduction
import NaturalDeduction.Proofs.Diagnosis
import NaturalDeduction.Proofs.Drawing
import NaturalDeduction.Proofs.Encoding
import NaturalDeduction.Proofs.Grammar
import NaturalDeduction.Proofs.Loading
import NaturalDeduction.Proofs.Nesting
import NaturalDeduction.Proofs.Replay
import NaturalDeduction.Proofs.Respelling
import NaturalDeduction.Proofs.Room
import NaturalDeduction.Proofs.Rules
import NaturalDeduction.Proofs.Running
import NaturalDeduction.Proofs.Soundness
import NaturalDeduction.Proofs.Spelling
import NaturalDeduction.Proofs.Strictness
import NaturalDeduction.Proofs.Substitution
import NaturalDeduction.Proofs.Tiling
import NaturalDeduction.Proofs.Tracking
import NaturalDeduction.Proofs.Transcript
import NaturalDeduction.Proofs.Truth
import NaturalDeduction.Proofs.WellFormed
import NaturalDeduction.Proofs.Wording
import NaturalDeduction.Proofs.Words
import NaturalDeduction.Session.Basic
import NaturalDeduction.Session.Command
import NaturalDeduction.Text.Blank
import NaturalDeduction.Text.Fraction
import NaturalDeduction.Text.Numeral
import NaturalDeduction.Text.Pieces
import NaturalDeduction.Text.Printable
import NaturalDeduction.Text.Quoted
import NaturalDeduction.Text.Utf8
import NaturalDeduction.Text.Value
import NaturalDeduction.Workspace.FileTree
import NaturalDeduction.Workspace.Path
import NaturalDeduction.Workspace.ScriptFile
