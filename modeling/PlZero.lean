import PlZero.CommandLine.Folder
import PlZero.Main
import PlZero.Proofs.Peg.Depth
import PlZero.Proofs.Peg.Scan
import PlZero.Proofs.Grammar.Derivation
import PlZero.Proofs.Grammar.Runs
import PlZero.Proofs.Grammar.Tokens
import PlZero.Proofs.Expr.Climbing
import PlZero.Proofs.Expr.Tiers
import PlZero.Proofs.Grammar.Readings
import PlZero.Proofs.Expr.Soundness
import PlZero.Proofs.Expr.Completeness
import PlZero.Proofs.Stmt.Phrases
import PlZero.Proofs.Stmt.Soundness
import PlZero.Proofs.Stmt.Completeness
import PlZero.Proofs.Parse
import PlZero.Proofs.Expr.Render
import PlZero.Proofs.Exec.Ends
import PlZero.Proofs.Exec.Machine
import PlZero.Proofs.Exec.Refinement
import PlZero.Proofs.Exec.Cut
import PlZero.Proofs.Peg.Calls
import PlZero.Proofs.Peg.Forest
import PlZero.Proofs.Grammar.Integers
import PlZero.Proofs.Grammar.Portable
import PlZero.Proofs.Text.Position
import PlZero.Proofs.Stmt.Portable
import PlZero.Proofs.Joining
import PlZero.Proofs.Entry
import PlZero.Proofs.Shape
import PlZero.Proofs.Peg.Notes
import PlZero.Proofs.Peg.Recode
import PlZero.Proofs.Grammar.Digits
import PlZero.Proofs.Stmt.Patterns
import PlZero.Proofs.Admission
import PlZero.Proofs.Explained
import PlZero.Proofs.Expected
import PlZero.Proofs.Coordinates
import PlZero.Proofs.Stmt.Parts
import PlZero.Proofs.Exec.Frame
import PlZero.Proofs.Exec.Postorder
import PlZero.Proofs.Exec.Reads
import PlZero.Proofs.Stmt.Contents
import PlZero.Proofs.Exec.Evaluation
import PlZero.Proofs.Exec.Exact
import PlZero.Proofs.Exec.Faults
import PlZero.Proofs.Session
import PlZero.Proofs.Text.Integers
import PlZero.Proofs.Text.Layout
import PlZero.Proofs.Layout
import PlZero.Proofs.CommandLine.Arguments
import PlZero.Proofs.CommandLine.Front
import PlZero.Proofs.Exec.Reasons
import PlZero.Proofs.Oversized
import PlZero.Proofs.Exec.Effects
import PlZero.Proofs.OneStatement
import PlZero.Proofs.Report
import PlZero.Proofs.Exec.Division
import PlZero.Proofs.Expr.Strata
import PlZero.Proofs.Furthest
