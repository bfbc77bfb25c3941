import BpScript.Builtin
import BpScript.Builtin.Call
import BpScript.CommandLine
import BpScript.Console
import BpScript.Decimal
import BpScript.Decimal.Nearest
import BpScript.Decimal.Shortest
import BpScript.Diagnostic
import BpScript.Eval
import BpScript.Eval.Loop
import BpScript.Eval.Node
import BpScript.Fault
import BpScript.Machine
import BpScript.Main
import BpScript.Number
import BpScript.Operator
import BpScript.Path
import BpScript.Proofs.Arity
import BpScript.Proofs.Balance
import BpScript.Proofs.Carets
import BpScript.Proofs.Chains
import BpScript.Proofs.Code
import BpScript.Proofs.Compound
import BpScript.Proofs.Discipline
import BpScript.Proofs.Discipline.Builtin
import BpScript.Proofs.Discipline.Construct
import BpScript.Proofs.Effects
import BpScript.Proofs.Equality
import BpScript.Proofs.Events
import BpScript.Proofs.Exports
import BpScript.Proofs.FileMap
import BpScript.Proofs.FirstOffence
import BpScript.Proofs.Grammar
import BpScript.Proofs.Grammar.Soundness
import BpScript.Proofs.Isolation
import BpScript.Proofs.Loops
import BpScript.Proofs.Numeral
import BpScript.Proofs.Places
import BpScript.Proofs.Reach
import BpScript.Proofs.ReadBack
import BpScript.Proofs.ReadBack.Atom
import BpScript.Proofs.ReadBack.Body
import BpScript.Proofs.ReadBack.Operand
import BpScript.Proofs.ReadBack.Steps
import BpScript.Proofs.Reading
import BpScript.Proofs.Reports
import BpScript.Proofs.Resolution
import BpScript.Proofs.Rewinding
import BpScript.Proofs.Run
import BpScript.Proofs.ScopeFrame
import BpScript.Proofs.Search
import BpScript.Proofs.Seats
import BpScript.Proofs.Spacing
import BpScript.Proofs.Spacing.Production
import BpScript.Proofs.Spacing.Program
import BpScript.Proofs.Spacing.Together
import BpScript.Proofs.Spans
import BpScript.Proofs.Spelling
import BpScript.Proofs.Stacks
import BpScript.Proofs.StaticScope
import BpScript.Proofs.Subtree
import BpScript.Proofs.Termination
import BpScript.Proofs.Tiling
import BpScript.Proofs.Traceback
import BpScript.Proofs.Trust
import BpScript.Proofs.Versions
import BpScript.Proofs.Watch
import BpScript.Proofs.Word
import BpScript.Proofs.Writing
import BpScript.Proofs.Yield
import BpScript.Session
import BpScript.Source
import BpScript.Store
import BpScript.Store.Equality
import BpScript.Store.Heap
import BpScript.Store.Render
import BpScript.Table
import BpScript.Text.Blank
import BpScript.Text.Case
import BpScript.Text.CaseTable
import BpScript.Text.Search
import BpScript.Token
import BpScript.Token.Scanner
import BpScript.Tree
import BpScript.Tree.Cursor
import BpScript.Tree.Parser
import BpScript.Value
import BpScript.Workspace
import BpScript.Workspace.Disk
import BpScript.Proofs.Totality
import BpScript.Proofs.Totality.Production
import BpScript.Proofs.Totality.Program
