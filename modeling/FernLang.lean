import FernLang.Main
import FernLang.Proofs.Grammar.Completion
import FernLang.Proofs.Grammar.Rendering
import FernLang.Proofs.Run.Chain
import FernLang.Proofs.Scope.Safety
import FernLang.Proofs.Run.Items
import FernLang.Proofs.Run.CallStack
import FernLang.Proofs.Diagnosis.Placement
import FernLang.Proofs.Diagnosis.Report
import FernLang.Proofs.Run.Guards
import FernLang.Proofs.Run.Outcomes
import FernLang.Proofs.Scope.Lookup
import FernLang.Proofs.Text.Quoted
import FernLang.Proofs.Expr.Alike
import FernLang.Proofs.Value.Equality
import FernLang.Proofs.Run.Parallel
import FernLang.Proofs.Run.Representation
import FernLang.Proofs.Run.Tables
import FernLang.Proofs.Run.Pieces
import FernLang.Proofs.Run.History
import FernLang.Proofs.Diagnosis.Survival
import FernLang.Proofs.Grammar.Acceptance
import FernLang.Proofs.Expr.Exchange
import FernLang.Proofs.Scope.Dictionary
import FernLang.Proofs.Run.Tracing
import FernLang.Proofs.Run.Overflow
import FernLang.Proofs.Token.Laid
import FernLang.Proofs.Expr.Shift
import FernLang.Proofs.Grammar.Joining
import FernLang.Proofs.Shell.Continuation
import FernLang.Proofs.Grammar.Brackets
import FernLang.Proofs.Grammar.Nesting
import FernLang.Proofs.Diagnosis.Excerpt
import FernLang.Proofs.Command.Rerun
import FernLang.Proofs.Value.Matching
import FernLang.Proofs.Run.Constructors
import FernLang.Proofs.Run.Rearrangement
import FernLang.Proofs.Run.Rescoping
import FernLang.Proofs.Run.Binding
import FernLang.Proofs.Value.Reading
import FernLang.Proofs.Run.Tags
import FernLang.Proofs.Diagnosis.Underline
import FernLang.Proofs.Token.Failure
import FernLang.Proofs.Value.Operators
import FernLang.Proofs.Value.Division
import FernLang.Proofs.Diagnosis.Positions
import FernLang.Proofs.Grammar.Progress
