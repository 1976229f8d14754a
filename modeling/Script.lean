import Script.Expectation
import Script.Main
import Script.Proofs.Grammar.Passing
import Script.Proofs.Grammar.Tables
import Script.Scope.Tree
import Script.Proofs.Grammar.Soundness
import Script.Proofs.Grammar.Completeness
import Script.Proofs.Grammar.Acceptance
import Script.Proofs.Run.Invariant
import Script.Proofs.Run.Timeless
import Script.Proofs.Run.Limit
import Script.Proofs.Grammar.Blame
import Script.Proofs.Grammar.Places
import Script.Proofs.Token.Scanning
import Script.Proofs.Run.Faults
import Script.Proofs.Run.Scoping
import Script.Proofs.Run.History
import Script.Proofs.Run.Constants
import Script.Proofs.Grammar.Placement
import Script.Proofs.Run.Signals
import Script.Proofs.Run.Covered
import Script.Proofs.Run.Effects
import Script.Proofs.Token.Seams
import Script.Proofs.Token.Moved
import Script.Proofs.Tree.Moved
import Script.Proofs.Grammar.Joining
import Script.Proofs.Grammar.Reading
import Script.Proofs.Run.Echoes
import Script.Proofs.Run.Joined
import Script.Proofs.Grammar.Likeness
import Script.Proofs.Tree.Written
import Script.Proofs.Grammar.Written
import Script.Proofs.Token.Spelling
import Script.Proofs.Grammar.Canonical
import Script.Proofs.Number.Rounding
import Script.Proofs.Number.Bits
import Script.Proofs.Number.Order
import Script.Proofs.Number.Display
import Script.Proofs.Value.Legible
import Script.Proofs.Run.ReadBack
import Script.Proofs.Run.Respaced
import Script.Proofs.Token.Gap
import Script.Proofs.Token.Form
import Script.Proofs.Token.Spans
import Script.Proofs.Grammar.LineBreaks
import Script.Proofs.Grammar.Viable
import Script.Proofs.Grammar.ViableExpression
import Script.Proofs.Grammar.ViableStatement
import Script.Proofs.Grammar.ViableProgram
import Script.Proofs.Token.Laid
import Script.Proofs.Run.Renamed
import Script.Proofs.Tree.Renamed
import Script.Proofs.CommandLine.Session
import Script.Proofs.Run.Values
import Script.Proofs.Run.Simulation
import Script.Proofs.Scope.Matching
import Script.Proofs.Run.Matching
import Script.Proofs.CommandLine.Echo
import Script.Proofs.Run.Atomic
import Script.Proofs.CommandLine.Reporting
import Script.Proofs.Run.Choices
import Script.Proofs.Value.Unfolding
import Script.Proofs.Value.Comparison
import Script.Proofs.Number.Value
import Script.Proofs.Run.Bounds
import Script.Proofs.Number.Shown
import Script.Proofs.Scope.History
import Script.Proofs.Expectation
import Script.Proofs.Tree.Dumped
import Script.Proofs.Grammar.Progress
