import SheetLint.CommandLine.Arguments
import SheetLint.CommandLine.Execute
import SheetLint.Config.Encode
import SheetLint.Main
import SheetLint.Proofs.Acceptance
import SheetLint.Proofs.Flattening
import SheetLint.Proofs.KindIndex
import SheetLint.Proofs.Registration
import SheetLint.Proofs.Resolution
import SheetLint.Proofs.Runs
import SheetLint.Proofs.Selection
import SheetLint.Proofs.Shape
import SheetLint.Proofs.Styles
import SheetLint.Proofs.Traversal
import SheetLint.Proofs.Independence
import SheetLint.Proofs.Execution
import SheetLint.Proofs.Tiling
import SheetLint.Proofs.Places
import SheetLint.Proofs.Distinct
import SheetLint.Proofs.CarriageReturns.Lexemes
import SheetLint.Proofs.CarriageReturns.Tokens
import SheetLint.Proofs.CarriageReturns.Nodes
import SheetLint.Proofs.CarriageReturns.Stylesheets
import SheetLint.Proofs.CarriageReturns.Findings
import SheetLint.Proofs.Coordinates
import SheetLint.Proofs.Origins
import SheetLint.Proofs.Pointing
import SheetLint.Proofs.SourceOrder
import SheetLint.Proofs.JsonNumbers
import SheetLint.Proofs.JsonReading
import SheetLint.Proofs.Records
import SheetLint.Proofs.Agreement
import SheetLint.Proofs.Composition
import SheetLint.Proofs.Comments
import SheetLint.Proofs.Transparency
import SheetLint.Proofs.ConfigRoundTrip
import SheetLint.Proofs.RegistryRuns
import SheetLint.Proofs.Verdicts
import SheetLint.Proofs.Depth
import SheetLint.Proofs.Causes
import SheetLint.Proofs.SourceText
import SheetLint.Proofs.VerdictMonotonicity
import SheetLint.Proofs.KindScan
import SheetLint.Proofs.UnknownKeys
import SheetLint.Proofs.BareUrls
import SheetLint.Proofs.Expansion
import SheetLint.Proofs.Shortening
import SheetLint.Proofs.BudgetTexts
import SheetLint.Proofs.Overrides
import SheetLint.Proofs.Signs
