import HeaderKeys.FileSystem.Layout
import HeaderKeys.Main
import HeaderKeys.Session
import HeaderKeys.Proofs.ByteScanner
import HeaderKeys.Proofs.DryRun
import HeaderKeys.Proofs.FedScanner
import HeaderKeys.Proofs.GeneratedFile
import HeaderKeys.Proofs.LiteralValues
import HeaderKeys.Proofs.RecoveredTable
import HeaderKeys.Proofs.ScanOrder
import HeaderKeys.Proofs.ScannedTable
import HeaderKeys.Proofs.SplitInputs
import HeaderKeys.Proofs.SuffixedTables
import HeaderKeys.Proofs.CleanText
import HeaderKeys.Proofs.FileCauses
import HeaderKeys.Proofs.OrderedTables
import HeaderKeys.Proofs.RefusedSteps
import HeaderKeys.Proofs.Warnings
import HeaderKeys.Proofs.Diagnostics
import HeaderKeys.Proofs.FirstFailure
import HeaderKeys.Proofs.MadeDirectories
import HeaderKeys.Proofs.RepeatedRun
import HeaderKeys.Proofs.RewrittenPieces
import HeaderKeys.Proofs.SpelledArguments
import HeaderKeys.Proofs.Verbosity
import HeaderKeys.Proofs.WordRuns
import HeaderKeys.Proofs.TruncatedText
import HeaderKeys.Proofs.WritingEffects
import HeaderKeys.Proofs.BraceNesting
import HeaderKeys.Proofs.CarriageReturns
import HeaderKeys.Proofs.DeclarationPattern
import HeaderKeys.Proofs.TrailingText
