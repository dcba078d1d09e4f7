import SpinnerMarkup.CommandLine.Command
import SpinnerMarkup.Main
import SpinnerMarkup.Store.Memory
import SpinnerMarkup.Proofs.AttributeText
import SpinnerMarkup.Proofs.SecondRun
import SpinnerMarkup.Proofs.SinglePass
import SpinnerMarkup.Proofs.Turn
import SpinnerMarkup.Proofs.BatchRun
import SpinnerMarkup.Proofs.Independence
import SpinnerMarkup.Proofs.Mention
import SpinnerMarkup.Proofs.StatementMention
import SpinnerMarkup.Proofs.NeededImport
import SpinnerMarkup.Proofs.Forecast
import SpinnerMarkup.Proofs.Detection
import SpinnerMarkup.Proofs.ClassSource
import SpinnerMarkup.Proofs.PrologueLines
import SpinnerMarkup.Proofs.InsertedLine
import SpinnerMarkup.Proofs.ElementGrammar
import SpinnerMarkup.Proofs.DirectiveFirst
import SpinnerMarkup.Proofs.PrologueContents
import SpinnerMarkup.Proofs.CommentedImport
import SpinnerMarkup.Proofs.Convergence
import SpinnerMarkup.Proofs.Spelling
import SpinnerMarkup.Proofs.LastStatement
import SpinnerMarkup.Proofs.LineEnds
import SpinnerMarkup.Proofs.Context
import SpinnerMarkup.Proofs.TargetPaths
import SpinnerMarkup.Proofs.FileSearch
import SpinnerMarkup.Proofs.Planning
import SpinnerMarkup.Proofs.TokenOrder
import SpinnerMarkup.Proofs.PathSpelling
import SpinnerMarkup.Proofs.KeptPaths
import SpinnerMarkup.Proofs.JsonGrammar
import SpinnerMarkup.Proofs.JsonReading
import SpinnerMarkup.Proofs.ReportText
