import TreeQuery.Syntax.Parser
import TreeQuery.Syntax.CaptureIndex
import TreeQuery.Grammar.Environment
import TreeQuery.Completion.Offer
import TreeQuery.Lint.Run
import TreeQuery.Regex.Parser
import TreeQuery.Diagnostic.Rendering
import TreeQuery.Document.Store
import TreeQuery.Analyzer
import TreeQuery.CommandLine.Run
import TreeQuery.Main
import TreeQuery.Proofs.ParserProgress
import TreeQuery.Proofs.ParserLeaves
import TreeQuery.Proofs.DescribedUsage
import TreeQuery.Proofs.OfferAgreement
import TreeQuery.Proofs.QueryPhrases
import TreeQuery.Proofs.ReadingAcceptance
import TreeQuery.Proofs.QueryAcceptance
import TreeQuery.Proofs.ClosedConstructs
import TreeQuery.Proofs.ItemOwners
import TreeQuery.Proofs.ReadingEnds
import TreeQuery.Proofs.TrailingBlanks
import TreeQuery.Proofs.EmptyEnvironment
import TreeQuery.Proofs.GrammarLoading
import TreeQuery.Proofs.TreeShapes
import TreeQuery.Proofs.ReadingShapes
import TreeQuery.Proofs.ParserShapes
import TreeQuery.Proofs.DeclaredShapes
import TreeQuery.Proofs.UnhandledContexts
import TreeQuery.Proofs.NestingCutoff
import TreeQuery.Proofs.QuerySpacing
import TreeQuery.Proofs.JoinedDiagnostics
import TreeQuery.Proofs.DistinctFindings
import TreeQuery.Proofs.SupertypeTraversal
import TreeQuery.Proofs.ResolvedEnvironment
import TreeQuery.Proofs.FieldOwners
import TreeQuery.Proofs.ReorderedDiagnostics
import TreeQuery.Proofs.LinePositions
import TreeQuery.Proofs.CaptureFindings
import TreeQuery.Proofs.LiteralReading
import TreeQuery.Proofs.CursorForms
import TreeQuery.Proofs.ReportRanges
import TreeQuery.Proofs.EditScripts
import TreeQuery.Proofs.WaitingFields
import TreeQuery.Proofs.BlankRuns
import TreeQuery.Proofs.FieldNameForms
import TreeQuery.Proofs.ReadingCourse
import TreeQuery.Proofs.ParserCourse
import TreeQuery.Proofs.CourseReports
import TreeQuery.Proofs.MissingClosers
import TreeQuery.Proofs.BracketNesting
import TreeQuery.Proofs.SkippedTokens
import TreeQuery.Proofs.FlatteningUnion
import TreeQuery.Proofs.FieldIndex
import TreeQuery.Proofs.LongestTokens
import TreeQuery.Proofs.StringPairing
import TreeQuery.Proofs.CaptureOffers
import TreeQuery.Proofs.UnknownKinds
import TreeQuery.Proofs.EmptyContainers
import TreeQuery.Proofs.ConstructEdges
import TreeQuery.Proofs.WholeLines
import TreeQuery.Proofs.MarkedPatterns
