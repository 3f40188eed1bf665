import FrontEnd.Session
import FrontEnd.Lexer.Scanner
import FrontEnd.Report.Terminal
import FrontEnd.Ast.Equality
import FrontEnd.Dump.Ast
import FrontEnd.Dump.Printer
import FrontEnd.Dump.Node
import FrontEnd.Proofs.LexemeShapes
import FrontEnd.Proofs.LexerRuns
import FrontEnd.Proofs.MaximalMunch
import FrontEnd.Proofs.TextBytes
import FrontEnd.Proofs.TokenTiling
import FrontEnd.Proofs.NumberFragments
import FrontEnd.Proofs.FragmentReports
import FrontEnd.Proofs.FindingPlaces
import FrontEnd.Proofs.SourceLines
import FrontEnd.Proofs.OffsetPlaces
import FrontEnd.Proofs.CharacterBoundaries
import FrontEnd.Proofs.SnippetCuts
import FrontEnd.Proofs.NewlineTokens
import FrontEnd.Proofs.CaretPlacement
import FrontEnd.Proofs.RowAlignment
import FrontEnd.Proofs.RunTransport
import FrontEnd.Proofs.LineIndependence
import FrontEnd.Proofs.LexerCalls
import FrontEnd.Proofs.SessionHistory
import FrontEnd.Proofs.ScannerSteps
import FrontEnd.Proofs.ScannerSafety
import FrontEnd.Proofs.OutlinePrinting
import FrontEnd.Proofs.ColoredOutput
import FrontEnd.Proofs.DecimalTexts
import FrontEnd.Proofs.OutlineTexts
import FrontEnd.Proofs.ErasedTrees
import FrontEnd.Proofs.TypeTexts
import FrontEnd.Proofs.TreeHeaders
import FrontEnd.Proofs.DumpInjectivity
import FrontEnd.Proofs.FragmentRepairs
import FrontEnd.Proofs.LineRebuilding
import FrontEnd.Proofs.TokenRanges
import FrontEnd.Proofs.PlaceLimits
import FrontEnd.Proofs.TextSpacing
import FrontEnd.Proofs.AppendedText
import FrontEnd.Proofs.SpellingTables
import FrontEnd.Proofs.DumpNesting
import FrontEnd.Proofs.SpanLattice
import FrontEnd.Proofs.ReportStability
import FrontEnd.Proofs.NumberEquality
import FrontEnd.Proofs.TreeEquality
