import Karnaugh.Ascending
import Karnaugh.Batch
import Karnaugh.Command.Arguments
import Karnaugh.Command.Basic
import Karnaugh.Command.Run
import Karnaugh.Console
import Karnaugh.Decimal.Binary
import Karnaugh.Decimal.Fixed
import Karnaugh.Decimal.Reader
import Karnaugh.Decimal.Shortest
import Karnaugh.Decimal.Style
import Karnaugh.Document.Basic
import Karnaugh.Document.Encode
import Karnaugh.Document.Source
import Karnaugh.Drawing
import Karnaugh.Error
import Karnaugh.Expression
import Karnaugh.Failure
import Karnaugh.Files.Basic
import Karnaugh.Files.Path
import Karnaugh.Files.Tree
import Karnaugh.Gray
import Karnaugh.Grid.Basic
import Karnaugh.Grid.Table
import Karnaugh.Grid.Text
import Karnaugh.Implicant
import Karnaugh.Json.Decode
import Karnaugh.Json.Number
import Karnaugh.Json.Printer
import Karnaugh.Json.Reader
import Karnaugh.Json.Source
import Karnaugh.Json.Value
import Karnaugh.Layout
import Karnaugh.Main
import Karnaugh.Minimize.Basic
import Karnaugh.Minimize.Cover
import Karnaugh.Minimize.Primes
import Karnaugh.Minimize.Request
import Karnaugh.Minimize.Rounds
import Karnaugh.Pattern.Basic
import Karnaugh.Pattern.Reading
import Karnaugh.Problem
import Karnaugh.Region.AxisSpan
import Karnaugh.Region.Basic
import Karnaugh.Session
import Karnaugh.Settings.Basic
import Karnaugh.Shape.Basic
import Karnaugh.Shape.Outline
import Karnaugh.Shape.Synthesis
import Karnaugh.Sheet.Basic
import Karnaugh.Sheet.Report
import Karnaugh.Sheet.Svg
import Karnaugh.Spec.Basic
import Karnaugh.Spec.Csv
import Karnaugh.Spec.Minterms
import Karnaugh.Spec.Share
import Karnaugh.Storage
import Karnaugh.Terminal
import Karnaugh.Text.Blank
import Karnaugh.Text.Numeral
import Karnaugh.Text.Pad
import Karnaugh.Text.Percent
import Karnaugh.Text.Quoted
import Karnaugh.Text.Split
import Karnaugh.Text.Unprintable
import Karnaugh.Text.Utf8
import Karnaugh.Text.Words
import Karnaugh.Yaml.Block
import Karnaugh.Yaml.Cursor
import Karnaugh.Yaml.Gap
import Karnaugh.Yaml.Lexer
import Karnaugh.Yaml.Node
import Karnaugh.Yaml.Plain
import Karnaugh.Yaml.Printer
import Karnaugh.Yaml.Quoted
import Karnaugh.Yaml.Scalar
import Karnaugh.Yaml.Source
import Karnaugh.Yaml.Style
import Karnaugh.Yaml.Tag
import Karnaugh.Yaml.Token
import Karnaugh.Proofs.Arcs
import Karnaugh.Proofs.BatchReports
import Karnaugh.Proofs.Batches
import Karnaugh.Proofs.Checks
import Karnaugh.Proofs.Combination
import Karnaugh.Proofs.CoverSearch
import Karnaugh.Proofs.CoverSelection
import Karnaugh.Proofs.CsvTables
import Karnaugh.Proofs.Cubes
import Karnaugh.Proofs.DisplayOrder
import Karnaugh.Proofs.Drawings
import Karnaugh.Proofs.Escapes
import Karnaugh.Proofs.ExpressionMeaning
import Karnaugh.Proofs.GrayCode
import Karnaugh.Proofs.GreedyBound
import Karnaugh.Proofs.GreedyRuns
import Karnaugh.Proofs.GridRuns
import Karnaugh.Proofs.GridTexts
import Karnaugh.Proofs.Grids
import Karnaugh.Proofs.Independence
import Karnaugh.Proofs.Irredundance
import Karnaugh.Proofs.Labels
import Karnaugh.Proofs.Legends
import Karnaugh.Proofs.MembershipTables
import Karnaugh.Proofs.Minimization
import Karnaugh.Proofs.MintermLists
import Karnaugh.Proofs.Outlines
import Karnaugh.Proofs.PartialCovers
import Karnaugh.Proofs.PatternTexts
import Karnaugh.Proofs.PercentDecoding
import Karnaugh.Proofs.PictureStrings
import Karnaugh.Proofs.Pictures
import Karnaugh.Proofs.Pieces
import Karnaugh.Proofs.Placement
import Karnaugh.Proofs.PrimeImplicants
import Karnaugh.Proofs.Pruning
import Karnaugh.Proofs.Regions
import Karnaugh.Proofs.Rendering
import Karnaugh.Proofs.Rounds
import Karnaugh.Proofs.SameSets
import Karnaugh.Proofs.ShapeFaults
import Karnaugh.Proofs.ShareLinks
import Karnaugh.Proofs.Sheets
import Karnaugh.Proofs.Spans
import Karnaugh.Proofs.XmlExtensions
import Karnaugh.Proofs.XmlPieces
import Karnaugh.Proofs.XmlReading
import Karnaugh.Proofs.XmlStrings
import Karnaugh.Proofs.XmlWeights
