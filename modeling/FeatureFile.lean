import FeatureFile.ArgType
import FeatureFile.Cli.Escape
import FeatureFile.Cli.Log
import FeatureFile.Cli.Options
import FeatureFile.Cli.Run
import FeatureFile.Cli.Usage
import FeatureFile.Conversion
import FeatureFile.Document
import FeatureFile.Draft
import FeatureFile.Export.Fixture
import FeatureFile.Export.Format
import FeatureFile.Export.JsonDocument
import FeatureFile.Export.Literal
import FeatureFile.Export.Renderer
import FeatureFile.Fault
import FeatureFile.Files.Path
import FeatureFile.Files.Search
import FeatureFile.Files.Tree
import FeatureFile.Files.Wildcard
import FeatureFile.Json
import FeatureFile.Keyword
import FeatureFile.Line
import FeatureFile.Main
import FeatureFile.Numeral
import FeatureFile.Proofs.Decoding
import FeatureFile.Proofs.Layout
import FeatureFile.Proofs.Reading
import FeatureFile.Reader
import FeatureFile.Report
import FeatureFile.Row
import FeatureFile.Step
import FeatureFile.Table
import FeatureFile.TagSet
import FeatureFile.Text.Blank
import FeatureFile.Text.Casing
import FeatureFile.Text.Cut
import FeatureFile.Text.Digit
import FeatureFile.Text.Hex
import FeatureFile.Text.LineBreak
import FeatureFile.Text.Quoted
import FeatureFile.Text.Ranges
import FeatureFile.Text.Unprintable
import FeatureFile.Text.UpperCase
import FeatureFile.Text.Utf8
import FeatureFile.Text.WordChar
import FeatureFile.Proofs.Grammar
import FeatureFile.Proofs.Sites
import FeatureFile.Proofs.TagAttachment
import FeatureFile.Proofs.Content
import FeatureFile.Proofs.Sources
import FeatureFile.Proofs.FirstFault
import FeatureFile.Proofs.Composition
import FeatureFile.Proofs.Trail
import FeatureFile.Proofs.DigitLimit
import FeatureFile.Proofs.Spelling
import FeatureFile.Proofs.Unbroken
import FeatureFile.Proofs.Margins
import FeatureFile.Proofs.Batch
import FeatureFile.Proofs.JsonReading
import FeatureFile.Proofs.Lossless
import FeatureFile.Proofs.ColumnTypes
import FeatureFile.Proofs.FixtureLines
import FeatureFile.Proofs.WellFormed
import FeatureFile.Proofs.CallReading
import FeatureFile.Proofs.TestCases
import FeatureFile.Proofs.RenderHistory
import FeatureFile.Proofs.Presentation
import FeatureFile.Proofs.Schedule
import FeatureFile.Proofs.Accounting
import FeatureFile.Proofs.Codecs
import FeatureFile.Proofs.ReadBack
import FeatureFile.Proofs.Doubles
import FeatureFile.Proofs.CellTypes
import FeatureFile.Proofs.Shapes
import FeatureFile.Proofs.AllOrNothing
import FeatureFile.Proofs.Synonyms
import FeatureFile.Proofs.ShownLine
import FeatureFile.Proofs.SoundTree
import FeatureFile.Proofs.PathTexts
import FeatureFile.Proofs.Searching
import FeatureFile.Proofs.FoundFiles
import FeatureFile.Proofs.DirectorySearch
import FeatureFile.Proofs.Words
import FeatureFile.Proofs.CellText
import FeatureFile.Proofs.ReaderHistory
import FeatureFile.Proofs.Reports
