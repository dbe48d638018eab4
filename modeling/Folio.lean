import Folio.Number.Binary
import Folio.Text.Blank
import Folio.Text.Lowercase
import Folio.Text.Quoted
import Folio.Text.Split
import Folio.Json.Printer
import Folio.Json.Reader
import Folio.Error
import Folio.Language
import Folio.Log
import Folio.Chunk
import Folio.Page
import Folio.Prompt
import Folio.Reply
import Folio.Url
import Folio.Chat
import Folio.Endpoint
import Folio.Json.Decode
import Folio.Job
import Folio.Config
import Folio.Translations
import Folio.Translation
import Folio.Pdf.Filter
import Folio.Pdf.Object
import Folio.Pdf.Deflate
import Folio.Pdf.Document
import Folio.Pdf.Text
import Folio.Pdf.Content
import Folio.Pdf.File
import Folio.Pdf.Reading
import Folio.Font.WinAnsi
import Folio.Font.Helvetica
import Folio.Font.Face
import Folio.Font.Sfnt
import Folio.Font.Measures
import Folio.Font.Naming
import Folio.Font.ByteEncoding
import Folio.Font.CharacterMap
import Folio.Font.TrueType
import Folio.Font.UnicodeMap
import Folio.Font.UnicodeMap.Mapping
import Folio.Font.UnicodeMap.Reader
import Folio.Font
import Folio.Font.Source
import Folio.Pdf.Source
import Folio.Layout.FontSize
import Folio.Layout.Setup
import Folio.Layout.Measure
import Folio.Layout.Column
import Folio.Layout.Labels
import Folio.Layout.Content
import Folio.Layout.Pagination
import Folio.Layout.Sink
import Folio.Renderer
import Folio.Pdf.Output
import Folio.Conversion
import Folio.Text.Utf16
import Folio.Text.Utf8
import Folio.Http
import Folio.CommandLine.Arguments
import Folio.CommandLine.Command
import Folio.CommandLine
import Folio.Http.Message
import Folio.Http.Replay
import Folio.CommandLine.Report
import Folio.Main
import Folio.Proofs.TranslationRun
import Folio.Proofs.Faithful
import Folio.Proofs.Recording
import Folio.Proofs.CommitOnce
import Folio.Proofs.Replacing
import Folio.Proofs.Wrapping
import Folio.Proofs.Rendered
import Folio.Proofs.Binary
import Folio.Proofs.Gates
import Folio.Proofs.InputOrder
import Folio.Proofs.Pdf.PageTree
import Folio.Proofs.Pdf.Embedding
import Folio.Proofs.Pdf.Represents
import Folio.Proofs.Pdf.Session
import Folio.Proofs.Files
import Folio.Proofs.Pdf.Rendering
import Folio.Proofs.Conversion
import Folio.Proofs.ApiKey
import Folio.Proofs.Url.Segments
import Folio.Proofs.Url.Front
import Folio.Proofs.Url.Joining
import Folio.Proofs.Endpoint
import Folio.Proofs.Extension
import Folio.Proofs.Validation
import Folio.Proofs.Json.Decoding
import Folio.Proofs.Json.Invariant
import Folio.Proofs.Json.Numbers
import Folio.Proofs.Config
import Folio.Proofs.ByteOrder
import Folio.Proofs.Json.Members
import Folio.Proofs.Keys
import Folio.Proofs.Answers
import Folio.Proofs.Json.Unfinished
import Folio.Proofs.ClosingFence
import Folio.Proofs.QuotedFence
import Folio.Proofs.Cutting
import Folio.Proofs.PageCapacity
import Folio.Proofs.LineBreaks
import Folio.Proofs.Binary.Nearest
import Folio.Proofs.Binary.Magnitude
import Folio.Proofs.Binary.Operations
import Folio.Proofs.TextWidth
import Folio.Proofs.FewestLines
import Folio.Proofs.Splitting
import Folio.Proofs.Paragraphs
import Folio.Proofs.Binary.Order
import Folio.Proofs.ContentWidth
import Folio.Proofs.Pdf.TextPosition
import Folio.Proofs.Written
import Folio.Proofs.UnicodeMap
import Folio.Proofs.SystemPrompt
import Folio.Proofs.GlyphWidths
import Folio.Proofs.Pdf.PageBox
import Folio.Proofs.Resolution
import Folio.Proofs.Paths
import Folio.Proofs.OutputPath
import Folio.Proofs.Lowercase
import Folio.Proofs.LanguageTags
import Folio.Proofs.Measuring
