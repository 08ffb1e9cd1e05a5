import SheetCompiler.Batch.Convert
import SheetCompiler.Batch.Discovery
import SheetCompiler.Batch.Options
import SheetCompiler.Batch.Plan
import SheetCompiler.CommandLine.Arguments
import SheetCompiler.CommandLine.Run
import SheetCompiler.CommandLine.Switch
import SheetCompiler.Compiled.Sheet
import SheetCompiler.Compiled.Workbook
import SheetCompiler.Entries
import SheetCompiler.Fault
import SheetCompiler.FieldPath
import SheetCompiler.Files.FilePath
import SheetCompiler.Files.FilePattern
import SheetCompiler.Files.FileTree
import SheetCompiler.Header.Column
import SheetCompiler.Header.Schema
import SheetCompiler.Json.Decode
import SheetCompiler.Json.Layout
import SheetCompiler.Json.Scan
import SheetCompiler.Json.Skip
import SheetCompiler.Json.Tree
import SheetCompiler.Main
import SheetCompiler.Number.Binary64
import SheetCompiler.Number.Shortest
import SheetCompiler.Pattern.CharRanges
import SheetCompiler.Pattern.CharSet
import SheetCompiler.Pattern.Matching
import SheetCompiler.Pattern.Reading
import SheetCompiler.Proofs.Outline
import SheetCompiler.Record.Continuation
import SheetCompiler.Record.Fallback
import SheetCompiler.Record.Layout
import SheetCompiler.Record.Row
import SheetCompiler.Record.Shape
import SheetCompiler.Settings
import SheetCompiler.Settings.File
import SheetCompiler.Settings.Load
import SheetCompiler.SheetFault
import SheetCompiler.Text.Blank
import SheetCompiler.Text.CaseRuns
import SheetCompiler.Text.Cut
import SheetCompiler.Text.Lowercase
import SheetCompiler.Text.Utf8
import SheetCompiler.Value
import SheetCompiler.Workbook.Csv
import SheetCompiler.Workbook.Format
import SheetCompiler.Workbook.JsonBook
import SheetCompiler.Workbook.Load
import SheetCompiler.Worksheet
import SheetCompiler.Proofs.RawRecord
import SheetCompiler.Proofs.Declarations
import SheetCompiler.Proofs.Shaping
import SheetCompiler.Proofs.Conformance
import SheetCompiler.Proofs.Growth
import SheetCompiler.Proofs.RowLoop
import SheetCompiler.Proofs.CellOrder
import SheetCompiler.Proofs.LeafDefaults
import SheetCompiler.Proofs.Grouping
import SheetCompiler.Proofs.Agreement
import SheetCompiler.Proofs.CellRow
import SheetCompiler.Proofs.HeaderBlock
import SheetCompiler.Proofs.Boundaries
import SheetCompiler.Proofs.Extension
import SheetCompiler.Proofs.Conflicts
import SheetCompiler.Proofs.TotalDefaults
import SheetCompiler.Proofs.Failure
import SheetCompiler.Proofs.FileNames
import SheetCompiler.Proofs.OutputNames
import SheetCompiler.Proofs.Footprint
import SheetCompiler.Proofs.Blankness
import SheetCompiler.Batch.Schedule
import SheetCompiler.Proofs.FileWrites
import SheetCompiler.Proofs.Schedules
import SheetCompiler.Proofs.PathParts
import SheetCompiler.Proofs.OutputFiles
import SheetCompiler.Proofs.TextBytes
import SheetCompiler.Proofs.QuotedText
import SheetCompiler.Proofs.NumberedNames
import SheetCompiler.Proofs.WrittenOutput
import SheetCompiler.Proofs.CsvText
import SheetCompiler.Proofs.DecodedText
import SheetCompiler.Proofs.LoadedRows
import SheetCompiler.Proofs.PathAddresses
import SheetCompiler.Proofs.Rearrangement
import SheetCompiler.Proofs.Registration
import SheetCompiler.Proofs.MovedColumns
import SheetCompiler.Proofs.ColumnOrder
import SheetCompiler.Proofs.AppendedItems
import SheetCompiler.Proofs.MergeInPlace
import SheetCompiler.Proofs.HeaderRows
import SheetCompiler.Proofs.DeclaredSchema
import SheetCompiler.Proofs.BlankedColumns
import SheetCompiler.Proofs.DroppedColumns
import SheetCompiler.Proofs.QueryPaths
import SheetCompiler.Proofs.ColumnDeclarations
import SheetCompiler.Proofs.HeaderOrder
import SheetCompiler.Proofs.CustomKeywords
import SheetCompiler.Proofs.RepeatedPaths
import SheetCompiler.Proofs.FilledRecords
import SheetCompiler.Proofs.PrunedRecords
import SheetCompiler.Proofs.ShapedRecords
import SheetCompiler.Proofs.OutputNumbers
import SheetCompiler.Proofs.OneAtATime
import SheetCompiler.Proofs.LowercaseParts
import SheetCompiler.Proofs.CaseFolding
import SheetCompiler.Proofs.ReaderRests
import SheetCompiler.Proofs.Numerals
import SheetCompiler.Proofs.DecodedImages
import SheetCompiler.Proofs.DecodedParts
import SheetCompiler.Proofs.CellDigits
import SheetCompiler.Proofs.FormatExtensions
import SheetCompiler.Proofs.PathTexts
import SheetCompiler.Proofs.ParentPaths
import SheetCompiler.Proofs.CommonDirectory
import SheetCompiler.Proofs.PathOrder
import SheetCompiler.Proofs.DirectoryContents
import SheetCompiler.Proofs.PatternMatches
import SheetCompiler.Proofs.FoundFiles
