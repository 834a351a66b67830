import IdlBindings.ArgumentType
import IdlBindings.ArityIndex
import IdlBindings.Binding.Basic
import IdlBindings.Binding.Encoding
import IdlBindings.Binding.OfModel
import IdlBindings.Binding.Progress
import IdlBindings.Catalog
import IdlBindings.CommandLine.Invocation
import IdlBindings.CommandLine.Run
import IdlBindings.Context
import IdlBindings.Disk
import IdlBindings.Document.Decoding
import IdlBindings.Document.Encoding
import IdlBindings.Document.Format
import IdlBindings.Event
import IdlBindings.Fault
import IdlBindings.FileTree
import IdlBindings.Identifier
import IdlBindings.Json.Format
import IdlBindings.Json.Number
import IdlBindings.Json.Printer
import IdlBindings.Json.Reader
import IdlBindings.Json.Value
import IdlBindings.Main
import IdlBindings.Model
import IdlBindings.Scope
import IdlBindings.ScopedName
import IdlBindings.Source.Accessor
import IdlBindings.Source.Adapter
import IdlBindings.Source.Contract
import IdlBindings.Source.Enumeration
import IdlBindings.Source.File
import IdlBindings.Source.Handle
import IdlBindings.Source.Preamble
import IdlBindings.Source.Shape
import IdlBindings.Source.Trampoline
import IdlBindings.Text.Blank
import IdlBindings.Text.Bytes
import IdlBindings.Text.Double
import IdlBindings.Text.Lines
import IdlBindings.Text.Numeral
import IdlBindings.Text.Quoted
import IdlBindings.Text.Real
import IdlBindings.Text.Split
import IdlBindings.Uuid
import IdlBindings.Yaml.Buffer
import IdlBindings.Yaml.Cursor
import IdlBindings.Yaml.Fault
import IdlBindings.Yaml.Format
import IdlBindings.Yaml.Node
import IdlBindings.Yaml.Scalar
import IdlBindings.Yaml.ScalarText
import IdlBindings.Yaml.Token
import IdlBindings.Proofs.Arity
import IdlBindings.Proofs.DeclaredType
import IdlBindings.Proofs.Violation
import IdlBindings.Proofs.WellFormed
import IdlBindings.Proofs.FirstFault
import IdlBindings.Proofs.Occurrence
import IdlBindings.Proofs.BindingInvariant
import IdlBindings.Proofs.FunctionText
import IdlBindings.Proofs.Boundary
import IdlBindings.Proofs.TrampolineLine
import IdlBindings.Proofs.TrampolineSafety
import IdlBindings.Proofs.Spelling
import IdlBindings.Proofs.TypeSpelling
import IdlBindings.Proofs.OperationCall
import IdlBindings.Proofs.TableReading
import IdlBindings.Proofs.EnumerationTable
import IdlBindings.Proofs.ConversionCall
import IdlBindings.Proofs.ArityLookup
import IdlBindings.Proofs.OwnReference
import IdlBindings.Proofs.ArityAgreement
import IdlBindings.Proofs.Reference
import IdlBindings.Proofs.OtherLibraries
import IdlBindings.Proofs.LoadHistory
import IdlBindings.Proofs.SilentLoss
import IdlBindings.Proofs.FileWriting
import IdlBindings.Proofs.CommandWords
import IdlBindings.Proofs.OutputSink
import IdlBindings.Proofs.ForeignSpace
import IdlBindings.Proofs.TextBytes
import IdlBindings.Proofs.UuidText
import IdlBindings.Proofs.ShortenedJson
import IdlBindings.Proofs.DocumentReading
import IdlBindings.Proofs.OwnQualifier
import IdlBindings.Proofs.ItemNames
import IdlBindings.Proofs.MemberNames
import IdlBindings.Proofs.UuidSpelling
import IdlBindings.Proofs.LineListing
import IdlBindings.Proofs.UuidConstant
import IdlBindings.Proofs.FlagSet
import IdlBindings.Proofs.ArgumentAttributes
import IdlBindings.Proofs.ArgumentNames
import IdlBindings.Proofs.TypeParameterNames
import IdlBindings.Proofs.VariantNames
import IdlBindings.Proofs.BindingEncoding
import IdlBindings.Proofs.ResultOwnership
import IdlBindings.Proofs.SearchOrder
import IdlBindings.Proofs.DisplayName
import IdlBindings.Proofs.SnakeCase
import IdlBindings.Proofs.SymbolNames
import IdlBindings.Proofs.LookupName
import IdlBindings.Proofs.UsableNames
