import ServiceDoc.Text.Blank
import ServiceDoc.Text.Line
import ServiceDoc.Text.Alphanumeric
import ServiceDoc.Text.Slice
import ServiceDoc.Text.Terminal
import ServiceDoc.Text.Hexadecimal
import ServiceDoc.Pattern.Expression
import ServiceDoc.Pattern.Cursor
import ServiceDoc.Pattern.Escape
import ServiceDoc.Pattern.Bracketed
import ServiceDoc.Pattern.Reader
import ServiceDoc.Pattern.Fault
import ServiceDoc.Log.Line
import ServiceDoc.Log.Field
import ServiceDoc.Log.Directive
import ServiceDoc.Log.Filter
import ServiceDoc.Decimal.Layout
import ServiceDoc.Datum
import ServiceDoc.Json.Numeral
import ServiceDoc.Json.QuotedText
import ServiceDoc.Json.Token
import ServiceDoc.Json.Tree
import ServiceDoc.Text.Quoted
import ServiceDoc.Json.Shape
import ServiceDoc.Json.Decode
import ServiceDoc.Json.Writer
import ServiceDoc.Idl.Wire
import ServiceDoc.Http.Binding
import ServiceDoc.OpenApi.Document
import ServiceDoc.OpenApi.Edit
import ServiceDoc.Generation
import ServiceDoc.Toml.Reader
import ServiceDoc.Settings.Record
import ServiceDoc.Settings.Layer
import ServiceDoc.Files.Path
import ServiceDoc.Files.Problem
import ServiceDoc.Files.Tree
import ServiceDoc.Files.Storage
import ServiceDoc.CommandLine.Flag
import ServiceDoc.CommandLine.Options
import ServiceDoc.CommandLine.Program
import ServiceDoc.Main
import ServiceDoc.Proofs.Http.Binding
import ServiceDoc.Proofs.OpenApi.Slots
import ServiceDoc.Proofs.OpenApi.Run
import ServiceDoc.Proofs.Assembly.Account
import ServiceDoc.Proofs.Assembly.Identity
import ServiceDoc.Proofs.Json.Scan
import ServiceDoc.Proofs.Json.Spelling
import ServiceDoc.Proofs.Json.Growth
import ServiceDoc.Proofs.Json.Decoding
import ServiceDoc.Proofs.Json.Objects
import ServiceDoc.Proofs.Json.Variant
import ServiceDoc.Proofs.Idl.Catalogue
import ServiceDoc.Proofs.Idl.Nested
import ServiceDoc.Proofs.Idl.WireForm
import ServiceDoc.Proofs.Idl.RoundTrip
import ServiceDoc.Proofs.Idl.Lenient
import ServiceDoc.Proofs.Assembly.Position
import ServiceDoc.Proofs.Assembly.Exposure
import ServiceDoc.Proofs.Assembly.Reordering
import ServiceDoc.Proofs.Assembly.Outline
import ServiceDoc.Proofs.Assembly.Erasure
import ServiceDoc.Proofs.Assembly.Story
import ServiceDoc.Proofs.Json.Faithful
import ServiceDoc.Proofs.OpenApi.Faithful
import ServiceDoc.Proofs.OpenApi.FanOut
import ServiceDoc.Proofs.OpenApi.Merge
import ServiceDoc.Proofs.Files.Tree
import ServiceDoc.Proofs.Files.Storage
import ServiceDoc.Proofs.CommandLine.Program
import ServiceDoc.Proofs.Files.Path
import ServiceDoc.Proofs.Files.Alike
import ServiceDoc.Proofs.CommandLine.Options
import ServiceDoc.Proofs.CommandLine.Dump
import ServiceDoc.Proofs.Idl.Naming
import ServiceDoc.Proofs.OpenApi.Canonical
import ServiceDoc.Proofs.Assembly.Parameters
import ServiceDoc.Proofs.OpenApi.Entries
import ServiceDoc.Proofs.Assembly.ObjectSchema
import ServiceDoc.Proofs.Assembly.TypeUse
import ServiceDoc.Proofs.CommandLine.Delivery
import ServiceDoc.Proofs.Rendering.Comment
import ServiceDoc.Proofs.Toml.Keys
import ServiceDoc.Proofs.CommandLine.Layers
import ServiceDoc.Proofs.Yaml.Printed
import ServiceDoc.Proofs.Yaml.Faithful
import ServiceDoc.Proofs.Rendering.Faithful
import ServiceDoc.Proofs.Idl.Growth
import ServiceDoc.Proofs.Assembly.Descriptions
import ServiceDoc.Proofs.OpenApi.Same
