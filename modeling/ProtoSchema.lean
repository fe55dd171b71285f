import ProtoSchema.Main
import ProtoSchema.FileTree
import ProtoSchema.Draft.Step
import ProtoSchema.Proofs.Document.RoundTrip
import ProtoSchema.Proofs.Braces.Faults
import ProtoSchema.Proofs.Imports.Bound
import ProtoSchema.Proofs.Imports.Kept
import ProtoSchema.Proofs.Imports.Usage
import ProtoSchema.Proofs.Output.DefinitionOrder
import ProtoSchema.Proofs.Symbols.FlatNames
import ProtoSchema.Proofs.Symbols.Scoping
import ProtoSchema.Proofs.Document.SkippedBody
import ProtoSchema.Proofs.Output.Blocks
import ProtoSchema.Proofs.Scopes.Transcript
import ProtoSchema.Proofs.Scopes.Untyped
import ProtoSchema.Proofs.Braces.Text
import ProtoSchema.Proofs.Document.CommentWording
import ProtoSchema.Proofs.Document.OptionInFront
import ProtoSchema.Proofs.Session.FromLeft
import ProtoSchema.Proofs.Document.Concatenation
import ProtoSchema.Proofs.Output.WithoutSettings
import ProtoSchema.Proofs.Session.OutputPerFile
import ProtoSchema.Proofs.Output.DumpReading
import ProtoSchema.Proofs.Source.Layout
import ProtoSchema.Proofs.Source.LineEndings
import ProtoSchema.Proofs.Imports.Captured
import ProtoSchema.Proofs.Source.BlockComments
import ProtoSchema.Proofs.Imports.LastMoved
import ProtoSchema.Proofs.Imports.Records
import ProtoSchema.Proofs.Methods.Reading
import ProtoSchema.Proofs.Scopes.Ranks
import ProtoSchema.Proofs.Document.Erasure
import ProtoSchema.Proofs.Document.StrayComments
import ProtoSchema.Proofs.Document.Shapes
import ProtoSchema.Proofs.Symbols.DottedTokens
import ProtoSchema.Proofs.Source.LineComments
import ProtoSchema.Proofs.Text.NumeralForms
