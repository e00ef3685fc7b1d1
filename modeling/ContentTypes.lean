import ContentTypes.Compilation
import ContentTypes.Decimal.Layout
import ContentTypes.Decimal.Shortest
import ContentTypes.Declaration
import ContentTypes.Declaration.Json
import ContentTypes.Documentation
import ContentTypes.Emitter
import ContentTypes.Emitter.Trace
import ContentTypes.Event
import ContentTypes.Generation
import ContentTypes.Json.Basic
import ContentTypes.Json.Document
import ContentTypes.Json.Literal
import ContentTypes.Json.Printer
import ContentTypes.Json.Text
import ContentTypes.Model.CustomType
import ContentTypes.Model.Field
import ContentTypes.Model.Reading
import ContentTypes.Model.SharedSlice
import ContentTypes.Module
import ContentTypes.Module.Json
import ContentTypes.Naming
import ContentTypes.Naming.Counter
import ContentTypes.OrderedMap
import ContentTypes.Path
import ContentTypes.Reading.Basic
import ContentTypes.Reading.Fault
import ContentTypes.Reading.Record
import ContentTypes.Reading.Source
import ContentTypes.Reading.Variant
import ContentTypes.Settings
import ContentTypes.Settings.File
import ContentTypes.Settings.Load
import ContentTypes.Synthesis
import ContentTypes.Text.Blocks
import ContentTypes.Text.Cluster
import ContentTypes.Text.Cluster.Parts
import ContentTypes.Text.Hidden
import ContentTypes.Text.Letter
import ContentTypes.Text.Letter.Context
import ContentTypes.Text.Letter.Forms
import ContentTypes.Text.Quoted
import ContentTypes.Text.Words
import ContentTypes.Toml.Basic
import ContentTypes.Toml.Dated
import ContentTypes.Toml.Literal
import ContentTypes.Toml.Outline
import ContentTypes.Toml.Text
import ContentTypes.TypeScript
import ContentTypes.TypeScript.Writer
import ContentTypes.Proofs.Naming.Grants
import ContentTypes.Proofs.Naming.Letters
import ContentTypes.Proofs.Synthesis.Requests
import ContentTypes.Proofs.Shape.Basic
import ContentTypes.Proofs.Synthesis.Offers
import ContentTypes.Proofs.Shape.Opening
import ContentTypes.Proofs.Shape.Fields
import ContentTypes.Proofs.Compilation.Names
import ContentTypes.Proofs.Compilation.Shape
import ContentTypes.Proofs.Module.Acceptance
import ContentTypes.Proofs.Module.Emission
import ContentTypes.Proofs.References.Forest
import ContentTypes.Proofs.References.Fields
import ContentTypes.Proofs.References.Compilation
import ContentTypes.Proofs.References.Tree
import ContentTypes.Proofs.Module.Resolution
import ContentTypes.Proofs.Module.SharedSlices
import ContentTypes.Proofs.Wording.Model
import ContentTypes.Proofs.Wording.Synthesis
import ContentTypes.Proofs.TypeScript.Comments
import ContentTypes.Proofs.TypeScript.Erasure
import ContentTypes.Proofs.Wording.Compilation
import ContentTypes.Proofs.Reports.Accounts
import ContentTypes.Proofs.Reports.Unknowns
import ContentTypes.Proofs.Reports.Emission
import ContentTypes.Proofs.Module.History
import ContentTypes.Proofs.Emitter.Recording
import ContentTypes.Proofs.Emitter.Protocol
import ContentTypes.Proofs.OrderedMap.Entries
import ContentTypes.Proofs.OrderedMap.Comings
import ContentTypes.Proofs.OrderedMap.History
import ContentTypes.Proofs.Reading.Records
import ContentTypes.Proofs.Reading.Choices
import ContentTypes.Proofs.Reading.Routes
import ContentTypes.Proofs.Reading.Contents
import ContentTypes.Proofs.Reading.Edits
import ContentTypes.Proofs.Reading.Revisions
import ContentTypes.Proofs.Reading.Compatibility
import ContentTypes.Proofs.RoundTrip.Records
import ContentTypes.Proofs.RoundTrip.Declarations
import ContentTypes.Proofs.Naming.Wider
import ContentTypes.Proofs.Synthesis.Stability
import ContentTypes.Proofs.Synthesis.Places
import ContentTypes.Proofs.Synthesis.Accounting
import ContentTypes.Proofs.Synthesis.Endings
import ContentTypes.Proofs.Compilation.Alone
import ContentTypes.Proofs.Compilation.Growth
import ContentTypes.Proofs.Naming.Counting
import ContentTypes.Proofs.Naming.Calls
import ContentTypes.Proofs.Compilation.Canonical
import ContentTypes.Proofs.References.Members
import ContentTypes.Proofs.Text.Origins
import ContentTypes.Proofs.Synthesis.Ids
import ContentTypes.Proofs.Libraries.Occurrence
import ContentTypes.Proofs.Libraries.Capture
import ContentTypes.Proofs.Compilation.PlainNames
import ContentTypes.Proofs.Model.Tabs
import ContentTypes.Proofs.Json.Quoted
import ContentTypes.Proofs.Declaration.Unions
import ContentTypes.Proofs.Declaration.Rendering
import ContentTypes.Proofs.TypeScript.Keys
import ContentTypes.Proofs.Model.FieldSets
import ContentTypes.Proofs.Compilation.Keys
import ContentTypes.Proofs.Reading.Captions
import ContentTypes.Proofs.Toml.Keyed
import ContentTypes.Proofs.Toml.Parsing
import ContentTypes.Proofs.Toml.Merging
import ContentTypes.Proofs.Settings.Files
import ContentTypes.Proofs.Settings.Layers
import ContentTypes.Proofs.Settings.Blame
import ContentTypes.Proofs.Path.Description
import ContentTypes.Proofs.TypeScript.Writing
import ContentTypes.Proofs.TypeScript.DocLines
import ContentTypes.Proofs.Model.Positions
import ContentTypes.Proofs.Compilation.Paths
