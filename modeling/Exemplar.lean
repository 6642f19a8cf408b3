import Exemplar.Assoc
import Exemplar.CommandLine.Arguments
import Exemplar.CommandLine.Report
import Exemplar.CommandLine.Run
import Exemplar.Diagnostic
import Exemplar.Discovery
import Exemplar.Fetch
import Exemplar.FileTree
import Exemplar.Glob
import Exemplar.Identifier.Basic
import Exemplar.Identifier.Names
import Exemplar.Json.Basic
import Exemplar.Json.Document
import Exemplar.Json.Event
import Exemplar.Json.Layout
import Exemplar.Json.Numeral
import Exemplar.Json.OctetReader
import Exemplar.Json.Position
import Exemplar.Json.Printer
import Exemplar.Json.Reader
import Exemplar.Json.Token
import Exemplar.Json.TokenEvents
import Exemplar.Json.Tree
import Exemplar.Main
import Exemplar.Model.Access
import Exemplar.Model.Attribute
import Exemplar.Model.Bind
import Exemplar.Model.Call
import Exemplar.Model.Class
import Exemplar.Model.Descriptor
import Exemplar.Model.EnumClass
import Exemplar.Model.Fault
import Exemplar.Model.Invocation
import Exemplar.Name
import Exemplar.Number.Decimal
import Exemplar.Number.Double
import Exemplar.Number.Shortest
import Exemplar.Path
import Exemplar.Proofs.Adoption
import Exemplar.Proofs.AliasBlocks
import Exemplar.Proofs.AliasChains
import Exemplar.Proofs.AliasOrder
import Exemplar.Proofs.AliasReach
import Exemplar.Proofs.AliasScopes
import Exemplar.Proofs.AliasTargets
import Exemplar.Proofs.AlikeCatalogues
import Exemplar.Proofs.AlikeDefinitions
import Exemplar.Proofs.Assembling
import Exemplar.Proofs.BareText
import Exemplar.Proofs.Binding
import Exemplar.Proofs.BlockOrder
import Exemplar.Proofs.BoundContent
import Exemplar.Proofs.BuildOrder
import Exemplar.Proofs.BuiltTogether
import Exemplar.Proofs.ClosedTypes
import Exemplar.Proofs.Composing
import Exemplar.Proofs.ContainerChanges
import Exemplar.Proofs.Contents
import Exemplar.Proofs.CreatedEntries
import Exemplar.Proofs.DefinedBy
import Exemplar.Proofs.DefiningPlaces
import Exemplar.Proofs.DetachedNodes
import Exemplar.Proofs.Digits
import Exemplar.Proofs.Document
import Exemplar.Proofs.DottedNames
import Exemplar.Proofs.ElementChains
import Exemplar.Proofs.EnumLiterals
import Exemplar.Proofs.EnumMembers
import Exemplar.Proofs.EnumReads
import Exemplar.Proofs.EqualScalars
import Exemplar.Proofs.ErrorPlaces
import Exemplar.Proofs.ExactDouble
import Exemplar.Proofs.ExtendedLists
import Exemplar.Proofs.FailedOperations
import Exemplar.Proofs.FieldKeys
import Exemplar.Proofs.FilledGaps
import Exemplar.Proofs.FilledLists
import Exemplar.Proofs.FilledProperties
import Exemplar.Proofs.FinishedTypes
import Exemplar.Proofs.FoundFiles
import Exemplar.Proofs.FoundSources
import Exemplar.Proofs.Frames
import Exemplar.Proofs.FreshTrees
import Exemplar.Proofs.Grammar
import Exemplar.Proofs.Holdings
import Exemplar.Proofs.InheritedAliases
import Exemplar.Proofs.InheritedNames
import Exemplar.Proofs.InnermostNames
import Exemplar.Proofs.KeyNames
import Exemplar.Proofs.LastingNames
import Exemplar.Proofs.LaterDocuments
import Exemplar.Proofs.LaterFields
import Exemplar.Proofs.LegalNames
import Exemplar.Proofs.LegibleDocuments
import Exemplar.Proofs.Lifecycle
import Exemplar.Proofs.ListChanges
import Exemplar.Proofs.ListEffects
import Exemplar.Proofs.LostLinks
import Exemplar.Proofs.MapChanges
import Exemplar.Proofs.MapEffects
import Exemplar.Proofs.MapsBelow
import Exemplar.Proofs.MovedNodes
import Exemplar.Proofs.NestedStructs
import Exemplar.Proofs.Nesting
import Exemplar.Proofs.Nodes
import Exemplar.Proofs.NormalNames
import Exemplar.Proofs.NumberScan
import Exemplar.Proofs.NumberText
import Exemplar.Proofs.OperationEffects
import Exemplar.Proofs.Origins
import Exemplar.Proofs.Outlines
import Exemplar.Proofs.OwnPlaces
import Exemplar.Proofs.ParentLinks
import Exemplar.Proofs.ParsedDocuments
import Exemplar.Proofs.PartialReading
import Exemplar.Proofs.PathText
import Exemplar.Proofs.PlainDefinitions
import Exemplar.Proofs.PlainDocuments
import Exemplar.Proofs.PlainFields
import Exemplar.Proofs.PlainRegistry
import Exemplar.Proofs.PlainTypes
import Exemplar.Proofs.PrimitiveSamples
import Exemplar.Proofs.PrintedText
import Exemplar.Proofs.Reading
import Exemplar.Proofs.ReadingProblems
import Exemplar.Proofs.Rebuilding
import Exemplar.Proofs.Registration
import Exemplar.Proofs.RegistrationHistory
import Exemplar.Proofs.ReorderedBlocks
import Exemplar.Proofs.ReorderedScopes
import Exemplar.Proofs.Replacement
import Exemplar.Proofs.RoundTrip
import Exemplar.Proofs.RunOutcomes
import Exemplar.Proofs.SameContent
import Exemplar.Proofs.SameNames
import Exemplar.Proofs.ScopeBlocks
import Exemplar.Proofs.ScopedWalks
import Exemplar.Proofs.SelfBinding
import Exemplar.Proofs.SeparateDocuments
import Exemplar.Proofs.Sites
import Exemplar.Proofs.Sorting
import Exemplar.Proofs.SourceOrder
import Exemplar.Proofs.Spans
import Exemplar.Proofs.SparedNodes
import Exemplar.Proofs.StringScan
import Exemplar.Proofs.StructSamples
import Exemplar.Proofs.SuccessfulRuns
import Exemplar.Proofs.Tables
import Exemplar.Proofs.TrimmedAliases
import Exemplar.Proofs.TypedParents
import Exemplar.Proofs.Utf8
import Exemplar.Proofs.WaysUp
import Exemplar.Proofs.WrittenBack
import Exemplar.Scalar
import Exemplar.Schema.AliasScope
import Exemplar.Schema.Build
import Exemplar.Schema.Catalogue
import Exemplar.Schema.Definition
import Exemplar.Schema.Inference
import Exemplar.Schema.Options
import Exemplar.Schema.Registry
import Exemplar.Schema.Resolution
import Exemplar.Store.Assembly
import Exemplar.Store.Basic
import Exemplar.Store.Equality
import Exemplar.Store.List
import Exemplar.Store.Map
import Exemplar.Store.Operation
import Exemplar.Store.Order
import Exemplar.Store.Parent
import Exemplar.Store.Sequence
import Exemplar.Store.Snapshot
import Exemplar.Store.Tree
import Exemplar.Store.Way
import Exemplar.Text.Case
import Exemplar.Text.Console
import Exemplar.Text.Digit
import Exemplar.Text.Emoji
import Exemplar.Text.Emoji.Table
import Exemplar.Text.Literal
import Exemplar.Text.Markup
import Exemplar.Text.Octets
import Exemplar.Text.Printable
import Exemplar.Text.Quoted
import Exemplar.Text.Residue
import Exemplar.Text.Style
import Exemplar.Text.Width
