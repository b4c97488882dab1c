import VgiWorker.Js.Number
import VgiWorker.Js.Json
import VgiWorker.Arrow.Types
import VgiWorker.Arrow.Value
import VgiWorker.FilterPushdown.Deserialize
import VgiWorker.FilterPushdown.Evaluate
import VgiWorker.FilterPushdown.History
import VgiWorker.Data.LastWriter
import VgiWorker.FilterPushdown.DeserializeProperties
import VgiWorker.FilterPushdown.Registers
import VgiWorker.FilterPushdown.HistoryProperties
import VgiWorker.FilterPushdown.Replay
import VgiWorker.FilterPushdown.Required
import VgiWorker.FilterPushdown.RevisionOrder
import VgiWorker.Crypto.Envelope
import VgiWorker.Data.IdealAead
import VgiWorker.Crypto.SplitToken
import VgiWorker.Crypto.SplitTokenProperties
import VgiWorker.Crypto.SplitTokenVault
import VgiWorker.Arrow.Codec
import VgiWorker.Js.NumberProperties
import VgiWorker.Js.Base64
import VgiWorker.Crypto.AttachTicket
import VgiWorker.Crypto.AttachTicketProperties
import VgiWorker.Crypto.AttachTicketWindow
import VgiWorker.Protocol.Arguments
import VgiWorker.Protocol.ArgumentsProperties
import VgiWorker.Crypto.AssociatedData
import VgiWorker.Js.JsonProperties
import VgiWorker.Crypto.BindFingerprint
import VgiWorker.Aggregate.StateCodec
import VgiWorker.Data.SharedCells
import VgiWorker.Aggregate.Rpc
import VgiWorker.Aggregate.RpcProperties
import VgiWorker.Storage.Tables
import VgiWorker.Storage.CfDo
import VgiWorker.Storage.Contract
import VgiWorker.Storage.Renaming
import VgiWorker.Storage.Interchangeable
import VgiWorker.Storage.ReferenceObject
import VgiWorker.Arrow.Statistics
import VgiWorker.Arrow.StatisticsProperties
import VgiWorker.Arrow.StatisticsFidelity
import VgiWorker.Protocol.OpaqueData
import VgiWorker.Protocol.Requests
import VgiWorker.Data.CheckedMemo
import VgiWorker.Protocol.FunctionHandlers
import VgiWorker.Protocol.SplitPlans
import VgiWorker.Protocol.CarriedInit
import VgiWorker.Protocol.RebuiltRequest
import VgiWorker.Functions.Continuation
import VgiWorker.Functions.ContinuedOutput
import VgiWorker.Functions.SubstreamStates
import VgiWorker.Protocol.Records
import VgiWorker.Protocol.RequestWire
import VgiWorker.Functions.BufferingInit
import VgiWorker.Functions.ProducerTicks
import VgiWorker.Aggregate.BindSecrets
import VgiWorker.Catalog.Composite
import VgiWorker.Catalog.Transparency
import VgiWorker.Data.Masked
import VgiWorker.Functions.FilteringCollector
import VgiWorker.Functions.RowProvenance
import VgiWorker.Functions.ContinuedExchange
import VgiWorker.Catalog.Publication
import VgiWorker.Data.GuardedRuns
import VgiWorker.Catalog.PublicationSteps
import VgiWorker.Catalog.PublicationAgreement
import VgiWorker.Catalog.InvalidationSticks
import VgiWorker.Codec.Conform
import VgiWorker.Codec.Collections
import VgiWorker.Codec.CollectionProperties
import VgiWorker.Data.SelfDelimiting
import VgiWorker.Js.ChunkReaders
import VgiWorker.FilterPushdown.HistoryCodec
import VgiWorker.Js.TextDecoder
import VgiWorker.Protocol.ExchangeState
import VgiWorker.Data.KeptPositions
import VgiWorker.FilterPushdown.SetSources
import VgiWorker.Protocol.HookViews
import VgiWorker.Protocol.JoinKeys
import VgiWorker.FilterPushdown.DeepEquality
import VgiWorker.FilterPushdown.ColumnValues
import VgiWorker.Data.FirstDifference
import VgiWorker.Js.TextOrder
import VgiWorker.FilterPushdown.ComparisonOrder
import VgiWorker.Js.JsonGrammar
import VgiWorker.Js.JsonReader
import VgiWorker.FilterPushdown.StrictJson
import VgiWorker.Storage.BoundStorage
import VgiWorker.Storage.FrameworkState
import VgiWorker.Arrow.CanonicalColumn
import VgiWorker.Arrow.CodecFidelity
import VgiWorker.Protocol.UserState
import VgiWorker.Protocol.UserStateSurvives
import VgiWorker.Protocol.ServedStates
import VgiWorker.Functions.BufferingFinalize
import VgiWorker.Functions.FinalizeDrain
import VgiWorker.Catalog.ConstraintsApply
import VgiWorker.Arrow.Projection
import VgiWorker.Data.AliasedEntries
import VgiWorker.Arrow.SecretDict
import VgiWorker.Data.FirstBest
import VgiWorker.Functions.Registry
import VgiWorker.Functions.OverloadScores
import VgiWorker.Functions.RegistryScopes
import VgiWorker.Functions.OverloadResolution
import VgiWorker.FilterPushdown.ArithmeticRepresentations
import VgiWorker.Data.Readers
import VgiWorker.FilterPushdown.WellKnownBinary
import VgiWorker.FilterPushdown.GeometryBounds
import VgiWorker.FilterPushdown.SqlText
import VgiWorker.Data.Generators
import VgiWorker.Functions.ClientBatches
import VgiWorker.Functions.ClientBatchesAgree
import VgiWorker.Arrow.FlechetteColumn
import VgiWorker.Arrow.PartedColumns
import VgiWorker.Catalog.Capabilities
import VgiWorker.Arrow.MessageMeta
import VgiWorker.Arrow.MessageScan
import VgiWorker.Arrow.Envelopes
import VgiWorker.Arrow.EnvelopeGrammar
import VgiWorker.Data.Kleene
import VgiWorker.FilterPushdown.TypeSoundness
import VgiWorker.Codec.Conformance
import VgiWorker.Codec.Filling
import VgiWorker.Codec.CodePoints
import VgiWorker.Codec.KeyOrder
import VgiWorker.Codec.InsertionOrder
import VgiWorker.Codec.SortedKeys
import VgiWorker.Arrow.CanonicalValues
import VgiWorker.Arrow.CodecInverse
import VgiWorker.Arrow.NestedData
import VgiWorker.Arrow.NestedCells
import VgiWorker.Arrow.NestedRoundTrip
import VgiWorker.Arrow.TypedColumns
import VgiWorker.Arguments.ArgumentRanges
import VgiWorker.Catalog.SqlTokens
import VgiWorker.Catalog.SqlParser
import VgiWorker.Catalog.SqlGrammar
import VgiWorker.Catalog.SqlSoundness
import VgiWorker.Catalog.SqlCompleteness
import VgiWorker.Catalog.SqlColumns
import VgiWorker.Catalog.ColumnTypes
import VgiWorker.Catalog.Constraints
import VgiWorker.Catalog.ServedFields
import VgiWorker.Catalog.ServedNullability
import VgiWorker.Catalog.ColumnDecorations
import VgiWorker.Data.CommutingRuns
import VgiWorker.Catalog.DecoratedSchema
import VgiWorker.Catalog.DecorationRuns
import VgiWorker.Arrow.LibraryTypes
import VgiWorker.Arrow.TypeSignature
import VgiWorker.Arrow.SignatureReading
import VgiWorker.Arrow.SignatureFaithful
import VgiWorker.Arrow.NormalizeType
import VgiWorker.Arrow.NormalizedTypes
import VgiWorker.Arrow.SchemaShapes
import VgiWorker.Catalog.ContentsDigest
import VgiWorker.Functions.RegistryKeys
import VgiWorker.Catalog.CreateColumns
import VgiWorker.Catalog.ColumnTags
import VgiWorker.Arguments.SpecSchemas
import VgiWorker.Arrow.EmbeddedRecords
import VgiWorker.Arrow.RewrittenColumns
import VgiWorker.Functions.FilteredRows
import VgiWorker.Catalog.RecordRoundTrip
