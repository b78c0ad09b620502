import Multicall.Action
import Multicall.Assoc
import Multicall.Batch.Agenda
import Multicall.Batch.Call
import Multicall.Batch.Entry
import Multicall.Batch.Envelope
import Multicall.Batch.Resolver
import Multicall.Batch.Runner
import Multicall.Batch.Settings
import Multicall.Binary64.Basic
import Multicall.Binary64.Layout
import Multicall.Binary64.Reading
import Multicall.Binary64.Shortest
import Multicall.Event
import Multicall.Failure.Basic
import Multicall.Failure.Cause
import Multicall.FileTree
import Multicall.Filter.Operator
import Multicall.Filter.Parameter
import Multicall.Filter.Predicate
import Multicall.Filter.Tree
import Multicall.Http.Body
import Multicall.Http.Exchange
import Multicall.Http.Headers
import Multicall.Http.Pipe
import Multicall.Http.Stream
import Multicall.Integer64
import Multicall.Json.Basic
import Multicall.Json.Fault
import Multicall.Json.Number
import Multicall.Json.Parser
import Multicall.Json.Printer
import Multicall.Json.Private
import Multicall.Json.Scalar
import Multicall.Module.Arguments
import Multicall.Module.Course
import Multicall.Module.Handler
import Multicall.Module.Manifest
import Multicall.Module.Operation
import Multicall.Module.Registry
import Multicall.Module.Search
import Multicall.Module.Sink
import Multicall.Module.System
import Multicall.Proofs.Account
import Multicall.Proofs.Aftermath
import Multicall.Proofs.ArgumentBinding
import Multicall.Proofs.BoundaryTokens
import Multicall.Proofs.CallOrder
import Multicall.Proofs.ChunkSize
import Multicall.Proofs.CloseOnce
import Multicall.Proofs.Completion
import Multicall.Proofs.Containment
import Multicall.Proofs.Coupling
import Multicall.Proofs.Delivery
import Multicall.Proofs.Discretion
import Multicall.Proofs.DocumentReading
import Multicall.Proofs.Endless
import Multicall.Proofs.EntryLimit
import Multicall.Proofs.EnvelopeChecks
import Multicall.Proofs.FactoryCalls
import Multicall.Proofs.FailingTransports
import Multicall.Proofs.FailureLog
import Multicall.Proofs.FilterOffences
import Multicall.Proofs.FilterOutline
import Multicall.Proofs.Framing
import Multicall.Proofs.HandlerTable
import Multicall.Proofs.IntegerCoercion
import Multicall.Proofs.Isolation
import Multicall.Proofs.KeptHandlers
import Multicall.Proofs.Lasting
import Multicall.Proofs.Ledger
import Multicall.Proofs.LikeModules
import Multicall.Proofs.LikeRuns
import Multicall.Proofs.Likeness
import Multicall.Proofs.LoadOnce
import Multicall.Proofs.LoopFault
import Multicall.Proofs.Making
import Multicall.Proofs.Numbering
import Multicall.Proofs.PartQueue
import Multicall.Proofs.PipedRuns
import Multicall.Proofs.Placeholders
import Multicall.Proofs.PlainSequences
import Multicall.Proofs.PlainText
import Multicall.Proofs.PredicateComments
import Multicall.Proofs.PredicateGrammar
import Multicall.Proofs.PredicateMeaning
import Multicall.Proofs.PredicateSecrecy
import Multicall.Proofs.PrivateMembers
import Multicall.Proofs.PublicView
import Multicall.Proofs.Pulls
import Multicall.Proofs.RelayOrder
import Multicall.Proofs.RepeatedNames
import Multicall.Proofs.Requests
import Multicall.Proofs.ResultParts
import Multicall.Proofs.Room
import Multicall.Proofs.Rounding
import Multicall.Proofs.SearchCalls
import Multicall.Proofs.StageOrder
import Multicall.Proofs.Stages
import Multicall.Proofs.Streaming
import Multicall.Proofs.Strike
import Multicall.Proofs.Suspension
import Multicall.Proofs.Trimming
import Multicall.Proofs.Truncation
import Multicall.Proofs.Turns
import Multicall.Proofs.TwoRuns
import Multicall.Proofs.UniformRefusal
import Multicall.Proofs.UnseenPulls
import Multicall.Proofs.Upkeep
import Multicall.Proofs.WholeResponse
import Multicall.Proofs.WriterOrder
import Multicall.Proofs.WrittenDocuments
import Multicall.Response.Boundary
import Multicall.Response.Encoder
import Multicall.Response.Payload
import Multicall.Response.Relay
import Multicall.Response.Transport
import Multicall.Response.Writer
import Multicall.Settings
import Multicall.Settings.Conversion
import Multicall.Settings.Format.Ini
import Multicall.Settings.Format.Json5
import Multicall.Settings.Format.Ron
import Multicall.Settings.Format.Yaml.Document
import Multicall.Settings.Format.Yaml.Node
import Multicall.Settings.Format.Yaml.Scalar
import Multicall.Settings.Format.Yaml.Token
import Multicall.Settings.Layer
import Multicall.Settings.Source
import Multicall.Settings.Value
import Multicall.Text.Ascii
import Multicall.Text.Blank
import Multicall.Text.Printable
import Multicall.Text.Utf8
import Multicall.Toml.Basic
import Multicall.Toml.Document
import Multicall.Toml.Early.Document
import Multicall.Toml.Early.Scalar
import Multicall.Toml.Moment
import Multicall.Toml.Scalar
import Multicall.Toml.Syntax
import Multicall.Toml.Text
