import SearchClient.Answer.Cluster
import SearchClient.Answer.Documents
import SearchClient.Answer.Indices
import SearchClient.Answer.Models
import SearchClient.Answer.Nodes
import SearchClient.Answer.Notifications
import SearchClient.Answer.Observability
import SearchClient.Answer.Pipelines
import SearchClient.Answer.Policies
import SearchClient.Answer.Shards
import SearchClient.Answer.Snapshots
import SearchClient.Answer.Tables
import SearchClient.Calendar.Date
import SearchClient.Calendar.Moment
import SearchClient.Calendar.TimeSpan
import SearchClient.Cluster.Failure
import SearchClient.Cluster.Http
import SearchClient.Cluster.Message
import SearchClient.Cluster.Node
import SearchClient.Cluster.Pool
import SearchClient.Cluster.Program
import SearchClient.Cluster.Scripted
import SearchClient.Cluster.Send
import SearchClient.Cluster.Sniff
import SearchClient.Cluster.Trail
import SearchClient.Config.Basic
import SearchClient.Config.Environment
import SearchClient.Config.Literal
import SearchClient.Config.Load
import SearchClient.Config.Resolve
import SearchClient.Console.Command
import SearchClient.Console.Grammar
import SearchClient.Console.Help
import SearchClient.Console.Session
import SearchClient.Console.Trouble
import SearchClient.Display.Figures
import SearchClient.Display.Grid
import SearchClient.Display.Ranges
import SearchClient.Display.Views
import SearchClient.Display.Width
import SearchClient.Document.Basic
import SearchClient.Document.Shape
import SearchClient.Endpoint.Basic
import SearchClient.Endpoint.Catalogue
import SearchClient.Endpoint.Cluster
import SearchClient.Endpoint.Documents
import SearchClient.Endpoint.Indices
import SearchClient.Endpoint.Models
import SearchClient.Endpoint.Nodes
import SearchClient.Endpoint.Notifications
import SearchClient.Endpoint.Observability
import SearchClient.Endpoint.Pipelines
import SearchClient.Endpoint.Policies
import SearchClient.Endpoint.Snapshots
import SearchClient.Endpoint.Tables
import SearchClient.Gzip.Basic
import SearchClient.Gzip.Bits
import SearchClient.Gzip.Code
import SearchClient.Gzip.Inflate
import SearchClient.Json.Basic
import SearchClient.Json.Kind
import SearchClient.Json.Printer
import SearchClient.Json.Record
import SearchClient.Json.Token
import SearchClient.Json.Tree
import SearchClient.Main
import SearchClient.Number.Binary64
import SearchClient.Number.Bounds
import SearchClient.Number.Decimal
import SearchClient.Number.Shortest
import SearchClient.Request.Basic
import SearchClient.Request.Body
import SearchClient.Request.Bulk
import SearchClient.Request.Method
import SearchClient.Request.Names
import SearchClient.Request.Query
import SearchClient.Request.Route
import SearchClient.Request.Word
import SearchClient.ServerError.Basic
import SearchClient.ServerError.Cause
import SearchClient.Text.Base64
import SearchClient.Text.Blank
import SearchClient.Text.Form
import SearchClient.Text.Percent
import SearchClient.Text.Snippet
import SearchClient.Text.Split
import SearchClient.Text.Utf8
import SearchClient.Toml.Parser
import SearchClient.Toml.Quoted
import SearchClient.Toml.Scalar
import SearchClient.Toml.Table
import SearchClient.Url.Address
import SearchClient.Url.Basic
import SearchClient.Url.Domain
import SearchClient.Url.Join
import SearchClient.Url.Parser
import SearchClient.Wire.Reply
import SearchClient.Wire.Request
import SearchClient.Proofs.Cluster.Walking
import SearchClient.Proofs.Program.Runs
import SearchClient.Proofs.Cluster.Asking
import SearchClient.Proofs.Cluster.Visiting
import SearchClient.Proofs.Cluster.Journey
import SearchClient.Proofs.Cluster.FirstAnswer
import SearchClient.Proofs.Cluster.FaithfulTrail
import SearchClient.Proofs.Cluster.Budget
import SearchClient.Proofs.Cluster.Bookkeeping
import SearchClient.Proofs.Cluster.Trust
import SearchClient.Proofs.Cluster.PingFirst
import SearchClient.Proofs.Text.Percent
import SearchClient.Proofs.Url.Paths
import SearchClient.Proofs.Url.Segments
import SearchClient.Proofs.Program.Steps
import SearchClient.Proofs.Text.Split
import SearchClient.Proofs.Number.Digits
import SearchClient.Proofs.Json.Grammar
import SearchClient.Proofs.Json.Lexing
import SearchClient.Proofs.Json.Spelling
import SearchClient.Proofs.Json.Reading
import SearchClient.Proofs.Json.Printing
import SearchClient.Proofs.Json.Lines
import SearchClient.Proofs.Json.Members
import SearchClient.Proofs.Json.Values
import SearchClient.Proofs.Request.BulkBody
import SearchClient.Proofs.Request.Squashing
import SearchClient.Proofs.Endpoint.BulkCalls
import SearchClient.Proofs.Program.Crowd
import SearchClient.Proofs.Cluster.Conduct
import SearchClient.Proofs.Cluster.Conducting
import SearchClient.Proofs.Cluster.Chronicle
import SearchClient.Proofs.Cluster.OneStartup
import SearchClient.Proofs.Url.Schemes
import SearchClient.Proofs.Json.Records
import SearchClient.Proofs.Cluster.ListedNodes
import SearchClient.Proofs.Cluster.ExactSniff
import SearchClient.Proofs.Cluster.SniffAge
import SearchClient.Proofs.Cluster.LateMarks
import SearchClient.Proofs.Cluster.SeedBudget
import SearchClient.Proofs.Cluster.BadHeaders
import SearchClient.Proofs.Endpoint.Calls
import SearchClient.Proofs.Endpoint.AllowedStatuses
import SearchClient.Proofs.Endpoint.HeadAnswers
import SearchClient.Proofs.Program.Alike
import SearchClient.Proofs.Cluster.SniffingAsFixed
import SearchClient.Proofs.Program.Keeping
import SearchClient.Proofs.Cluster.AlwaysANode
import SearchClient.Proofs.Json.Rereading
import SearchClient.Proofs.Json.Places
import SearchClient.Proofs.Json.Shapes
import SearchClient.Proofs.Json.WrittenRecords
import SearchClient.Proofs.ServerError.Changes
import SearchClient.Proofs.ServerError.Parts
import SearchClient.Proofs.ServerError.RoundTrip
import SearchClient.Proofs.ServerError.NothingLost
import SearchClient.Proofs.Cluster.HandingOut
import SearchClient.Proofs.Cluster.FairTurns
import SearchClient.Proofs.Endpoint.AcceptedNodes
import SearchClient.Proofs.Calendar.DayNumbers
import SearchClient.Proofs.Calendar.Scanning
import SearchClient.Proofs.Calendar.RoundTrip
import SearchClient.Proofs.Text.Utf8
import SearchClient.Proofs.Text.Form
import SearchClient.Proofs.Text.Blanks
import SearchClient.Proofs.Request.Parameters
import SearchClient.Proofs.Calendar.Dialects
import SearchClient.Proofs.Number.Exact
import SearchClient.Proofs.Number.FloatTexts
import SearchClient.Proofs.Calendar.SpanText
import SearchClient.Proofs.Json.RecordShapes
import SearchClient.Proofs.ServerError.Demands
import SearchClient.Proofs.ServerError.Recognised
import SearchClient.Proofs.Endpoint.MissingDocuments
import SearchClient.Proofs.Request.Routes
import SearchClient.Proofs.Cluster.PublishedAddresses
import SearchClient.Proofs.Config.Credentials
import SearchClient.Proofs.Display.Tables
import SearchClient.Proofs.Cluster.HealthCharts
import SearchClient.Proofs.Request.NameLists
import SearchClient.Proofs.Text.Snippets
