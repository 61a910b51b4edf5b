import HttpGarden.Diff.Categorize
import HttpGarden.Diff.Clusters
import HttpGarden.Diff.Declared
import HttpGarden.Diff.Effects
import HttpGarden.Diff.Grid
import HttpGarden.Diff.Heap
import HttpGarden.Diff.JoinTranslate
import HttpGarden.Diff.Joining
import HttpGarden.Diff.KnownHeaders
import HttpGarden.Diff.NormalForm
import HttpGarden.Diff.Plain
import HttpGarden.Diff.Rearranged
import HttpGarden.Diff.Symmetry
import HttpGarden.Diff.Validity
import HttpGarden.Digits
import HttpGarden.Echo.Collected
import HttpGarden.Echo.Completion
import HttpGarden.Echo.Crashes
import HttpGarden.Echo.Cut
import HttpGarden.Echo.Ending
import HttpGarden.Echo.H1
import HttpGarden.Echo.H2
import HttpGarden.Echo.Segmentation
import HttpGarden.Echo.Server
import HttpGarden.Echo.Threads
import HttpGarden.Hpack.DynamicTable
import HttpGarden.Hpack.Failures
import HttpGarden.Hpack.Field
import HttpGarden.Hpack.Huffman
import HttpGarden.Hpack.HuffmanPadding
import HttpGarden.Hpack.Int
import HttpGarden.Hpack.Reserialise
import HttpGarden.Hpack.Rollback
import HttpGarden.Hpack.RoundTrip
import HttpGarden.Hpack.State
import HttpGarden.Hpack.String
import HttpGarden.Http1.Chunked
import HttpGarden.Http1.ChunkedBody
import HttpGarden.Http1.Composition
import HttpGarden.Http1.Cut
import HttpGarden.Http1.Failures
import HttpGarden.Http1.HeaderSection
import HttpGarden.Http1.Lines
import HttpGarden.Http1.Message
import HttpGarden.Http1.Parse
import HttpGarden.Http1.ResponseJson
import HttpGarden.Http1.Stream
import HttpGarden.Http1.Unparse
import HttpGarden.Http2.Failures
import HttpGarden.Http2.Frame
import HttpGarden.Http2.Framing
import HttpGarden.Http2.Layout
import HttpGarden.Http2.Priority
import HttpGarden.Http2.RoundTrip
import HttpGarden.Http2.TypedLayout
import HttpGarden.Http2.Types
import HttpGarden.Images.Asgi
import HttpGarden.Images.AwsCHttp
import HttpGarden.Images.Libevent
import HttpGarden.Images.Libmicrohttpd
import HttpGarden.Images.Mongoose
import HttpGarden.Lib.Base64
import HttpGarden.Lib.BigEndian
import HttpGarden.Lib.CodeTree
import HttpGarden.Lib.Duplex
import HttpGarden.Lib.Ensures
import HttpGarden.Lib.Except
import HttpGarden.Lib.FirstFit
import HttpGarden.Lib.Grouping
import HttpGarden.Lib.JsonText
import HttpGarden.Lib.Ledger
import HttpGarden.Lib.LongestPrefix
import HttpGarden.Lib.Loop
import HttpGarden.Lib.Method
import HttpGarden.Lib.Pattern
import HttpGarden.Lib.Process
import HttpGarden.Lib.ReadUntil
import HttpGarden.Lib.Reader
import HttpGarden.Lib.Settled
import HttpGarden.Lib.Splice
import HttpGarden.Lib.Threads
import HttpGarden.Lib.Traverse
import HttpGarden.Mutations.Boundaries
import HttpGarden.Mutations.Headers
import HttpGarden.Mutations.Mutate
import HttpGarden.Mutations.Positions
import HttpGarden.Mutations.Reachable
import HttpGarden.Probe.Behaviour
import HttpGarden.Probe.Diagnosis
import HttpGarden.Probe.DuplicateHeaders
import HttpGarden.Probe.Http2Support
import HttpGarden.Probe.Quirks
import HttpGarden.Python
import HttpGarden.Repl.Asked
import HttpGarden.Repl.H2Frames
import HttpGarden.Repl.Labels
import HttpGarden.Repl.Names
import HttpGarden.Repl.Pipeline
import HttpGarden.Repl.Reports
import HttpGarden.Sockets
import HttpGarden.Targets.HostHeader
import HttpGarden.Targets.HostRequests
import HttpGarden.Targets.Origin
import HttpGarden.Targets.Relay
import HttpGarden.Targets.Reports
import HttpGarden.Targets.Transducer
import HttpGarden.Text
