import RemoteCall.Bytes
import RemoteCall.Bytes.Hex
import RemoteCall.Client.Basic
import RemoteCall.Client.Connection
import RemoteCall.Client.Feeder
import RemoteCall.Client.Pending
import RemoteCall.Client.Retry
import RemoteCall.Client.Run
import RemoteCall.Client.Steps
import RemoteCall.Client.WriteLoop
import RemoteCall.Compact
import RemoteCall.Directory
import RemoteCall.Error
import RemoteCall.Fault
import RemoteCall.Frame
import RemoteCall.Frame.Codec
import RemoteCall.Frame.Reader
import RemoteCall.Frame.Writer
import RemoteCall.Hashing
import RemoteCall.Json.Basic
import RemoteCall.Json.Error
import RemoteCall.Json.Parser
import RemoteCall.Json.Printer
import RemoteCall.Json.Scan
import RemoteCall.Location
import RemoteCall.Net.Address
import RemoteCall.Number.Binary
import RemoteCall.Number.Shortest
import RemoteCall.Proofs.Client.Activity
import RemoteCall.Proofs.Client.Answers
import RemoteCall.Proofs.Client.Attempts
import RemoteCall.Proofs.Client.Bookkeeping
import RemoteCall.Proofs.Client.Budget
import RemoteCall.Proofs.Client.Calm
import RemoteCall.Proofs.Client.Closing
import RemoteCall.Proofs.Client.Connections
import RemoteCall.Proofs.Client.Endings
import RemoteCall.Proofs.Client.FanOut
import RemoteCall.Proofs.Client.GivingUp
import RemoteCall.Proofs.Client.InFlight
import RemoteCall.Proofs.Client.Moves
import RemoteCall.Proofs.Client.Numbering
import RemoteCall.Proofs.Client.Places
import RemoteCall.Proofs.Client.Stopping
import RemoteCall.Proofs.Client.WaitingCalls
import RemoteCall.Proofs.Compact
import RemoteCall.Proofs.Counting
import RemoteCall.Proofs.Decimal
import RemoteCall.Proofs.Frame.Decoding
import RemoteCall.Proofs.Frame.Encoding
import RemoteCall.Proofs.Frame.RawFrame
import RemoteCall.Proofs.Frame.RoundTrip
import RemoteCall.Proofs.Frame.StreamEnd
import RemoteCall.Proofs.Json.Leaves
import RemoteCall.Proofs.Json.Nesting
import RemoteCall.Proofs.Json.Reading
import RemoteCall.Proofs.Json.RoundTrip
import RemoteCall.Proofs.KeyOrder
import RemoteCall.Proofs.Location
import RemoteCall.Proofs.Net.Address
import RemoteCall.Proofs.Net.Ipv6
import RemoteCall.Proofs.Net.Numbers
import RemoteCall.Proofs.RequestIds
import RemoteCall.Proofs.Ring.Labels
import RemoteCall.Proofs.Ring.Picking
import RemoteCall.Proofs.Ring.Takeover
import RemoteCall.Proofs.Serializer
import RemoteCall.Proofs.Serializer.Canonical
import RemoteCall.Proofs.Serializer.Structured
import RemoteCall.Proofs.Server.Activity
import RemoteCall.Proofs.Server.Announcing
import RemoteCall.Proofs.Server.Answers
import RemoteCall.Proofs.Server.Binding
import RemoteCall.Proofs.Server.Calls
import RemoteCall.Proofs.Server.Connections
import RemoteCall.Proofs.Server.Conservation
import RemoteCall.Proofs.Server.Crew
import RemoteCall.Proofs.Server.Custody
import RemoteCall.Proofs.Server.DelayBudget
import RemoteCall.Proofs.Server.DelayCourses
import RemoteCall.Proofs.Server.DelayGates
import RemoteCall.Proofs.Server.Delaying
import RemoteCall.Proofs.Server.Delivery
import RemoteCall.Proofs.Server.Gates
import RemoteCall.Proofs.Server.Groups
import RemoteCall.Proofs.Server.Growth
import RemoteCall.Proofs.Server.MarkOrder
import RemoteCall.Proofs.Server.Operations
import RemoteCall.Proofs.Server.Posting
import RemoteCall.Proofs.Server.QueueOrder
import RemoteCall.Proofs.Server.Replies
import RemoteCall.Proofs.Server.Schedule
import RemoteCall.Proofs.Server.Settings
import RemoteCall.Proofs.Server.WaterMarks
import RemoteCall.Proofs.Service.Acceptance
import RemoteCall.Proofs.Service.Description
import RemoteCall.Proofs.Service.InPlace
import RemoteCall.Proofs.Service.Merging
import RemoteCall.Proofs.Service.Numbers
import RemoteCall.Proofs.Service.Publication
import RemoteCall.Proofs.Service.Reissue
import RemoteCall.Proofs.Transparency
import RemoteCall.RequestId
import RemoteCall.Ring
import RemoteCall.Serializer
import RemoteCall.Server.Basic
import RemoteCall.Server.Connection
import RemoteCall.Server.DelayList
import RemoteCall.Server.Dispatch
import RemoteCall.Server.Executor
import RemoteCall.Server.Groups
import RemoteCall.Server.Overflow
import RemoteCall.Server.ReadLoop
import RemoteCall.Server.Run
import RemoteCall.Server.Start
import RemoteCall.Server.Steps
import RemoteCall.Server.Task
import RemoteCall.Server.TaskQueue
import RemoteCall.Server.WriteLoop
import RemoteCall.Service.Basic
import RemoteCall.Service.Execution
import RemoteCall.Service.Info
import RemoteCall.Service.Method
import RemoteCall.Service.Refusal
import RemoteCall.Service.Registry
import RemoteCall.Service.Text
import RemoteCall.Service.Weight
import RemoteCall.Sha256
import RemoteCall.Text.Combining
import RemoteCall.Text.Quoted
import RemoteCall.Text.Unprintable
import RemoteCall.Text.Utf8
import RemoteCall.Value
