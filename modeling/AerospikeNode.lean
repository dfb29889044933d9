import AerospikeNode.Exp.Builders
import AerospikeNode.Exp.Calls
import AerospikeNode.Exp.CallCount
import AerospikeNode.Exp.Compile
import AerospikeNode.Ops.Exact
import AerospikeNode.Ops.Faithful
import AerospikeNode.Rec.Bins
import AerospikeNode.Native.RoundTrip
import AerospikeNode.Cmd.Execute
import AerospikeNode.Cmd.Stream
import AerospikeNode.Page.Listener
import AerospikeNode.Page.Query
import AerospikeNode.Page.Results
import AerospikeNode.Txn.Limit
import AerospikeNode.Txn.Native
import AerospikeNode.Client.Connected
import AerospikeNode.Batch.Results
import AerospikeNode.Rec.Values
import AerospikeNode.Cdt.RoundTrip
import AerospikeNode.Info.Render
import AerospikeNode.Rec.KeyEquals
import AerospikeNode.Job.Poll
import AerospikeNode.Cmd.QueryForeach
import AerospikeNode.Metrics.Disable
import AerospikeNode.Txn.Tend
import AerospikeNode.Exp.Modify
import AerospikeNode.Cmd.StreamValues
import AerospikeNode.Batch.Storage
import AerospikeNode.Cmd.Worker
import AerospikeNode.Admin.Arrays
import AerospikeNode.Native.Buffers
import AerospikeNode.Cdt.Reports
import AerospikeNode.Exp.Cleanup
import AerospikeNode.Client.ClusterEvents
import AerospikeNode.Lib.Memory
import AerospikeNode.Native.Partitions
import AerospikeNode.Lib.Regex
import AerospikeNode.Client.HostString
import AerospikeNode.Client.Hosts
import AerospikeNode.Job.Completed
import AerospikeNode.Lib.Stages
import AerospikeNode.Cmd.Async
import AerospikeNode.Cmd.Requests
import AerospikeNode.Lib.Fields
import AerospikeNode.Policy.Fields
import AerospikeNode.Policy.Defaults
import AerospikeNode.Batch.Records
import AerospikeNode.Lib.WorkQueue
import AerospikeNode.Metrics.Protocol
import AerospikeNode.Rec.RoundTrip
import AerospikeNode.Lib.Trees
import AerospikeNode.Exp.Structure
import AerospikeNode.Page.FilterCalls
import AerospikeNode.Admin.Roles
import AerospikeNode.Cmd.Threads
import AerospikeNode.Client.Config
import AerospikeNode.Native.Denotes
