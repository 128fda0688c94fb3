import Warren.Codec.Json.Fields
import Warren.Codec.Json.Single
import Warren.Connection.Barrier.PumpLife
import Warren.Connection.Barrier.Stopped
import Warren.Connection.Dial
import Warren.Connection.Pin
import Warren.Connection.Redact.Hides
import Warren.Connection.Redact.Local
import Warren.Connection.Options
import Warren.Connection.RunBarrier.Degraded
import Warren.Connection.Supervisor.Lemmas
import Warren.Connection.Supervisor.Released
import Warren.Connection.Supervisor.Sockets
import Warren.Consumer.Batch.OwnBatch
import Warren.Consumer.Batch.SettledOnce
import Warren.Consumer.BatchLoop.Shutdown
import Warren.Consumer.ByteLimiter.Capped
import Warren.Consumer.CounterB.Keys
import Warren.Consumer.CtxEnds
import Warren.Consumer.Dedupe
import Warren.Consumer.Dispatch.Abort
import Warren.Consumer.Dispatch.Leak
import Warren.Consumer.Pause.ChannelDone
import Warren.Consumer.Pause.NoLoss
import Warren.Consumer.Subscription.Counters
import Warren.Consumer.Subscription.Parked
import Warren.Consumer.Subscription.Sole
import Warren.Consumer.Subscription.Stranded
import Warren.Consumer.XDeath.Sum
import Warren.Errors.Exclusive
import Warren.Publisher.Closing.Closed
import Warren.Publisher.Demux.Order
import Warren.Publisher.Encode.Normal
import Warren.Publisher.Encode.Wire
import Warren.Publisher.RateLimiter.Rate
import Warren.Publisher.Retry.Exact
import Warren.Publisher.Returns.Attribution
import Warren.Publisher.SelectPool
import Warren.Publisher.Slots.Reported
import Warren.Rpc.Caller.Acks
import Warren.Rpc.Replier.Verdict
import Warren.Topology.Declare
import Warren.Topology.Expand.Alias
import Warren.Topology.Expand.Bounds
import Warren.Topology.Expand.HasDLX
import Warren.Topology.Order
import Warren.Topology.Redeclare.Stale
