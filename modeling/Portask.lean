import Portask.Lib.Machine
import Portask.Lib.Ring
import Portask.Lib.SequencedRing
import Portask.Lib.RingSlots
import Portask.Lib.RingProtocol
import Portask.Lib.Fifo
import Portask.Queue.LockFree
import Portask.Queue.LockFreeSequential
import Portask.Queue.DropOldest
import Portask.Queue.MessageBus
import Portask.Queue.BusAccounting
import Portask.Queue.LockFreeThreads
import Portask.Queue.LockFreeSafety
import Portask.Queue.Ultra
import Portask.Queue.BoundedFifo
import Portask.Queue.UltraThreads
import Portask.Queue.UltraRecord
import Portask.Queue.UltraSafety
import Portask.Lib.Buffer
import Portask.Lib.GoString
import Portask.Lib.Intake
import Portask.Types.Message
import Portask.Processor.Storage
import Portask.Processor.BatchWriter
import Portask.Processor.Sharding
import Portask.Processor.ParallelBatchWriter
import Portask.Processor.AsyncBatchWriter
import Portask.Processor.AsyncPlacement
import Portask.Processor.ParallelStop
import Portask.Processor.AsyncStop
import Portask.Processor.StopGuarantee
import Portask.Processor.Process
import Portask.Lib.Tally
import Portask.Lib.Channel
import Portask.Processor.MessageProcessor
import Portask.Processor.ResultDelivery
import Portask.Processor.ProcessorStop
import Portask.Kafka.StorageAdapter
import Portask.Kafka.ProcessorBridge
import Portask.Kafka.BridgeFidelity
import Portask.Kafka.MemoryStore
import Portask.Kafka.BridgeOffsets
import Portask.Kafka.GroupCoordinator
import Portask.Kafka.GroupMembership
import Portask.Kafka.GroupFencing
import Portask.Kafka.GroupSync
import Portask.Kafka.GroupExpiry
import Portask.Lib.Store
import Portask.Kafka.OffsetManager
import Portask.Kafka.OffsetRefinement
import Portask.Lib.Assoc
import Portask.Kafka.OffsetMetadata
import Portask.Lib.RWMutex
import Portask.Kafka.OffsetLocks
import Portask.Lib.Wire
import Portask.Lib.Stream
import Portask.Lib.Exchange
import Portask.Kafka.Transactions
import Portask.Kafka.TransactionLedger
import Portask.Kafka.TransactionSequences
import Portask.Kafka.TransactionIsolation
import Portask.Kafka.TransactionRecovery
import Portask.Kafka.Framing
import Portask.Kafka.FramingRoundTrip
import Portask.Kafka.Handlers
import Portask.Kafka.ProduceRoundTrip
import Portask.Kafka.FetchRoundTrip
import Portask.Kafka.OffsetRoundTrip
import Portask.Kafka.HandlerPanics
import Portask.Kafka.TopicLayout
import Portask.Kafka.MemoryTopics
import Portask.Kafka.TruncatedBodies
import Portask.Amqp.PooledTranslation
import Portask.Amqp.Translator
import Portask.Kafka.MemoryLog
import Portask.Lib.Budget
import Portask.Server.KafkaAdapter
import Portask.Types.Recycling
import Portask.Amqp.Broker
import Portask.Amqp.ChannelIsolation
import Portask.Amqp.Conservation
import Portask.Amqp.ContentAssembly
import Portask.Amqp.DeliveryTags
import Portask.Amqp.Frames
import Portask.Amqp.Handshake
import Portask.Amqp.QueueOrder
import Portask.Amqp.Reading
import Portask.Amqp.Server
import Portask.Amqp.Threads
import Portask.Lib.Placement
import Portask.Amqp.MethodLayout
import Portask.Lib.Crc
import Portask.Lib.Limit
import Portask.Lib.Loop
import Portask.Network.ConnectionLoop
import Portask.Network.Protocol
import Portask.Network.TcpServer
import Portask.Storage.Dragonfly
import Portask.Storage.DragonflyRoundTrip
import Portask.Storage.Wal
import Portask.Storage.WalHistory
import Portask.Storage.WalLog
import Portask.Storage.WalReaders
import Portask.Storage.WalSync
import Portask.Api.BatchPublish
import Portask.Storage.Expiry
import Portask.Auth.AdvancedRateLimiter
import Portask.Auth.RateLimiter
import Portask.Common.IDGenerator
import Portask.Lib.Expiring
import Portask.Storage.WalChecksum
import Portask.Auth.Authenticator
import Portask.Queue.WorkerRounds
import Portask.Processor.Payloads
import Portask.Network.CompressedFrames
import Portask.Memory.Pool
import Portask.Monitoring.Metrics
import Portask.Types.Ulid
