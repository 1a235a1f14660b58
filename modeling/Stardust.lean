import Stardust.Breaker.Contents
import Stardust.Breaker.DropRatio
import Stardust.Breaker.Tables
import Stardust.Codec.JsonCodec
import Stardust.Databases.Atomicity
import Stardust.Databases.Config
import Stardust.Databases.Entity
import Stardust.Databases.Procedures
import Stardust.Databases.WarpSession
import Stardust.Databases.WrapperCopies
import Stardust.Errors.TryFunc
import Stardust.Errors.Wrapping
import Stardust.HttpServer.Connection
import Stardust.HttpServer.Identity
import Stardust.HttpServer.Lifecycle
import Stardust.HttpServer.MultiStartup
import Stardust.HttpServer.Paths
import Stardust.HttpServer.Shedding
import Stardust.HttpServer.WorkerResets
import Stardust.Jwt.Encryption
import Stardust.Limit.ClusterKeys
import Stardust.Limit.Lifetime
import Stardust.Limit.LocalBucket
import Stardust.Limit.LocalCounters
import Stardust.Load.CpuReading
import Stardust.Load.LittlesLaw
import Stardust.Nats.Consumers
import Stardust.Nats.Merging
import Stardust.Nats.Panics
import Stardust.Nats.Stopping
import Stardust.Redis.AtMostOnce
import Stardust.Redis.Hashes
import Stardust.Redis.Manager
import Stardust.Redis.Namespace
import Stardust.Redis.RetryEnd
import Stardust.Redis.RetryIndex
import Stardust.Redis.ScoreRanges
import Stardust.Register.Discovery
import Stardust.Register.Instances
import Stardust.Register.LeaderFailure
import Stardust.Register.RouteIds
import Stardust.Service.Group
import Stardust.Syncx.Freshness
import Stardust.Utils.HttpRetry
import Stardust.Uuid.Random
