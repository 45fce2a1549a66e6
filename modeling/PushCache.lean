import PushCache.Transition.Core
import PushCache.Transition.TryForEach
import PushCache.Transition.Variant
import PushCache.Transition.LastMarked
import PushCache.Transition.Noninterference
import PushCache.Transition.Loop
import PushCache.Transition.Queries
import PushCache.Retry.Core
import PushCache.Retry.Shared
import PushCache.Keyed.Core
import PushCache.Keyed.Provision
import PushCache.Log.Patch
import PushCache.Log.Redelivery
import PushCache.Log.Interleaving
import PushCache.Log.Journal
import PushCache.Log.Broadcast
import PushCache.Log.Coverage
import PushCache.Concurrency.Program
import PushCache.Concurrency.Pool
import PushCache.Concurrency.Register
import PushCache.Concurrency.SingleFlight
import PushCache.Concurrency.Join
import PushCache.Glob.Core
import PushCache.Paths.Core
import PushCache.Percent.Core
import PushCache.Percent.Decode
import PushCache.Redis.Database
import PushCache.Listing.Pages
import PushCache.Cells
import PushCache.Error
import PushCache.Config
import PushCache.Wire
import PushCache.UrlCrate
import PushCache.Crates
import PushCache.KafkaUtils
import PushCache.Cache.Core
import PushCache.State
import PushCache.Consumer.Core
import PushCache.Consumer.Plan
import PushCache.Consumer.Feed
import PushCache.Consumer.Ingestion
import PushCache.Startup
import PushCache.StartupTools
import PushCache.StartupChecks
import PushCache.Hams
import PushCache.RegistryRequests
import PushCache.Consumer.Gauge
import PushCache.Consumer.Replay
import PushCache.Consumer.Compaction
import PushCache.Consumer.Stats
import PushCache.Consumer.Failure
import PushCache.Consumer.Rebalance
import PushCache.Consumer.Commit
import PushCache.Consumer.Replicas
import PushCache.Consumer.Requests
import PushCache.Consumer.Routing
import PushCache.Consumer.Tombstone
import PushCache.Consumer.Flow
import PushCache.Cache.SizeGauge
import PushCache.Cache.Removal
import PushCache.Cache.Documents
import PushCache.Cache.Redis
import PushCache.Cache.Isolation
import PushCache.Cache.OracleLogin
import PushCache.Cache.Sql
import PushCache.Cache.Backends
import PushCache.Cache.CreateSchemas
import PushCache.Webserver.Core
import PushCache.Webserver.Listing
import PushCache.Webserver.Mounting
import PushCache.Webserver.LookupByBody
import PushCache.Service.Core
import PushCache.Service.SchemaAvailability
import PushCache.Service.SchemaResolution
import PushCache.Service.WireAgreement
import PushCache.Service.Counters
import PushCache.Java.CacheFactory
import PushCache.Java.KafkaConsumer
import PushCache.Java.Tombstone
import PushCache.Java.Removal
import PushCache.Java.Flow
import PushCache.Java.Equivalence
import PushCache.Java.RunConsumer
import PushCache.Java.Readiness
import PushCache.Java.CommitSafety
import PushCache.Java.Listing
import PushCache.Java.SizeCounter
import PushCache.Java.SchemaService
import PushCache.Java.StartupChecks
import PushCache.Java.RunCheck
import PushCache.Java.Hams
import PushCache.Java.WebConfig
import PushCache.Java.RedisClear
import PushCache.Java.Backends
import PushCache.Java.DataSource
import PushCache.Java.CreateSchemas
import PushCache.Webserver.RedisListing
import PushCache.Service.History
import PushCache.Java.RecordHandler
import PushCache.Java.Application
import PushCache.Java.SchemaAvailability
import PushCache.Java.ConsumerThread
import PushCache.Java.Counters
import PushCache.Java.Parity
import PushCache.Java.LookupByBody
import PushCache.Service.MountedPaths
