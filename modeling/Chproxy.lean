import Chproxy.Lib.Steps
import Chproxy.Lib.Pool
import Chproxy.Lib.Tables
import Chproxy.Lib.Decimal
import Chproxy.Lib.BigEndian
import Chproxy.Lib.LittleEndian
import Chproxy.Lib.Reader
import Chproxy.Lib.Leftmost
import Chproxy.Lib.Fallible
import Chproxy.Lib.UrlEncoding
import Chproxy.Lib.IpNet
import Chproxy.Lib.Tally
import Chproxy.Lib.Fields
import Chproxy.Lib.Utf8
import Chproxy.Lib.Format
import Chproxy.Lib.Substitute
import Chproxy.Lib.Generations
import Chproxy.Lib.Guarded
import Chproxy.Utils.Hash
import Chproxy.Utils.HashedText
import Chproxy.Utils.QueryText
import Chproxy.Utils.Comments
import Chproxy.Chdecompressor.Block
import Chproxy.Chdecompressor.Frames
import Chproxy.Scope.Admission
import Chproxy.Scope.Moves
import Chproxy.Scope.Conservation
import Chproxy.Scope.Limits
import Chproxy.Scope.Rejection
import Chproxy.Scope.Crosswise
import Chproxy.Scope.Windows
import Chproxy.Cache.Metadata
import Chproxy.Cache.MetadataCode
import Chproxy.Cache.KeyText
import Chproxy.Config.Types
import Chproxy.Config.Validate
import Chproxy.Config.Secrets
import Chproxy.Config.Networks
import Chproxy.Config.Defaults
import Chproxy.Config.Durations
import Chproxy.Config.Placeholders
import Chproxy.Config.Security
import Chproxy.ProxyHandler
import Chproxy.Routing.Objects
import Chproxy.Routing.Reload
import Chproxy.Routing.Replacement
import Chproxy.Routing.Ownership
import Chproxy.Routing.Closed
import Chproxy.Routing.GetUser
import Chproxy.Routing.Origin
import Chproxy.Routing.Credentials
import Chproxy.Routing.WildcardCopy
import Chproxy.Routing.Goroutines
import Chproxy.Routing.Linear
import Chproxy.Routing.Restart
import Chproxy.Routing.Abandoned
import Chproxy.Gate
import Chproxy.Routing.Balance
import Chproxy.Routing.Live
import Chproxy.Routing.Penalty
import Chproxy.Routing.Sticky
import Chproxy.Scope.Timeouts
import Chproxy.Proxy.Decorate
import Chproxy.Proxy.CacheKey
import Chproxy.Proxy.Params
import Chproxy.Proxy.Separation
import Chproxy.Proxy.Writer
import Chproxy.Proxy.Status
import Chproxy.Proxy.Retry
import Chproxy.Proxy.AcceptEncoding
import Chproxy.Proxy.Failover
import Chproxy.Proxy.Traces
import Chproxy.Proxy.Serve
import Chproxy.Proxy.QuerySnippet
import Chproxy.Proxy.FinalStatus
import Chproxy.Cache.Registry
import Chproxy.Cache.RedisRegistry
import Chproxy.Cache.FileSystem
import Chproxy.Cache.FailedPut
import Chproxy.Cache.Cleaner
import Chproxy.Cache.CleanAlone
import Chproxy.Cache.CleanSteps
import Chproxy.Cache.Redis
import Chproxy.Cache.Damaged
import Chproxy.Cache.Backends
import Chproxy.Cache.TornReads
import Chproxy.Cache.Publish
import Chproxy.Cache.Snapshot
import Chproxy.Proxy.HitMiss
import Chproxy.Proxy.Concurrent
import Chproxy.Proxy.Disconnect
import Chproxy.Proxy.Herd
import Chproxy.Proxy.Stale
import Chproxy.Lib.Hexadecimal
import Chproxy.Proxy.Kill
import Chproxy.Proxy.Provenance
import Chproxy.Proxy.InPlace
import Chproxy.Proxy.Waiting
import Chproxy.Scope.Wildcarded
import Chproxy.Proxy.Availability
import Chproxy.Proxy.RequestBody
import Chproxy.Serving
import Chproxy.Config.ByteSizes
import Chproxy.Lib.Monitor
import Chproxy.Routing.Heartbeats
