import IceTouch.Adapters.LifeCycle
import IceTouch.Collecting.Collection
import IceTouch.CommandLine.Groups
import IceTouch.Connecting.Settling
import IceTouch.Connecting.Transparency
import IceTouch.Connection.Aborting
import IceTouch.Connection.Idle
import IceTouch.Connection.Reading
import IceTouch.Contexts.Independence
import IceTouch.Dispatching.ReplyDecoding
import IceTouch.IcePatch2.Patcher
import IceTouch.Locating.Requests
import IceTouch.Locating.Resolution
import IceTouch.Metrics.Observers
import IceTouch.Metrics.Reapplied
import IceTouch.Posting.Delivery
import IceTouch.Properties.ConfigFiles
import IceTouch.References.Coherence
import IceTouch.References.CreateConnection
import IceTouch.References.Marshalling
import IceTouch.Routing.RouterInfo
import IceTouch.Selecting.Watching
import IceTouch.Servants.Registry
import IceTouch.Slice.Ambiguity
import IceTouch.Slice.ChecksumContract
import IceTouch.Slice.ObjCNames
import IceTouch.Slice.StaticSizes
import IceTouch.Ssl.NameRoundTrip
import IceTouch.Ssl.Separators
import IceTouch.Ssl.TrustManager
import IceTouch.Streams.Readiness
import IceTouch.Strings.Conversion
import IceTouch.Strings.DatagramEndpoints
import IceTouch.Strings.ProxyRoundTrip
import IceTouch.Threading.LeaderFollower
import IceTouch.Timers.Bookkeeping
import IceTouch.Transports.ConnectionMaps
