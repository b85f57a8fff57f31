import Quilkin.Bytes.Endian
import Quilkin.Bytes.Buffer
import Quilkin.Bytes.Base64
import Quilkin.Data.SortedSet
import Quilkin.Codec.Qcmp
import Quilkin.Codec.Proofs.QcmpProofs
import Quilkin.Corrosion.TokenSet
import Quilkin.Corrosion.Proofs.TokenSetProofs
import Quilkin.Corrosion.Codec
import Quilkin.Corrosion.PubSub
import Quilkin.Corrosion.Proofs.PubSubProofs
import Quilkin.Net.Packet
import Quilkin.Net.Completion.Ring
import Quilkin.Net.Completion.Proofs.RingProofs
import Quilkin.Net.Xdp.Proofs.WrapperProofs
import Quilkin.Data.SocketAddr
import Quilkin.Net.Xdp.Sessions
import Quilkin.Net.Pipeline
import Quilkin.Net.Proofs.PipelineProofs
import Quilkin.Net.Xdp.Proofs.SessionsProofs
import Quilkin.Data.Multimap
import Quilkin.Net.Cluster
import Quilkin.Net.Proofs.ClusterProofs
import Quilkin.Data.StepRun
import Quilkin.Xds.Delta
import Quilkin.Xds.Proofs.DeltaProofs
import Quilkin.Data.AListTotal
import Quilkin.Net.Proofs.ClusterCountProofs
import Quilkin.Data.Patch
import Quilkin.Net.Proofs.CorrosionSyncProofs
import Quilkin.Filters.LoadBalancer
import Quilkin.Filters.Proofs.LoadBalancerProofs
import Quilkin.Xds.Proofs.LocalityProofs
import Quilkin.Filters.Error
import Quilkin.Filters.Match
import Quilkin.Filters.Proofs.MatchProofs
import Quilkin.Filters.Firewall
import Quilkin.Filters.Proofs.FirewallProofs
import Quilkin.Data.SetMap
import Quilkin.Net.SessionPool
import Quilkin.Net.Proofs.SessionPoolProofs
import Quilkin.Data.Vec
import Quilkin.Codec.NoncePool
import Quilkin.Codec.Proofs.NoncePoolProofs
import Quilkin.Data.Collect
import Quilkin.Net.ClusterSerde
import Quilkin.Net.Proofs.ClusterSerdeProofs
import Quilkin.Corrosion.ServerIter
import Quilkin.Corrosion.Proofs.ServerIterProofs
import Quilkin.Filters.LocalRateLimit
import Quilkin.Filters.Proofs.LocalRateLimitProofs
import Quilkin.Corrosion.Proofs.SwimMembersProofs
import Quilkin.Corrosion.SwimBroadcast
import Quilkin.Corrosion.Proofs.SwimBroadcastProofs
import Quilkin.Corrosion.Changes
import Quilkin.Corrosion.Proofs.ChangesProofs
import Quilkin.Corrosion.Proofs.SeenCacheProofs
import Quilkin.Data.Text
import Quilkin.Filters.Proofs.PortRangeProofs
import Quilkin.Data.IpText
import Quilkin.Corrosion.Db
import Quilkin.Corrosion.Proofs.DbProofs
import Quilkin.Filters.Context
import Quilkin.Filters.Capture
import Quilkin.Filters.TokenRouter
import Quilkin.Filters.Chain
import Quilkin.Filters.Proofs.CaptureProofs
import Quilkin.Filters.Proofs.ChainProofs
import Quilkin.Filters.Proofs.TokenRoutingProofs
import Quilkin.Net.Router
import Quilkin.Net.Proofs.RouterProofs
import Quilkin.Data.AListRetain
import Quilkin.Collections.Ttl
import Quilkin.Collections.Proofs.TtlProofs
import Quilkin.Filters.Proofs.DecryptorProofs
import Quilkin.Net.Upstream
import Quilkin.Net.Proofs.UpstreamProofs
import Quilkin.Corrosion.Mutator
import Quilkin.Providers.Proofs.PushProofs
