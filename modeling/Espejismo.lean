import Espejismo.Activation
import Espejismo.Client.Adaptive
import Espejismo.Client.Http
import Espejismo.Client.Tunnel.Prune
import Espejismo.Config.Suggestion
import Espejismo.Dns.History
import Espejismo.Egress.Spelling
import Espejismo.Ingress.Auth
import Espejismo.Metrics.Exposition
import Espejismo.Mux.Native.Pair.Credit
import Espejismo.Mux.Native.Pair.Isolation
import Espejismo.Mux.Native.Pair.Signal
import Espejismo.Mux.Native.Pair.Stall
import Espejismo.Mux.Native.Priority
import Espejismo.Protocol.Framing.Rotation
import Espejismo.Protocol.Udp.Delivery
import Espejismo.Server.Fallback.Date
import Espejismo.Server.HttpChain
import Espejismo.Server.Peers
import Espejismo.Server.Quota.Ledger
import Espejismo.Server.Relay
import Espejismo.Server.Replay
import Espejismo.Server.Routing
import Espejismo.Server.Users
import Espejismo.Stack
import Espejismo.Transport.Copy.Progress
import Espejismo.Transport.Failure
import Espejismo.Transport.Nonce
import Espejismo.Underlay.WebSocket.Close
import Espejismo.Underlay.WebSocket.Reader
