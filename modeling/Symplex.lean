import Symplex.Basic
import Symplex.Float32
import Symplex.Float64
import Symplex.PdqSort
import Symplex.PdqSort.Sorted
import Symplex.PdqSort.Presorted
import Symplex.Protowire
import Symplex.Core.Types
import Symplex.Core.Encoding
import Symplex.Core.Did
import Symplex.Core.DidSyntax
import Symplex.Core.Handshake
import Symplex.Core.Negotiation
import Symplex.P2p.Host
import Symplex.Safety.HandshakeGate
import Symplex.Codec.Records
import Symplex.Codec.RoundTrip
import Symplex.Codec.Grammar
import Symplex.Codec.Termination
import Symplex.Safety.IntentGuard
import Symplex.Safety.TrustLedger
import Symplex.Codec.Framing
import Symplex.Protocol.Network
import Symplex.Protocol.Authentication
import Symplex.Safety.SignatureReuse
import Symplex.Safety.TrustFlow
import Symplex.Discovery.Registry
import Symplex.P2p.Orchestrator
import Symplex.P2p.Routing
import Symplex.Discovery.Expiry
import Symplex.Negotiation.Policy
import Symplex.Negotiation.Ranking
import Symplex.Protocol.Exchange
import Symplex.Protocol.Profiles
