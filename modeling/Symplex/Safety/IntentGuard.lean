import Symplex.P2p.Host

namespace Symplex.P2p

open Core

variable (C : Crypto)

end Symplex.P2p
