import Symplex.Protocol.Authentication

namespace Symplex.Protocol

open Core P2p

variable (C : Crypto)

/-- Two runs of a host that apply the same deltas, in the same order, to the edge towards `d`
end with the same score on it, whoever sent the messages that carried them. -/
theorem trust_edge_follows_named_deltas (h : AgentHost) (d : Bytes) (events₁ events₂ : List Event)
    (same : edgeDeltas C h d events₁ = edgeDeltas C h d events₂) :
    ((Node.init h).run C events₁).host.trust.get h.agent.did.string d =
      ((Node.init h).run C events₂).host.trust.get h.agent.did.string d := by
  rw [Node.init_run_trust, Node.init_run_trust, same]

/-- Two events that differ at most in bytes a peer other than `honest` wrote: the input of a
stream it opened, or the answer it wrote back on a stream the host opened to it. -/
def AdversaryVariant (honest : PeerId) : Event → Event → Prop
  | .inbound remote input nonce now, .inbound remote' input' nonce' now' =>
    remote = remote' ∧ nonce = nonce' ∧ now = now' ∧ (remote = honest → input = input')
  | .handshakeRecv peer answer, .handshakeRecv peer' answer' =>
    peer = peer' ∧ (peer = honest → answer = answer')
  | .sendIntent peer intent io answer, .sendIntent peer' intent' io' answer' =>
    peer = peer' ∧ intent = intent' ∧ io = io' ∧ (peer = honest → answer = answer')
  | e, e' => e = e'

def inflatedResponse : NegotiationResponse :=
  { NegotiationResponse.empty with did := (relayAgent [0x42] keyB).did.string,
                                   trustDelta := ⟨0x7F800000⟩ }

theorem inflatedResponse_fits : 1 + inflatedResponse.encode.length ≤ maxFrameBytes :=
  Nat.le_trans (Nat.add_le_add_left (NegotiationResponse.encode_length_le _ rfl rfl) 1) (by decide)

theorem inflated_edgeDeltas (peer : PeerId) :
    edgeDeltas relayCrypto (relayHosts peerA) (relayAgent [0x42] keyB).did.string
      [.sendIntent peer IntentMessage.empty openStream (frame msgNegotiation inflatedResponse.encode)] =
      [⟨0x7F800000⟩] := by
  have wire : wireFloat inflatedResponse.trustDelta = ⟨0x7F800000⟩ := by decide
  simp only [edgeDeltas, List.filterMap_cons, List.filterMap_nil, trustUpdate,
    sendIntentTrustUpdate_response _ _ inflatedResponse_fits, wire, edgeDelta, Option.bind_some]
  rfl

theorem unread_edgeDeltas (peer : PeerId) :
    edgeDeltas relayCrypto (relayHosts peerA) (relayAgent [0x42] keyB).did.string
      [.sendIntent peer IntentMessage.empty openStream []] = [] := by
  simp only [edgeDeltas, List.filterMap_cons, List.filterMap_nil, trustUpdate,
    sendIntentTrustUpdate_empty, edgeDelta, Option.none_bind]

/-- `M`, which does not hold `B`'s key, answers `A`'s intent with the inflated response in one
run and with nothing in the other; the score from `A` to `B` is 0 after the first and 1 after
the second. -/
theorem peer_moves_trust_edge :
    ¬ ∀ (C : Crypto) (h : AgentHost) (b : Agent) (pB : PeerId) (events₁ events₂ : List Event),
        List.Forall₂ (AdversaryVariant pB) events₁ events₂ →
        ((Node.init h).run C events₁).host.trust.get h.agent.did.string b.did.string =
          ((Node.init h).run C events₂).host.trust.get h.agent.did.string b.did.string := by
  intro noninterference
  have same := noninterference relayCrypto (relayHosts peerA) (relayAgent [0x42] keyB) peerB
    [.sendIntent peerM IntentMessage.empty openStream []]
    [.sendIntent peerM IntentMessage.empty openStream (frame msgNegotiation inflatedResponse.encode)]
    (.cons ⟨rfl, rfl, rfl, fun named => absurd named (by decide)⟩ .nil)
  rw [Node.init_run_trust, Node.init_run_trust, unread_edgeDeltas, inflated_edgeDeltas] at same
  exact absurd same (by decide)

theorem inflated_response_from_any_peer :
    edgeDeltas relayCrypto (relayHosts peerA) (relayAgent [0x42] keyB).did.string
        [.sendIntent peerM IntentMessage.empty openStream (frame msgNegotiation inflatedResponse.encode)] =
      edgeDeltas relayCrypto (relayHosts peerA) (relayAgent [0x42] keyB).did.string
        [.sendIntent peerB IntentMessage.empty openStream (frame msgNegotiation inflatedResponse.encode)] ∧
    ((Node.init (relayHosts peerA)).run relayCrypto
        [.sendIntent peerM IntentMessage.empty openStream (frame msgNegotiation inflatedResponse.encode)]).host.trust.get
        (relayHosts peerA).agent.did.string (relayAgent [0x42] keyB).did.string =
      ((Node.init (relayHosts peerA)).run relayCrypto
        [.sendIntent peerB IntentMessage.empty openStream (frame msgNegotiation inflatedResponse.encode)]).host.trust.get
        (relayHosts peerA).agent.did.string (relayAgent [0x42] keyB).did.string :=
  have same := (inflated_edgeDeltas peerM).trans (inflated_edgeDeltas peerB).symm
  ⟨same, trust_edge_follows_named_deltas relayCrypto (relayHosts peerA) _ _ _ same⟩

end Symplex.Protocol
