import Symplex.Protocol.Network

namespace Symplex.Protocol

open Core P2p

variable (C : Crypto)

/-- If the node at `a` completed a handshake whose answer carries a `ChallengeResponse` and
names the DID of the node at `b`, and `b`'s key is unforgeable over its run, then the answer
is to a nonce `a` drew for that handshake, and `b`'s key signed that nonce. -/
theorem accepted_answer_signed_by_named (net : Network) (actions : List Action)
    (a b peer : PeerId) (ours resp : HandshakeMessage) (priv : Option Bytes)
    (injective : Function.Injective C.sha256Hex)
    (keyed : (net.hosts b).agent.did = didFromKey C (net.hosts b).agent.publicKey priv)
    (unforgeable : Unforgeable C (net.hosts b).agent.publicKey ((net.run C actions).node C b))
    (completed : (peer, ours, resp) ∈ ((net.run C actions).node C a).completed)
    (signed : resp.challengeResponse ≠ []) (named : resp.did = (net.hosts b).agent.did.string) :
    ∃ nonce now io, Event.handshakeSend peer (.ok nonce) now io ∈ (net.run C actions).history a ∧
      ours.challenge = nonce.val ∧ nonce.val ∈ ((net.run C actions).node C b).log.map Signing.bytes := by
  obtain ⟨⟨nonce, now, io, sent, challenge⟩, checked⟩ := Node.completed_drawn C _ _ completed
  obtain ⟨bound, -, verified⟩ := (finishHandshake_eq_ok C).mp (handshakeCheck_signed C checked signed)
  have key := peerBound_didFromKey C injective bound (named.trans (congrArg DID.string keyed))
  rw [key, challenge] at verified
  exact ⟨nonce, now, io, sent, challenge, unforgeable _ _ verified⟩

def peerA : PeerId := [0x0A]
def peerB : PeerId := [0x0B]
def peerM : PeerId := [0x0C]

def keyA : Bytes := List.replicate 32 0x61
def keyB : Bytes := List.replicate 32 0x62

def nonceA : Nonce := ⟨List.replicate 32 0x6E, rfl⟩
def nonceB : Nonce := ⟨List.replicate 32 0x6F, rfl⟩

def relayCrypto : Crypto where
  sha256Hex b := 0x68 :: b
  sign k x := k ++ x
  verify pk x s := pk == keyB && x == nonceA.val && s == keyB ++ x

theorem relayCrypto_injective : Function.Injective relayCrypto.sha256Hex :=
  fun _ _ same => List.cons_injective same

def relayAgent (id key : Bytes) : Agent := ⟨id, didFromKey relayCrypto key (some key), [], key, key⟩

def relayHosts (x : PeerId) : AgentHost :=
  if x = peerB then newHost (relayAgent [0x42] keyB) else newHost (relayAgent [0x41] keyA)

def relayHello : HandshakeMessage :=
  { agentID := [0x41], did := (relayAgent [0x41] keyA).did.string, capabilities := [],
    version := protocolVersion, timestamp := 0, publicKey := keyA, challenge := nonceA.val,
    challengeResponse := [] }

def relayAnswer : HandshakeMessage :=
  { agentID := [0x42], did := (relayAgent [0x42] keyB).did.string, capabilities := [],
    version := protocolVersion, timestamp := 0, publicKey := keyB, challenge := nonceB.val,
    challengeResponse := keyB ++ nonceA.val }

def relayActions : List Action :=
  [.act peerA (.handshakeSend peerM (.ok nonceA) 0 openStream),
   .act peerB (.inbound peerM (frame msgHandshake relayHello.encode) (.ok nonceB) 0),
   .act peerA (.handshakeRecv peerM (frame msgHandshake relayAnswer.encode))]

theorem relay_allowed : ∀ action ∈ relayActions, action.Allowed [peerA, peerB] := by
  simp [relayActions, Action.Allowed, Event.peer, peerA, peerB, peerM]

theorem relayHello_fits : 1 + relayHello.encode.length ≤ maxFrameBytes :=
  HandshakeMessage.frame_fits (by decide)

theorem relayAnswer_fits : 1 + relayAnswer.encode.length ≤ maxFrameBytes :=
  HandshakeMessage.frame_fits (by decide)

theorem relay_history_A : ((Network.fresh relayHosts).run relayCrypto relayActions).history peerA =
    [.handshakeSend peerM (.ok nonceA) 0 openStream,
     .handshakeRecv peerM (frame msgHandshake relayAnswer.encode)] := by
  simp [Network.run, relayActions, Network.step, Network.record, Network.fresh, Function.update,
    peerA, peerB]

theorem relay_history_B : ((Network.fresh relayHosts).run relayCrypto relayActions).history peerB =
    [.inbound peerM (frame msgHandshake relayHello.encode) (.ok nonceB) 0] := by
  simp [Network.run, relayActions, Network.step, Network.record, Network.fresh, Function.update,
    peerA, peerB]

def relayRunB : List Event := [.inbound peerM (frame msgHandshake relayHello.encode) (.ok nonceB) 0]

theorem relay_node_B :
    ((Network.fresh relayHosts).run relayCrypto relayActions).node relayCrypto peerB =
      (Node.init (relayHosts peerB)).run relayCrypto relayRunB := by
  rw [Network.node, relay_history_B, Network.run_hosts]
  rfl

theorem relay_log_B : ((Node.init (relayHosts peerB)).run relayCrypto relayRunB).log =
    [.responded peerM nonceA.val] := by
  rw [Node.run_log]
  have bound : peerBound relayCrypto relayHello = true := peerBound_of_didFromKey _ rfl rfl (by decide)
  simp only [Node.init, relayRunB, keyUses, List.flatMap_cons, List.flatMap_nil, List.append_nil,
    List.nil_append, @streamSignings_handshake relayCrypto (relayHosts peerB) peerM relayHello 0 rfl
      relayHello_fits, bound, if_true]
  rfl

theorem relay_unforgeable :
    Unforgeable relayCrypto keyB ((Node.init (relayHosts peerB)).run relayCrypto relayRunB) := by
  intro x s verified
  simp only [relayCrypto, Bool.and_eq_true, beq_iff_eq] at verified
  rw [relay_log_B, verified.1.2]
  exact List.mem_singleton_self _

theorem relay_answer_written :
    (handleStream relayCrypto (relayHosts peerB) peerM (frame msgHandshake relayHello.encode)
      (.ok nonceB) 0).2 = some (frame msgHandshake relayAnswer.encode) := by
  have bound : peerBound relayCrypto relayHello = true := peerBound_of_didFromKey _ rfl rfl (by decide)
  exact handleStream_respond relayCrypto rfl relayHello_fits
    ((respondHandshake_eq_ok relayCrypto).mpr ⟨bound, keyB, nonceB, rfl, rfl, rfl⟩)

theorem relay_completed :
    (peerM, relayHello, relayAnswer) ∈
      (((Network.fresh relayHosts).run relayCrypto relayActions).node relayCrypto peerA).completed := by
  have sent : (relayHosts peerA).handshakeSend (.ok nonceA) 0 openStream = .ok relayHello := rfl
  have bound : peerBound relayCrypto relayAnswer = true := peerBound_of_didFromKey _ rfl rfl (by decide)
  have checked : handshakeCheck relayCrypto relayHello relayAnswer = .ok () := by
    rw [handshakeCheck, if_pos (by decide)]
    exact (finishHandshake_eq_ok relayCrypto).mpr ⟨bound, rfl, by decide⟩
  have accepted := @handshakeRecv_ok relayCrypto (relayHosts peerA) peerM relayHello relayAnswer
    (fun _ => frame msgHandshake relayAnswer.encode) _ (readMsg_frame_only _ _ relayAnswer_fits)
    (decodeHandshakeMessage_encode _ (length_lt_of_fits relayAnswer_fits))
    checked
  rw [Network.node, relay_history_A, Node.run_cons, Node.run_cons, Node.run_nil, Network.run_hosts]
  obtain ⟨host, pending⟩ :=
    Node.step_handshakeSend relayCrypto (Node.init ((Network.fresh relayHosts).hosts peerA)) peerM sent
  refine Node.step_completed relayCrypto (by rw [pending]; rfl) ?_
  rw [host]
  exact congrArg Prod.fst accepted

/-- Agreement fails on the relay: `A` records `M` under `B`'s DID, and `B` answered a stream
whose remote end is `M`, not `A`. -/
theorem relayed_handshake_misattributed :
    ¬ ∀ (C : Crypto) (hosts : PeerId → AgentHost) (honest : List PeerId) (actions : List Action)
        (a b peer : PeerId) (ours resp : HandshakeMessage),
        Function.Injective C.sha256Hex →
        (hosts b).agent.did = didFromKey C (hosts b).agent.publicKey (some (hosts b).agent.privKey) →
        (∀ action ∈ actions, action.Allowed honest) → a ∈ honest → b ∈ honest →
        Unforgeable C (hosts b).agent.publicKey (((Network.fresh hosts).run C actions).node C b) →
        (peer, ours, resp) ∈ (((Network.fresh hosts).run C actions).node C a).completed →
        resp.did = (hosts b).agent.did.string →
        peer = b ∧ ∃ challenge, Signing.responded a challenge ∈
          (((Network.fresh hosts).run C actions).node C b).log := by
  intro agreement
  obtain ⟨same, -⟩ := agreement relayCrypto relayHosts [peerA, peerB] relayActions peerA peerB peerM
    relayHello relayAnswer relayCrypto_injective rfl relay_allowed (by decide) (by decide)
    (relay_node_B ▸ relay_unforgeable) relay_completed rfl
  exact absurd same (by decide)

theorem relay_answer_signed :
    Unforgeable relayCrypto keyB
        (((Network.fresh relayHosts).run relayCrypto relayActions).node relayCrypto peerB) ∧
      (peerM, relayHello, relayAnswer) ∈
        (((Network.fresh relayHosts).run relayCrypto relayActions).node relayCrypto peerA).completed ∧
      ∃ nonce now io, Event.handshakeSend peerM (.ok nonce) now io ∈
          ((Network.fresh relayHosts).run relayCrypto relayActions).history peerA ∧
        relayHello.challenge = nonce.val ∧ nonce.val ∈
          (((Network.fresh relayHosts).run relayCrypto relayActions).node relayCrypto peerB).log.map
            Signing.bytes :=
  ⟨relay_node_B ▸ relay_unforgeable, relay_completed,
    accepted_answer_signed_by_named relayCrypto (Network.fresh relayHosts) relayActions peerA peerB
      peerM relayHello relayAnswer (some keyB) relayCrypto_injective rfl
      (relay_node_B ▸ relay_unforgeable) relay_completed (by decide) rfl⟩

end Symplex.Protocol
