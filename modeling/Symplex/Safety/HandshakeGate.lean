import Symplex.P2p.Host

namespace Symplex.P2p

open Core

variable (C : Crypto)

/-- `Handshake(peer)` answered with the empty handshake message, the frame `00 00 00 01 01`:
it returns that message and caches its empty profile under the peer in `known` and the
registry, while `FinishHandshake` rejects the message for every challenge, since its DID does
not parse. `Handshake` calls `FinishHandshake` only on a non-empty `ChallengeResponse`. -/
theorem empty_reply_completes_unverified (h : AgentHost) (peer : PeerId) (n : Nonce) (now : BitVec 64) :
    h.handshake C peer (.ok n) now ⟨none, none⟩ (fun _ => frame msgHandshake []) =
        (.ok HandshakeMessage.empty,
          { h with known := h.known.insert peer (handshakeProfile .empty),
                   discovery := h.discovery.announce (handshakeProfile .empty) 0 0 }) ∧
      ∀ challenge, finishHandshake C challenge HandshakeMessage.empty =
        .error (.wrapf "handshake finish: peer DID invalid: %w" [] (.errorf "did: invalid format %q" [.inl []])) := by
  have read := readMsg_frame msgHandshake [] [] (by decide)
  rw [List.append_nil] at read
  have decoded : decodeHandshakeMessage [] = .ok HandshakeMessage.empty := by
    rw [decodeHandshakeMessage, fieldLoop_nil]
  refine ⟨?_, fun _ => ?_⟩
  · simp only [AgentHost.handshake, AgentHost.handshakeSend, startHandshake]
    exact handshakeRecv_unsigned C read decoded rfl
  · simp [finishHandshake, parseDID, sscanfDid, ascii, HandshakeMessage.empty]

end Symplex.P2p
