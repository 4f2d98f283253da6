import Symplex.Protocol.Authentication

namespace Symplex.Protocol

open Core P2p

variable (C : Crypto)

/-- Under an unforgeable scheme, an intent whose signature verifies under a host's key has
`id ‖ payload` equal to bytes the host's key signed on one of the run's events. -/
theorem verified_intent_was_signed (h : AgentHost) (events : List Event) (m : IntentMessage)
    (unforgeable : Unforgeable C h.agent.publicKey ((Node.init h).run C events))
    (signed : m.signature ≠ []) (verified : verifyIntentSignature C m h.agent.publicKey = true) :
    ∃ e ∈ events, ∃ s ∈ keyUses C h e, s.bytes = m.id ++ m.payload := by
  have logged := unforgeable _ _ (verifyIntentSignature_signed C verified signed)
  rw [Node.run_log] at logged
  obtain ⟨s, mem, bytes⟩ := List.mem_map.mp logged
  obtain ⟨e, event, use⟩ := List.mem_flatMap.mp (by simpa [Node.init] using mem)
  exact ⟨e, event, s, use, bytes⟩

def challengeIntent : IntentMessage :=
  { IntentMessage.empty with id := nonceA.val, signature := keyB ++ nonceA.val }

/-- A handshake challenge is enough: `B` created no intent on the relay, yet this intent
verifies under `B`'s key. -/
theorem handshake_signature_verifies_intent :
    ¬ ∀ (C : Crypto) (h : AgentHost) (events : List Event) (m : IntentMessage),
        Unforgeable C h.agent.publicKey ((Node.init h).run C events) →
        m.signature ≠ [] → verifyIntentSignature C m h.agent.publicKey = true →
        ∃ intent, Signing.created intent ∈ ((Node.init h).run C events).log ∧
          intent.id = m.id ∧ intent.payload = m.payload := by
  intro sound
  obtain ⟨intent, created, -⟩ := sound relayCrypto (relayHosts peerB) relayRunB challengeIntent
    relay_unforgeable (by decide) (by decide)
  rw [relay_log_B] at created
  simp at created

theorem challenge_intent_signed_in_run :
    Unforgeable relayCrypto keyB ((Node.init (relayHosts peerB)).run relayCrypto relayRunB) ∧
      verifyIntentSignature relayCrypto challengeIntent keyB = true ∧
      ∃ e ∈ relayRunB, ∃ s ∈ keyUses relayCrypto (relayHosts peerB) e,
        s.bytes = challengeIntent.id ++ challengeIntent.payload :=
  ⟨relay_unforgeable, by decide,
    verified_intent_was_signed relayCrypto (relayHosts peerB) relayRunB challengeIntent relay_unforgeable
      (by decide) (by decide)⟩

end Symplex.Protocol
