import Mathlib.Algebra.BigOperators.Ring.List
import Symplex.Negotiation.Policy
import Symplex.P2p.Routing
import Symplex.Protocol.Authentication

namespace Symplex.Protocol

open Core P2p

variable (C : Crypto)

/-- What Ed25519 and SHA-256 give a key pair `NewAgent` generated: a non-empty hex digest of the
public key, a public key of `publicKeySize` bytes, and 64-byte signatures that verify under it. -/
structure GenuineKeys (pub priv : Bytes) : Prop where
  digest : C.sha256Hex pub ≠ []
  size : pub.length = publicKeySize
  verifies : ∀ m, C.verify pub m (C.sign priv m) = true
  signatureSize : ∀ m, (C.sign priv m).length = 64

def handshakeFields (agent : Agent) : Nat :=
  agent.id.length + agent.did.string.length + agent.pubKey.length +
    (agent.capabilities.map fun s => 14 + s.length).sum

theorem newAgent_eq_ok {id : Bytes} {caps : List Bytes} {pub priv : Bytes} {agent : Agent}
    (built : newAgent C id caps (.ok (pub, priv)) = .ok agent) :
    agent = ⟨id, didFromKey C pub (some priv), caps, pub, priv⟩ := by
  simpa [newAgent, newDID, Except.map, didFromKey] using built.symm

theorem identity_frame_fits {m : HandshakeMessage} {agent : Agent} (small : handshakeFields agent ≤ 2 ^ 20)
    (agentID : m.agentID = agent.id) (did : m.did = agent.did.string) (caps : m.capabilities = agent.capabilities)
    (version : m.version = protocolVersion) (key : m.publicKey = agent.pubKey)
    (challenge : m.challenge.length = challengeSize) (signature : m.challengeResponse.length ≤ 64) :
    1 + m.encode.length ≤ maxFrameBytes := by
  have bound := HandshakeMessage.encode_length_le_fields m
  have capsBound : (m.capabilities.map fun s => 28 + 2 * s.length).sum =
      2 * (agent.capabilities.map fun s => 14 + s.length).sum := by
    rw [caps, ← List.sum_map_mul_left]
    congr 1
    exact List.map_congr_left fun s _ => by omega
  have versionLength : protocolVersion.length = 5 := rfl
  rw [agentID, did, version, versionLength, key, challenge, capsBound] at bound
  unfold handshakeFields at small
  unfold maxFrameBytes challengeSize at *
  omega

theorem handleStream_hello {h : AgentHost} {remote : PeerId} {m r : HandshakeMessage}
    {nonce : Except GoError Nonce} {now : BitVec 64} (noCallback : h.onHandshake = none)
    (fits : 1 + m.encode.length ≤ maxFrameBytes) (responded : respondHandshake C h.agent m nonce now = .ok r) :
    handleStream C h remote (frame msgHandshake m.encode) nonce now =
      (h.cachePeer remote m, some (frame msgHandshake r.encode)) := by
  have decoded := decodeHandshakeMessage_encode m (length_lt_of_fits fits)
  have written : (handleIncomingHandshake C h remote m.encode nonce now).2 = some (frame msgHandshake r.encode) := by
    simp only [handleIncomingHandshake, decoded, AgentHost.handshakeResponse, AgentHost.handshakeCallback,
      noCallback, responded]
  rw [handleStream_handshake C nonce now (readMsg_frame_only _ _ fits)]
  exact Prod.ext (handleIncomingHandshake_answered C decoded (by rw [written]; rfl)) written

theorem handshake_of_answer {h : AgentHost} {peer : PeerId} {n : Nonce} {now : BitVec 64}
    {reply : Bytes → Bytes} {hello answer : HandshakeMessage}
    (hello_eq : startHandshake h.agent (.ok n) now = .ok hello)
    (replied : reply (frame msgHandshake hello.encode) = frame msgHandshake answer.encode)
    (fits : 1 + answer.encode.length ≤ maxFrameBytes) (finished : finishHandshake C n.val answer = .ok ()) :
    h.handshake C peer (.ok n) now ⟨none, none⟩ reply = (.ok answer, h.cachePeer peer answer) := by
  have checked : handshakeCheck C hello answer = .ok () := by
    have challenge : hello.challenge = n.val := by
      simp only [startHandshake, Except.ok.injEq] at hello_eq
      rw [← hello_eq]
    unfold handshakeCheck
    split
    · rw [challenge, finished]
    · rfl
  simp only [AgentHost.handshake, AgentHost.handshakeSend, hello_eq]
  exact handshakeRecv_ok C (by rw [replied]; exact readMsg_frame_only _ _ fits)
    (decodeHandshakeMessage_encode answer (length_lt_of_fits fits)) checked

/-- Two hosts whose agents `NewAgent` built, with identities of at most a mebibyte each, the
responder's key pair genuine: when `A` runs `Handshake` on a stream that `B`, without an
`OnHandshake` callback, serves with `handleStream`, `B` writes back `RespondHandshake`'s answer,
which signs `A`'s nonce with `B`'s key and passes `FinishHandshake`. `A` returns that answer, and
each host caches the other's profile under the other's peer id. -/
theorem handshake_completes_between_hosts {A B : AgentHost} {idA idB pubA privA pubB privB : Bytes}
    {capsA capsB : List Bytes} (builtA : newAgent C idA capsA (.ok (pubA, privA)) = .ok A.agent)
    (builtB : newAgent C idB capsB (.ok (pubB, privB)) = .ok B.agent) (digestA : C.sha256Hex pubA ≠ [])
    (keysB : GenuineKeys C pubB privB) (smallA : handshakeFields A.agent ≤ 2 ^ 20)
    (smallB : handshakeFields B.agent ≤ 2 ^ 20) (noCallback : B.onHandshake = none)
    (peerA peerB : PeerId) (nA nB : Nonce) (nowA nowB : BitVec 64) :
    ∃ hello answer, startHandshake A.agent (.ok nA) nowA = .ok hello ∧
      respondHandshake C B.agent hello (.ok nB) nowB = .ok answer ∧
      answer.did = B.agent.did.string ∧ answer.challengeResponse = C.sign privB nA.val ∧
      finishHandshake C nA.val answer = .ok () ∧
      A.handshake C peerB (.ok nA) nowA ⟨none, none⟩
          (fun bytes => (handleStream C B peerA bytes (.ok nB) nowB).2.getD []) =
        (.ok answer, A.cachePeer peerB answer) ∧
      (handleStream C B peerA (frame msgHandshake hello.encode) (.ok nB) nowB).1 = B.cachePeer peerA hello := by
  have agentA := newAgent_eq_ok C builtA
  have agentB := newAgent_eq_ok C builtB
  let hello : HandshakeMessage := ⟨A.agent.id, A.agent.did.string, A.agent.capabilities, protocolVersion,
    nowA, A.agent.pubKey, nA.val, []⟩
  let answer : HandshakeMessage := ⟨B.agent.id, B.agent.did.string, B.agent.capabilities, protocolVersion,
    nowB, B.agent.pubKey, nB.val, C.sign privB nA.val⟩
  have helloBound : peerBound C hello = true :=
    @peerBound_of_didFromKey C hello pubA (some privA) (by simp only [hello, agentA])
      (by simp only [hello, agentA]) digestA
  have answerBound : peerBound C answer = true :=
    @peerBound_of_didFromKey C answer pubB (some privB) (by simp only [answer, agentB])
      (by simp only [answer, agentB]) keysB.digest
  have responded : respondHandshake C B.agent hello (.ok nB) nowB = .ok answer :=
    (respondHandshake_eq_ok C).mpr ⟨helloBound, privB, nB, by rw [agentB]; rfl, rfl, rfl⟩
  have finished : finishHandshake C nA.val answer = .ok () :=
    (finishHandshake_eq_ok C).mpr ⟨answerBound, by simp only [answer, agentB, keysB.size],
      by simp only [answer, agentB, keysB.verifies]⟩
  have helloFits : 1 + hello.encode.length ≤ maxFrameBytes :=
    identity_frame_fits smallA rfl rfl rfl rfl rfl nA.property (Nat.zero_le _)
  have answerFits : 1 + answer.encode.length ≤ maxFrameBytes :=
    identity_frame_fits smallB rfl rfl rfl rfl rfl nB.property (le_of_eq (keysB.signatureSize _))
  have served : handleStream C B peerA (frame msgHandshake hello.encode) (.ok nB) nowB =
      (B.cachePeer peerA hello, some (frame msgHandshake answer.encode)) :=
    handleStream_hello C noCallback helloFits responded
  refine ⟨hello, answer, rfl, responded, rfl, rfl, finished, handshake_of_answer C rfl ?_ answerFits finished,
    by rw [served]⟩
  show (handleStream C B peerA (frame msgHandshake hello.encode) (.ok nB) nowB).2.getD [] = _
  rw [served]
  rfl

/-- A scheme in which a key `k` signs every message as `k ‖ k`, a signature verifies under `k`
exactly when it is `k ‖ k`, and the digest of a key is the key behind the byte `h`. Every
32-byte `k` makes a genuine pair `(k, k)`. -/
def doubledCrypto : Crypto where
  sha256Hex b := 0x68 :: b
  sign k _ := k ++ k
  verify pk _ s := s == pk ++ pk

theorem handshake_completes_fresh_hosts :
    let A := newHost ⟨[0x41], didFromKey doubledCrypto keyA (some keyA), [], keyA, keyA⟩
    let B := newHost ⟨[0x42], didFromKey doubledCrypto keyB (some keyB), [], keyB, keyB⟩
    newAgent doubledCrypto [0x41] [] (.ok (keyA, keyA)) = .ok A.agent ∧
      newAgent doubledCrypto [0x42] [] (.ok (keyB, keyB)) = .ok B.agent ∧
      doubledCrypto.sha256Hex keyA ≠ [] ∧ GenuineKeys doubledCrypto keyB keyB ∧
      handshakeFields A.agent ≤ 2 ^ 20 ∧ handshakeFields B.agent ≤ 2 ^ 20 ∧ B.onHandshake = none ∧
      ∃ hello answer, startHandshake A.agent (.ok nonceA) 0 = .ok hello ∧
        respondHandshake doubledCrypto B.agent hello (.ok nonceB) 0 = .ok answer ∧
        answer.did = B.agent.did.string ∧ answer.challengeResponse = doubledCrypto.sign keyB nonceA.val ∧
        finishHandshake doubledCrypto nonceA.val answer = .ok () ∧
        A.handshake doubledCrypto peerB (.ok nonceA) 0 ⟨none, none⟩
            (fun bytes => (handleStream doubledCrypto B peerA bytes (.ok nonceB) 0).2.getD []) =
          (.ok answer, A.cachePeer peerB answer) ∧
        (handleStream doubledCrypto B peerA (frame msgHandshake hello.encode) (.ok nonceB) 0).1 =
          B.cachePeer peerA hello := by
  intro A B
  have builtA : newAgent doubledCrypto [0x41] [] (.ok (keyA, keyA)) = .ok A.agent := rfl
  have builtB : newAgent doubledCrypto [0x42] [] (.ok (keyB, keyB)) = .ok B.agent := rfl
  have keysB : GenuineKeys doubledCrypto keyB keyB :=
    ⟨List.cons_ne_nil _ _, rfl, fun _ => beq_self_eq_true _, fun _ => rfl⟩
  have smallA : handshakeFields A.agent ≤ 2 ^ 20 := by decide
  have smallB : handshakeFields B.agent ≤ 2 ^ 20 := by decide
  exact ⟨builtA, builtB, List.cons_ne_nil _ _, keysB, smallA, smallB, rfl,
    handshake_completes_between_hosts doubledCrypto builtA builtB (List.cons_ne_nil _ _) keysB smallA smallB rfl
      peerA peerB nonceA nonceB 0 0⟩

theorem defaultResponse_congr (agent : Agent) {i j : IntentMessage} (now : BitVec 64) (id : i.id = j.id)
    (caps : i.capabilities = j.capabilities) (vector : i.intentVector = j.intentVector) :
    defaultResponse agent i now = defaultResponse agent j now := by
  simp only [defaultResponse, buildWorkflow, id, caps, vector]

theorem wireFloat_trustDelta (accepted : Bool) : wireFloat (trustDelta accepted) = trustDelta accepted := by
  cases accepted <;> rfl

theorem handleStream_intent_default {h : AgentHost} {remote : PeerId} {intent : IntentMessage}
    (nonce : Except GoError Nonce) (now : BitVec 64) (noCallback : h.onIntent = none)
    (fits : 1 + intent.encode.length ≤ maxFrameBytes) :
    handleStream C h remote (frame msgIntent intent.encode) nonce now =
      ({ h with trust := h.trust.apply h.agent.did.string intent.did (defaultResponse h.agent intent now).trustDelta },
        some (frame msgNegotiation (defaultResponse h.agent intent now).encode)) := by
  obtain ⟨d, decoded, fields, -⟩ := decodeIntentMessage_encode intent (length_lt_of_fits fits)
  obtain ⟨id, vector, caps, did, -⟩ := IntentMessage.mk.inj fields
  have same : defaultResponse h.agent d now = defaultResponse h.agent intent now :=
    defaultResponse_congr h.agent now id caps vector
  rw [handleStream_intent C nonce now (readMsg_frame_only _ _ fits)]
  simp only [handleIncomingIntent, decoded, AgentHost.intentResponse, AgentHost.intentCallback, noCallback,
    defaultNegotiationHandler_eq, Except.toOption, same, did]
  rfl

theorem sendIntent_of_answer {h : AgentHost} {intent : IntentMessage} {reply : Bytes → Bytes}
    {answer : NegotiationResponse}
    (replied : reply (frame msgIntent intent.encode) = frame msgNegotiation answer.encode)
    (fits : 1 + answer.encode.length ≤ maxFrameBytes) (unsigned : answer.signature = [])
    (wire : wireFloat answer.trustDelta = answer.trustDelta) :
    h.sendIntent intent ⟨none, none⟩ reply =
      (.ok answer, { h with trust := h.trust.apply h.agent.did.string answer.did answer.trustDelta }) := by
  have decoded := decodeNegotiationResponse_encode answer (length_lt_of_fits fits)
  rw [wire, ← unsigned] at decoded
  simp only [AgentHost.sendIntent, replied, readMsg_frame_only _ _ fits, ne_eq, not_true_eq_false,
    if_false, decoded]

/-- `A` sends an intent on a stream that `B`, without an `OnIntent` callback, serves with
`handleStream`. When both frames fit, `SendIntent` returns `B`'s default response as the frame
carries it, without any signature, and both ledgers move by its delta: `A`'s edge towards `B`'s
DID and `B`'s edge towards the DID the intent names. -/
theorem intent_answered_between_hosts (A B : AgentHost) (peerA : PeerId) (intent : IntentMessage)
    (nonce : Except GoError Nonce) (now : BitVec 64) (noCallback : B.onIntent = none)
    (fits : 1 + intent.encode.length ≤ maxFrameBytes)
    (answerFits : 1 + (defaultResponse B.agent intent now).encode.length ≤ maxFrameBytes) :
    let answer := defaultResponse B.agent intent now
    A.sendIntent intent ⟨none, none⟩ (fun bytes => (handleStream C B peerA bytes nonce now).2.getD []) =
        (.ok answer, { A with trust := A.trust.apply A.agent.did.string B.agent.did.string answer.trustDelta }) ∧
      (handleStream C B peerA (frame msgIntent intent.encode) nonce now).1 =
        { B with trust := B.trust.apply B.agent.did.string intent.did answer.trustDelta } := by
  have served : handleStream C B peerA (frame msgIntent intent.encode) nonce now = (_, _) :=
    handleStream_intent_default C nonce now noCallback fits
  refine ⟨sendIntent_of_answer (by simp only [served, Option.getD_some]) answerFits rfl
    (wireFloat_trustDelta _), by rw [served]⟩

theorem intent_answered_fresh_hosts :
    let A := newHost (relayAgent [0x41] keyA)
    let B := newHost (relayAgent [0x42] keyB)
    let answer := defaultResponse B.agent IntentMessage.empty 0
    B.onIntent = none ∧ 1 + IntentMessage.empty.encode.length ≤ maxFrameBytes ∧
      1 + answer.encode.length ≤ maxFrameBytes ∧ answer.trustDelta = trustDelta true ∧
      A.sendIntent IntentMessage.empty ⟨none, none⟩
          (fun bytes => (handleStream relayCrypto B peerA bytes (.ok nonceB) 0).2.getD []) =
        (.ok answer, { A with trust := A.trust.apply A.agent.did.string B.agent.did.string answer.trustDelta }) ∧
      (handleStream relayCrypto B peerA (frame msgIntent IntentMessage.empty.encode) (.ok nonceB) 0).1 =
        { B with trust := B.trust.apply B.agent.did.string IntentMessage.empty.did answer.trustDelta } := by
  intro A B answer
  have fits : 1 + IntentMessage.empty.encode.length ≤ maxFrameBytes := by decide
  have answerFits : 1 + answer.encode.length ≤ maxFrameBytes :=
    Nat.le_trans (Nat.add_le_add_left (NegotiationResponse.encode_length_le_fields _) 1) (by decide)
  exact ⟨rfl, fits, answerFits, rfl,
    intent_answered_between_hosts relayCrypto A B peerA _ (.ok nonceB) 0 rfl fits answerFits⟩

end Symplex.Protocol
