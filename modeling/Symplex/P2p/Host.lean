import Symplex.Core.Encoding
import Symplex.Core.Negotiation

namespace Symplex.P2p

open Core

abbrev PeerId := Bytes

structure AgentHost where
  agent : Agent
  discovery : DiscoveryRegistry
  trust : TrustGraph
  onHandshake : Option (PeerId → HandshakeMessage → Option HandshakeMessage)
  onIntent : Option (PeerId → IntentMessage → Option NegotiationResponse)
  known : GoMap PeerId AgentProfile

def newHost (agent : Agent) : AgentHost := ⟨agent, newDiscoveryRegistry, newTrustGraph, none, none, ∅⟩

def AgentHost.setOnHandshake (h : AgentHost) (fn : PeerId → HandshakeMessage → Option HandshakeMessage) :
    AgentHost := { h with onHandshake := some fn }

def AgentHost.setOnIntent (h : AgentHost) (fn : PeerId → IntentMessage → Option NegotiationResponse) :
    AgentHost := { h with onIntent := some fn }

def readFullError (got : Nat) : GoError :=
  if got = 0 then .errorf "EOF" [] else .errorf "unexpected EOF" []

def maxFrameBytes : Nat := 4 * 1024 * 1024

theorem length_lt_of_fits {n : Nat} (fits : 1 + n ≤ maxFrameBytes) : n < 2 ^ 64 := by
  unfold maxFrameBytes at fits
  omega

theorem HandshakeMessage.frame_fits {m : HandshakeMessage}
    (short : 1 + (300 + m.timestamp.toNat + 2 * (m.agentID.length + m.did.length + m.version.length +
      m.publicKey.length + m.challenge.length + m.challengeResponse.length) +
      (m.capabilities.map fun s => 28 + 2 * s.length).sum) ≤ maxFrameBytes) :
    1 + m.encode.length ≤ maxFrameBytes :=
  Nat.le_trans (Nat.add_le_add_left (HandshakeMessage.encode_length_le m) 1) short

/-- `readMsg` on a stream that delivers the bytes `r` and then ends. -/
def readMsg (r : Bytes) : Except GoError (MessageType × Bytes) :=
  if r.length < 4 then .error (.wrapf "readMsg header: %w" [] (readFullError r.length))
  else if bigEndianUint32 r < 1 ∨ maxFrameBytes < bigEndianUint32 r then
    .error (.errorf "readMsg: invalid length %d" [.inr (bigEndianUint32 r)])
  else if (r.drop 4).length < bigEndianUint32 r then
    .error (.wrapf "readMsg body: %w" [] (readFullError (r.drop 4).length))
  else .ok ((r.drop 4).getD 0 0, ((r.drop 4).take (bigEndianUint32 r)).drop 1)

theorem readMsg_frame (msgType : MessageType) (payload rest : Bytes)
    (fits : 1 + payload.length ≤ maxFrameBytes) :
    readMsg (frame msgType payload ++ rest) = .ok (msgType, payload) := by
  have header : bigEndianUint32 (frame msgType payload ++ rest) = 1 + payload.length := by
    rw [frame, List.append_assoc, bigEndianUint32_bigEndian32, BitVec.toNat_ofNat,
      Nat.mod_eq_of_lt (by unfold maxFrameBytes at fits; omega)]
  have body : (frame msgType payload ++ rest).drop 4 = msgType :: (payload ++ rest) := by
    simp [frame, bigEndian32]
  have long : 4 ≤ (frame msgType payload ++ rest).length := by simp; omega
  rw [readMsg, if_neg (by omega), header, if_neg (by omega), body, if_neg (by simp; omega),
    Nat.add_comm, List.take_succ_cons]
  simp

theorem readMsg_frame_only (msgType : MessageType) (payload : Bytes)
    (fits : 1 + payload.length ≤ maxFrameBytes) : readMsg (frame msgType payload) = .ok (msgType, payload) := by
  simpa using readMsg_frame msgType payload [] fits

def handshakeProfile (m : HandshakeMessage) : AgentProfile := ⟨m.agentID, m.did, m.capabilities, [], []⟩

variable (C : Crypto)

def AgentHost.handshakeCallback (h : AgentHost) (remote : PeerId) (incoming : HandshakeMessage) :
    Option HandshakeMessage :=
  match h.onHandshake with
  | some cb => cb remote incoming
  | none => none

def AgentHost.intentCallback (h : AgentHost) (remote : PeerId) (intent : IntentMessage) :
    Option NegotiationResponse :=
  match h.onIntent with
  | some cb => cb remote intent
  | none => none

def AgentHost.handshakeResponse (h : AgentHost) (remote : PeerId) (incoming : HandshakeMessage)
    (nonce : Except GoError Nonce) (now : BitVec 64) : Except GoError HandshakeMessage :=
  match h.handshakeCallback remote incoming with
  | some r => .ok r
  | none => respondHandshake C h.agent incoming nonce now

/-- `handleIncomingHandshake` on a stream from `remote`; returns the new host state and the
frame written back, if any. -/
def handleIncomingHandshake (h : AgentHost) (remote : PeerId) (data : Bytes)
    (nonce : Except GoError Nonce) (now : BitVec 64) : AgentHost × Option Bytes :=
  match decodeHandshakeMessage data with
  | .error _ => (h, none)
  | .ok incoming =>
    match h.handshakeResponse C remote incoming nonce now with
    | .error _ => (h, none)
    | .ok r =>
      ({ h with known := h.known.insert remote (handshakeProfile incoming),
                discovery := h.discovery.announce (handshakeProfile incoming) 0 now.toInt },
        some (frame msgHandshake r.encode))

def AgentHost.intentResponse (h : AgentHost) (remote : PeerId) (intent : IntentMessage)
    (now : BitVec 64) : Option NegotiationResponse :=
  match h.intentCallback remote intent with
  | some r => some r
  | none => (defaultNegotiationHandler C h.agent intent now).toOption

theorem defaultNegotiationHandler_ok (agent : Agent) (intent : IntentMessage) (now : BitVec 64) :
    ∃ r, defaultNegotiationHandler C agent intent now = .ok r := by
  unfold defaultNegotiationHandler
  dsimp only
  split <;> exact ⟨_, rfl⟩

theorem intentResponse_isSome (h : AgentHost) (remote : PeerId) (intent : IntentMessage)
    (now : BitVec 64) : (h.intentResponse C remote intent now).isSome := by
  obtain ⟨r, handled⟩ := defaultNegotiationHandler_ok C h.agent intent now
  unfold AgentHost.intentResponse
  simp only [handled, Except.toOption]
  split <;> rfl

/-- `handleIncomingIntent`: no signature is checked before the handler runs. -/
def handleIncomingIntent (h : AgentHost) (remote : PeerId) (data : Bytes) (now : BitVec 64) :
    AgentHost × Option Bytes :=
  match decodeIntentMessage data with
  | .error _ => (h, none)
  | .ok intent =>
    match h.intentResponse C remote intent now with
    | none => (h, none)
    | some r =>
      ({ h with trust := h.trust.apply h.agent.did.string intent.did r.trustDelta },
        some (frame msgNegotiation r.encode))

theorem handleIncomingIntent_answers (h : AgentHost) (remote : PeerId) {data : Bytes}
    {intent : IntentMessage} (now : BitVec 64) (decoded : decodeIntentMessage data = .ok intent) :
    ∃ r, h.intentResponse C remote intent now = some r ∧
      handleIncomingIntent C h remote data now =
        ({ h with trust := h.trust.apply h.agent.did.string intent.did r.trustDelta },
          some (frame msgNegotiation r.encode)) := by
  obtain ⟨r, answered⟩ := Option.isSome_iff_exists.mp (intentResponse_isSome C h remote intent now)
  exact ⟨r, answered, by simp only [handleIncomingIntent, decoded, answered]⟩

/-- `handleIncomingCapability` is a stub: the announcement is neither decoded nor stored. -/
def handleIncomingCapability (h : AgentHost) (_data : Bytes) : AgentHost := h

/-- `handleStream` on an inbound stream from `remote` that delivers `input`. -/
def handleStream (h : AgentHost) (remote : PeerId) (input : Bytes) (nonce : Except GoError Nonce)
    (now : BitVec 64) : AgentHost × Option Bytes :=
  match readMsg input with
  | .error _ => (h, none)
  | .ok (msgType, data) =>
    if msgType = msgHandshake then handleIncomingHandshake C h remote data nonce now
    else if msgType = msgIntent then handleIncomingIntent C h remote data now
    else if msgType = msgCapability then (handleIncomingCapability h data, none)
    else (h, none)

theorem handleStream_intent {h : AgentHost} {remote : PeerId} {input data : Bytes}
    (nonce : Except GoError Nonce) (now : BitVec 64) (read : readMsg input = .ok (msgIntent, data)) :
    handleStream C h remote input nonce now = handleIncomingIntent C h remote data now := by
  simp only [handleStream, read]
  rfl

theorem handleStream_handshake {h : AgentHost} {remote : PeerId} {input data : Bytes}
    (nonce : Except GoError Nonce) (now : BitVec 64) (read : readMsg input = .ok (msgHandshake, data)) :
    handleStream C h remote input nonce now = handleIncomingHandshake C h remote data nonce now := by
  simp only [handleStream, read]
  rfl

theorem handleStream_capability {h : AgentHost} {remote : PeerId} {input data : Bytes}
    (nonce : Except GoError Nonce) (now : BitVec 64) (read : readMsg input = .ok (msgCapability, data)) :
    handleStream C h remote input nonce now = (h, none) := by
  simp only [handleStream, read]
  rfl

/-- `handleStream` drops every capability announcement: whatever the host's state and whatever
follows the frame on the stream, the host is left as it was and nothing is written back. -/
theorem handleStream_drops_announcement (h : AgentHost) (remote : PeerId) (a : CapabilityAnnouncement)
    (rest : Bytes) (nonce : Except GoError Nonce) (now : BitVec 64) (fits : 1 + a.encode.length ≤ maxFrameBytes) :
    handleStream C h remote (frame msgCapability a.encode ++ rest) nonce now = (h, none) :=
  handleStream_capability C nonce now (readMsg_frame _ _ _ fits)

theorem handleStream_drops_announcement_fresh :
    let a : CapabilityAnnouncement := ⟨ascii "x", ascii "did:symplex:x", [ascii "c"], 1, 60⟩
    let h := newHost ⟨[], ⟨ascii "symplex", [], none, none⟩, [], [], []⟩
    1 + a.encode.length ≤ maxFrameBytes ∧
      handleStream blankCrypto h [] (frame msgCapability a.encode ++ []) (.error (.errorf "EOF" [])) 0 = (h, none) :=
  have fits := Nat.le_trans (Nat.add_le_add_left (CapabilityAnnouncement.encode_length_le _) 1) (by decide)
  ⟨fits, handleStream_drops_announcement blankCrypto _ [] _ [] _ 0 fits⟩

def AgentHost.config (h : AgentHost) :
    Agent × Option (PeerId → HandshakeMessage → Option HandshakeMessage) ×
      Option (PeerId → IntentMessage → Option NegotiationResponse) :=
  (h.agent, h.onHandshake, h.onIntent)

theorem handleStream_config (h : AgentHost) (remote : PeerId) (input : Bytes)
    (nonce : Except GoError Nonce) (now : BitVec 64) :
    (handleStream C h remote input nonce now).1.config = h.config := by
  unfold handleStream handleIncomingHandshake handleIncomingIntent handleIncomingCapability
  split
  · rfl
  · split_ifs <;> (try split) <;> (try split) <;> rfl

def streamTrustUpdate (h : AgentHost) (remote : PeerId) (input : Bytes) (now : BitVec 64) :
    Option (Bytes × Float32) :=
  match readMsg input with
  | .error _ => none
  | .ok (msgType, data) =>
    if msgType = msgHandshake then none
    else if msgType = msgIntent then
      match decodeIntentMessage data with
      | .error _ => none
      | .ok intent => (h.intentResponse C remote intent now).map fun r => (intent.did, r.trustDelta)
    else none

theorem handleStream_trust (h : AgentHost) (remote : PeerId) (input : Bytes)
    (nonce : Except GoError Nonce) (now : BitVec 64) :
    (handleStream C h remote input nonce now).1.trust =
      h.trust.update h.agent.did.string (streamTrustUpdate C h remote input now) := by
  unfold handleStream streamTrustUpdate
  split
  · rfl
  · split_ifs
    · unfold handleIncomingHandshake
      split <;> (try split) <;> rfl
    · unfold handleIncomingIntent
      split
      · rfl
      · rename_i intent _
        cases h.intentResponse C remote intent now <;> rfl
    · rfl
    · rfl

/-- What the transport does with the writing side of an outbound stream. -/
structure StreamIO where
  openError : Option GoError
  writeError : Option GoError

def AgentHost.handshakeSend (h : AgentHost) (nonce : Except GoError Nonce) (now : BitVec 64)
    (io : StreamIO) : Except GoError HandshakeMessage :=
  match io.openError with
  | some e => .error (.wrapf "p2p handshake: open stream: %w" [] e)
  | none =>
    match startHandshake h.agent nonce now with
    | .error e => .error e
    | .ok ours =>
      match io.writeError with
      | some e => .error (.wrapf "p2p handshake: send: %w" [] e)
      | none => .ok ours

def handshakeCheck (ours resp : HandshakeMessage) : Except GoError Unit :=
  if resp.challengeResponse.length > 0 then finishHandshake C ours.challenge resp else .ok ()

def AgentHost.handshakeRecv (h : AgentHost) (peer : PeerId) (ours : HandshakeMessage)
    (reply : Bytes → Bytes) : Except GoError HandshakeMessage × AgentHost :=
  match readMsg (reply (frame msgHandshake ours.encode)) with
  | .error e => (.error (.wrapf "p2p handshake: recv: %w" [] e), h)
  | .ok (msgType, data) =>
    if msgType ≠ msgHandshake then
      (.error (.errorf "p2p handshake: expected MsgHandshake, got 0x%02x" [.inr msgType.toNat]), h)
    else
      match decodeHandshakeMessage data with
      | .error e => (.error (.wrapf "p2p handshake: decode response: %w" [] e), h)
      | .ok resp =>
        match handshakeCheck C ours resp with
        | .error e => (.error e, h)
        | .ok () =>
          (.ok resp, { h with known := h.known.insert peer (handshakeProfile resp),
                              discovery := h.discovery.announce (handshakeProfile resp) 0 0 })

theorem handshakeSend_challenge {h : AgentHost} {nonce : Except GoError Nonce} {now : BitVec 64}
    {io : StreamIO} {ours : HandshakeMessage} (sent : h.handshakeSend nonce now io = .ok ours) :
    ∃ n, nonce = .ok n ∧ ours.challenge = n.val := by
  unfold AgentHost.handshakeSend at sent
  cases nonce with
  | error e => split at sent <;> simp [startHandshake] at sent
  | ok n =>
    refine ⟨n, rfl, ?_⟩
    split at sent
    · cases sent
    · simp only [startHandshake] at sent
      split at sent
      · cases sent
      · cases sent
        rfl

theorem handshakeCheck_signed {ours resp : HandshakeMessage} (checked : handshakeCheck C ours resp = .ok ())
    (signed : resp.challengeResponse ≠ []) : finishHandshake C ours.challenge resp = .ok () := by
  rwa [handshakeCheck, if_pos (List.length_pos.mpr signed)] at checked

theorem handshakeRecv_cases (h : AgentHost) (peer : PeerId) (ours : HandshakeMessage)
    (reply : Bytes → Bytes) :
    (∃ e, h.handshakeRecv C peer ours reply = (.error e, h)) ∨
      ∃ data resp, readMsg (reply (frame msgHandshake ours.encode)) = .ok (msgHandshake, data) ∧
        decodeHandshakeMessage data = .ok resp ∧ handshakeCheck C ours resp = .ok () ∧
        h.handshakeRecv C peer ours reply =
          (.ok resp, { h with known := h.known.insert peer (handshakeProfile resp),
                              discovery := h.discovery.announce (handshakeProfile resp) 0 0 }) := by
  unfold AgentHost.handshakeRecv
  cases read : readMsg (reply (frame msgHandshake ours.encode)) with
  | error e => exact .inl ⟨_, rfl⟩
  | ok r =>
    obtain ⟨msgType, data⟩ := r
    dsimp only
    by_cases kind : msgType = msgHandshake
    · subst kind
      rw [if_neg (not_not.mpr rfl)]
      cases decoded : decodeHandshakeMessage data with
      | error e => exact .inl ⟨_, rfl⟩
      | ok resp =>
        dsimp only
        cases checked : handshakeCheck C ours resp with
        | error e => exact .inl ⟨_, rfl⟩
        | ok u => exact .inr ⟨data, resp, rfl, decoded, checked, rfl⟩
    · rw [if_pos kind]
      exact .inl ⟨_, rfl⟩

theorem handshakeRecv_ok {h : AgentHost} {peer : PeerId} {ours resp : HandshakeMessage}
    {reply : Bytes → Bytes} {data : Bytes}
    (read : readMsg (reply (frame msgHandshake ours.encode)) = .ok (msgHandshake, data))
    (decoded : decodeHandshakeMessage data = .ok resp) (checked : handshakeCheck C ours resp = .ok ()) :
    h.handshakeRecv C peer ours reply =
      (.ok resp, { h with known := h.known.insert peer (handshakeProfile resp),
                          discovery := h.discovery.announce (handshakeProfile resp) 0 0 }) := by
  simp only [AgentHost.handshakeRecv, read, decoded, checked, ne_eq, not_true_eq_false, if_false]

theorem handshakeRecv_unsigned {h : AgentHost} {peer : PeerId} {ours resp : HandshakeMessage}
    {reply : Bytes → Bytes} {data : Bytes}
    (read : readMsg (reply (frame msgHandshake ours.encode)) = .ok (msgHandshake, data))
    (decoded : decodeHandshakeMessage data = .ok resp) (unsigned : resp.challengeResponse = []) :
    h.handshakeRecv C peer ours reply =
      (.ok resp, { h with known := h.known.insert peer (handshakeProfile resp),
                          discovery := h.discovery.announce (handshakeProfile resp) 0 0 }) :=
  handshakeRecv_ok C read decoded (by simp [handshakeCheck, unsigned])

theorem handshakeRecv_checked {h : AgentHost} {peer : PeerId} {ours resp : HandshakeMessage}
    {reply : Bytes → Bytes} (accepted : (h.handshakeRecv C peer ours reply).1 = .ok resp) :
    handshakeCheck C ours resp = .ok () := by
  rcases handshakeRecv_cases C h peer ours reply with ⟨e, failed⟩ | ⟨_, resp', _, _, checked, ok⟩
  · rw [failed] at accepted
    cases accepted
  · rw [ok] at accepted
    cases accepted
    exact checked

theorem handshakeRecv_config (h : AgentHost) (peer : PeerId) (ours : HandshakeMessage)
    (reply : Bytes → Bytes) : (h.handshakeRecv C peer ours reply).2.config = h.config := by
  rcases handshakeRecv_cases C h peer ours reply with ⟨e, failed⟩ | ⟨_, _, _, _, _, ok⟩
  · rw [failed]
  · rw [ok]
    rfl

theorem handshakeRecv_trust (h : AgentHost) (peer : PeerId) (ours : HandshakeMessage)
    (reply : Bytes → Bytes) : (h.handshakeRecv C peer ours reply).2.trust = h.trust := by
  rcases handshakeRecv_cases C h peer ours reply with ⟨e, failed⟩ | ⟨_, _, _, _, _, ok⟩
  · rw [failed]
  · rw [ok]

/-- `Handshake(peer)`; `reply` is what the peer writes back for the bytes it reads. -/
def AgentHost.handshake (h : AgentHost) (peer : PeerId) (nonce : Except GoError Nonce) (now : BitVec 64)
    (io : StreamIO) (reply : Bytes → Bytes) : Except GoError HandshakeMessage × AgentHost :=
  match h.handshakeSend nonce now io with
  | .error e => (.error e, h)
  | .ok ours => h.handshakeRecv C peer ours reply

/-- `DiscoverAndHandshake(h, info)`: `connect` is the error of `h.Connect`, if any; then
`Handshake(info.ID)`, and the result of the answer it accepted, completed at `completedAt`. -/
def AgentHost.discoverAndHandshake (h : AgentHost) (connect : Option GoError) (peer : PeerId)
    (nonce : Except GoError Nonce) (now : BitVec 64) (io : StreamIO) (reply : Bytes → Bytes) (completedAt : Int) :
    Except GoError HandshakeResult × AgentHost :=
  match connect with
  | some e => (.error (.wrapf "discover: connect: %w" [] e), h)
  | none =>
    match h.handshake C peer nonce now io reply with
    | (.error e, h') => (.error (.wrapf "discover: handshake: %w" [] e), h')
    | (.ok resp, h') => (.ok (newHandshakeResult resp completedAt), h')

/-- `SendIntent(peer, intent)`: write the intent's frame, read the negotiation response the
peer writes back, and apply its `TrustDelta` to the edge towards the DID it names. -/
def AgentHost.sendIntent (h : AgentHost) (intent : IntentMessage) (io : StreamIO)
    (reply : Bytes → Bytes) : Except GoError NegotiationResponse × AgentHost :=
  match io.openError with
  | some e => (.error (.wrapf "p2p intent: open stream: %w" [] e), h)
  | none =>
    match io.writeError with
    | some e => (.error (.wrapf "p2p intent: send: %w" [] e), h)
    | none =>
      match readMsg (reply (frame msgIntent intent.encode)) with
      | .error e => (.error (.wrapf "p2p intent: recv: %w" [] e), h)
      | .ok (msgType, data) =>
        if msgType ≠ msgNegotiation then
          (.error (.errorf "p2p intent: expected MsgNegotiation, got 0x%02x" [.inr msgType.toNat]), h)
        else
          match decodeNegotiationResponse data with
          | .error e => (.error (.wrapf "p2p intent: decode response: %w" [] e), h)
          | .ok resp =>
            (.ok resp, { h with trust := h.trust.apply h.agent.did.string resp.did resp.trustDelta })

theorem sendIntent_config (h : AgentHost) (intent : IntentMessage) (io : StreamIO)
    (reply : Bytes → Bytes) : (h.sendIntent intent io reply).2.config = h.config := by
  unfold AgentHost.sendIntent
  split
  · rfl
  · split
    · rfl
    · split
      · rfl
      · split_ifs <;> (try split) <;> rfl

def sendIntentTrustUpdate (intent : IntentMessage) (io : StreamIO) (reply : Bytes → Bytes) :
    Option (Bytes × Float32) :=
  match io.openError, io.writeError with
  | none, none =>
    match readMsg (reply (frame msgIntent intent.encode)) with
    | .error _ => none
    | .ok (msgType, data) =>
      if msgType ≠ msgNegotiation then none
      else
        match decodeNegotiationResponse data with
        | .error _ => none
        | .ok resp => some (resp.did, resp.trustDelta)
  | _, _ => none

theorem sendIntent_trust (h : AgentHost) (intent : IntentMessage) (io : StreamIO)
    (reply : Bytes → Bytes) :
    (h.sendIntent intent io reply).2.trust =
      h.trust.update h.agent.did.string (sendIntentTrustUpdate intent io reply) := by
  obtain ⟨openError, writeError⟩ := io
  cases openError with
  | some e => rfl
  | none =>
    cases writeError with
    | some e => rfl
    | none =>
      simp only [AgentHost.sendIntent, sendIntentTrustUpdate]
      split
      · rfl
      · split_ifs
        · rfl
        · split <;> rfl

/-- `AnnounceCapabilities`: the frame written to each connected peer (a failed stream writes
nothing). -/
def AgentHost.announceCapabilities (h : AgentHost) (now : BitVec 64) : Bytes :=
  frame msgCapability (buildAnnouncement h.agent 300 now).encode

end Symplex.P2p
