import Symplex.Codec.RoundTrip
import Symplex.P2p.Host

namespace Symplex.Protocol

open Core P2p

variable (C : Crypto)

/-- One use of an honest host's key: `CreateIntent` signing `id ‖ payload`, the default
negotiation handler signing `request_id ‖ reason` on a stream from `remote`, or
`RespondHandshake` signing the challenge of a handshake that came on a stream from `remote`. -/
inductive Signing where
  | created (intent : IntentMessage)
  | answered (remote : PeerId) (signed : Bytes)
  | responded (remote : PeerId) (challenge : Bytes)
  deriving DecidableEq

def Signing.bytes : Signing → Bytes
  | .created intent => intent.id ++ intent.payload
  | .answered _ signed => signed
  | .responded _ challenge => challenge

def keyUse (h : AgentHost) (s : Signing) : List Signing :=
  if h.agent.did.privKey.isSome then [s] else []

/-- The key uses of `handleStream` on an inbound stream from `remote`: `RespondHandshake`'s when
no `OnHandshake` callback answered, and the default negotiation handler's on every intent,
whether the host calls it or its `OnIntent` callback does, as the callbacks of the README, the
host tests and the negotiation demo all do. -/
def streamSignings (h : AgentHost) (remote : PeerId) (input : Bytes) (now : BitVec 64) :
    List Signing :=
  match readMsg input with
  | .error _ => []
  | .ok (msgType, data) =>
    if msgType = msgHandshake then
      match decodeHandshakeMessage data with
      | .error _ => []
      | .ok incoming =>
        match h.handshakeCallback remote incoming with
        | some _ => []
        | none => if peerBound C incoming then keyUse h (.responded remote incoming.challenge) else []
    else if msgType = msgIntent then
      match decodeIntentMessage data with
      | .error _ => []
      | .ok intent =>
        let resp := defaultResponse h.agent intent now
        keyUse h (.answered remote (resp.requestID ++ resp.reason))
    else []

theorem handleStream_respond {h : AgentHost} {remote : PeerId} {m r : HandshakeMessage}
    {nonce : Except GoError Nonce} {now : BitVec 64} (noCallback : h.onHandshake = none)
    (fits : 1 + m.encode.length ≤ maxFrameBytes) (responded : respondHandshake C h.agent m nonce now = .ok r) :
    (handleStream C h remote (frame msgHandshake m.encode) nonce now).2 = some (frame msgHandshake r.encode) := by
  have decoded := decodeHandshakeMessage_encode m (length_lt_of_fits fits)
  rw [handleStream_handshake C nonce now (readMsg_frame_only _ _ fits)]
  simp only [handleIncomingHandshake, decoded, AgentHost.handshakeResponse, AgentHost.handshakeCallback,
    noCallback, responded]

theorem streamSignings_handshake {h : AgentHost} {remote : PeerId} {m : HandshakeMessage}
    (now : BitVec 64) (noCallback : h.onHandshake = none) (fits : 1 + m.encode.length ≤ maxFrameBytes) :
    streamSignings C h remote (frame msgHandshake m.encode) now =
      if peerBound C m then keyUse h (.responded remote m.challenge) else [] := by
  have decoded := decodeHandshakeMessage_encode m (length_lt_of_fits fits)
  simp only [streamSignings, readMsg_frame_only _ _ fits, if_pos, decoded,
    AgentHost.handshakeCallback, noCallback]

/-- An honest node: its host, the handshakes it has written and not yet read an answer for,
and ghost records of the handshakes it completed (the peer, what it sent, what it accepted)
and of every use of its key. -/
structure Node where
  host : AgentHost
  pending : List (PeerId × HandshakeMessage)
  completed : List (PeerId × HandshakeMessage × HandshakeMessage)
  log : List Signing

def Node.init (h : AgentHost) : Node := ⟨h, [], [], []⟩

/-- What the adversary makes an honest node do. It carries every frame, so it chooses the
bytes of each inbound stream and every answer the node reads. `handshakeRecv peer answer`
finishes the oldest pending `Handshake(peer)`. -/
inductive Event where
  | inbound (remote : PeerId) (input : Bytes) (nonce : Except GoError Nonce) (now : BitVec 64)
  | handshakeSend (peer : PeerId) (nonce : Except GoError Nonce) (now : BitVec 64) (io : StreamIO)
  | handshakeRecv (peer : PeerId) (answer : Bytes)
  | sendIntent (peer : PeerId) (intent : IntentMessage) (io : StreamIO) (answer : Bytes)
  | createIntent (vector : List Float32) (capabilities : List Bytes) (payload : Bytes)
      (random : Except GoError Bytes) (now : BitVec 64)

def openStream : StreamIO := ⟨none, none⟩

/-- The uses of the host's key an event makes. -/
def keyUses (h : AgentHost) : Event → List Signing
  | .inbound remote input _ now => streamSignings C h remote input now
  | .createIntent vector capabilities payload random now =>
    match createIntent C h.agent vector capabilities payload random now with
    | .error _ => []
    | .ok intent => [.created intent]
  | _ => []

def trustUpdate (h : AgentHost) : Event → Option (Bytes × Float32)
  | .inbound remote input _ now => streamTrustUpdate C h remote input now
  | .sendIntent _ intent io answer => sendIntentTrustUpdate intent io fun _ => answer
  | _ => none

def Node.react (n : Node) : Event → Node
  | .inbound remote input nonce now =>
    { n with host := (handleStream C n.host remote input nonce now).1 }
  | .handshakeSend peer nonce now io =>
    match n.host.handshakeSend nonce now io with
    | .error _ => n
    | .ok ours => { n with pending := n.pending ++ [(peer, ours)] }
  | .handshakeRecv peer answer =>
    match n.pending.find? (·.1 = peer) with
    | none => n
    | some (_, ours) =>
      let result := n.host.handshakeRecv C peer ours fun _ => answer
      { n with host := result.2, pending := n.pending.eraseP (·.1 = peer),
               completed := n.completed ++ (result.1.toOption.map fun resp => (peer, ours, resp)).toList }
  | .sendIntent _ intent io answer => { n with host := (n.host.sendIntent intent io fun _ => answer).2 }
  | .createIntent .. => n

def Node.step (n : Node) (e : Event) : Node := { n.react C e with log := n.log ++ keyUses C n.host e }

def Node.run (n : Node) (events : List Event) : Node := events.foldl (Node.step C) n

@[simp] theorem Node.run_nil (n : Node) : n.run C [] = n := rfl

@[simp] theorem Node.run_cons (n : Node) (e : Event) (events : List Event) :
    n.run C (e :: events) = (n.step C e).run C events := rfl

/-- The signature scheme is unforgeable for the key `pk` over a node's run: a signature
verifies under `pk` only for bytes the node's key signed. -/
def Unforgeable (pk : Bytes) (n : Node) : Prop :=
  ∀ x s, C.verify pk x s = true → x ∈ n.log.map Signing.bytes

theorem Node.step_handshakeSend (n : Node) (peer : PeerId) {nonce : Except GoError Nonce}
    {now : BitVec 64} {io : StreamIO} {ours : HandshakeMessage}
    (sent : n.host.handshakeSend nonce now io = .ok ours) :
    (n.step C (.handshakeSend peer nonce now io)).host = n.host ∧
      (n.step C (.handshakeSend peer nonce now io)).pending = n.pending ++ [(peer, ours)] := by
  simp only [Node.step, Node.react, sent, and_self]

theorem Node.step_completed {n : Node} {peer q : PeerId} {ours resp : HandshakeMessage} {answer : Bytes}
    (found : n.pending.find? (·.1 = peer) = some (q, ours))
    (accepted : (n.host.handshakeRecv C peer ours fun _ => answer).1 = .ok resp) :
    (peer, ours, resp) ∈ (n.step C (.handshakeRecv peer answer)).completed := by
  simp only [Node.step, Node.react, found, accepted, Except.toOption, Option.map_some',
    Option.toList_some]
  exact List.mem_append_right _ (List.mem_singleton_self _)

theorem Node.step_config (n : Node) (e : Event) : (n.step C e).host.config = n.host.config := by
  cases e with
  | inbound remote input nonce now => exact handleStream_config C _ _ _ _ _
  | handshakeSend peer nonce now io =>
    dsimp only [Node.step, Node.react]
    split <;> rfl
  | handshakeRecv peer answer =>
    dsimp only [Node.step, Node.react]
    split
    · rfl
    · exact handshakeRecv_config C _ _ _ _
  | sendIntent peer intent io answer => exact sendIntent_config _ _ _ _
  | createIntent => rfl

theorem Node.run_config (n : Node) (events : List Event) :
    (n.run C events).host.config = n.host.config := by
  induction events generalizing n with
  | nil => rfl
  | cons e events ih => rw [Node.run_cons, ih, Node.step_config]

theorem keyUses_congr {h h' : AgentHost} (same : h.config = h'.config) :
    keyUses C h = keyUses C h' := by
  simp only [AgentHost.config, Prod.mk.injEq] at same
  obtain ⟨agent, onHandshake, onIntent⟩ := same
  funext e
  cases e <;> simp only [keyUses, streamSignings, keyUse, AgentHost.handshakeCallback,
    AgentHost.intentCallback, agent, onHandshake, onIntent]

theorem trustUpdate_congr {h h' : AgentHost} (same : h.config = h'.config) :
    trustUpdate C h = trustUpdate C h' := by
  simp only [AgentHost.config, Prod.mk.injEq] at same
  obtain ⟨agent, onHandshake, onIntent⟩ := same
  funext e
  cases e <;> simp only [trustUpdate, streamTrustUpdate, AgentHost.intentResponse,
    AgentHost.intentCallback, agent, onIntent]

theorem Node.run_log (n : Node) (events : List Event) :
    (n.run C events).log = n.log ++ events.flatMap (keyUses C n.host) := by
  induction events generalizing n with
  | nil => simp
  | cons e events ih =>
    rw [Node.run_cons, ih, keyUses_congr C (Node.step_config C n e), List.flatMap_cons,
      ← List.append_assoc]
    rfl

theorem Node.step_trust (n : Node) (e : Event) :
    (n.step C e).host.trust = n.host.trust.update n.host.agent.did.string (trustUpdate C n.host e) := by
  cases e with
  | inbound remote input nonce now => exact handleStream_trust C _ _ _ _ _
  | handshakeSend peer nonce now io =>
    dsimp only [Node.step, Node.react]
    split <;> rfl
  | handshakeRecv peer answer =>
    dsimp only [Node.step, Node.react]
    split
    · rfl
    · exact handshakeRecv_trust C _ _ _ _
  | sendIntent peer intent io answer => exact sendIntent_trust _ _ _ _
  | createIntent => rfl

def edgeDeltas (h : AgentHost) (d : Bytes) (events : List Event) : List Float32 :=
  events.filterMap fun e => edgeDelta d (trustUpdate C h e)

theorem Node.run_trust (n : Node) (d : Bytes) (events : List Event) :
    (n.run C events).host.trust.get n.host.agent.did.string d =
      (edgeDeltas C n.host d events).foldl (fun v delta => clamp (v + delta))
        (n.host.trust.get n.host.agent.did.string d) := by
  induction events generalizing n with
  | nil => rfl
  | cons e events ih =>
    have agent : (n.step C e).host.agent = n.host.agent :=
      congrArg Prod.fst (Node.step_config C n e)
    rw [Node.run_cons, ← agent, ih, agent, edgeDeltas, edgeDeltas,
      trustUpdate_congr C (Node.step_config C n e), Node.step_trust, TrustGraph.get_update,
      List.filterMap_cons]
    cases edgeDelta d (trustUpdate C n.host e) <;> rfl

theorem Node.init_run_trust (h : AgentHost) (d : Bytes) (events : List Event) :
    ((Node.init h).run C events).host.trust.get h.agent.did.string d =
      (edgeDeltas C h d events).foldl (fun v delta => clamp (v + delta)) (h.trust.get h.agent.did.string d) :=
  Node.run_trust C (Node.init h) d events

theorem sendIntentTrustUpdate_empty (intent : IntentMessage) (io : StreamIO) :
    sendIntentTrustUpdate intent io (fun _ => []) = none := by
  unfold sendIntentTrustUpdate
  split <;> rfl

theorem sendIntentTrustUpdate_response (intent : IntentMessage) (resp : NegotiationResponse)
    (fits : 1 + resp.encode.length ≤ maxFrameBytes) :
    sendIntentTrustUpdate intent openStream (fun _ => frame msgNegotiation resp.encode) =
      some (resp.did, wireFloat resp.trustDelta) := by
  have decoded := decodeNegotiationResponse_encode resp (length_lt_of_fits fits)
  simp only [sendIntentTrustUpdate, openStream, readMsg_frame_only _ _ fits, decoded, ne_eq,
    not_true_eq_false, if_false]

/-- `ours` carries, as its challenge, the nonce of a `Handshake(peer)` among `past`. -/
def Drawn (past : List Event) (peer : PeerId) (ours : HandshakeMessage) : Prop :=
  ∃ nonce now io, Event.handshakeSend peer (.ok nonce) now io ∈ past ∧ ours.challenge = nonce.val

theorem Drawn.mono {past : List Event} {peer : PeerId} {ours : HandshakeMessage}
    (drawn : Drawn past peer ours) (later : List Event) : Drawn (past ++ later) peer ours := by
  obtain ⟨nonce, now, io, mem, challenge⟩ := drawn
  exact ⟨nonce, now, io, List.mem_append_left _ mem, challenge⟩

/-- What a node's handshake records say about the events `past` it went through: each
handshake it wrote carries a nonce it drew, and each answer it accepted passed
`handshakeCheck`. -/
structure Node.Sound (past : List Event) (n : Node) : Prop where
  pending : ∀ p ∈ n.pending, Drawn past p.1 p.2
  completed : ∀ c ∈ n.completed, Drawn past c.1 c.2.1 ∧ handshakeCheck C c.2.1 c.2.2 = .ok ()

theorem Node.Sound.init (h : AgentHost) : (Node.init h).Sound C [] :=
  ⟨fun _ mem => (nomatch mem), fun _ mem => (nomatch mem)⟩

theorem Node.Sound.mono {past : List Event} {n : Node} (sound : n.Sound C past) (later : List Event) :
    n.Sound C (past ++ later) :=
  ⟨fun p mem => (sound.pending p mem).mono later,
    fun c mem => ⟨(sound.completed c mem).1.mono later, (sound.completed c mem).2⟩⟩

theorem Node.Sound.react {past : List Event} {n : Node} (sound : n.Sound C past) (e : Event) :
    (n.react C e).Sound C (past ++ [e]) := by
  have later := sound.mono C [e]
  cases e with
  | handshakeSend peer nonce now io =>
    dsimp only [Node.react]
    split
    · exact later
    · rename_i ours sent
      obtain ⟨drawn, rfl, challenge⟩ := handshakeSend_challenge sent
      refine ⟨fun p mem => ?_, later.completed⟩
      rcases List.mem_append.mp mem with old | new
      · exact later.pending p old
      · rw [List.mem_singleton.mp new]
        exact ⟨drawn, now, io, List.mem_append_right _ (List.mem_singleton_self _), challenge⟩
  | handshakeRecv peer answer =>
    dsimp only [Node.react]
    cases found : n.pending.find? (·.1 = peer) with
    | none => exact later
    | some p =>
      obtain ⟨q, ours⟩ := p
      have named : q = peer := by simpa using List.find?_some found
      have drawn : Drawn (past ++ [_]) q ours := later.pending _ (List.mem_of_find?_eq_some found)
      subst named
      refine ⟨fun p erased => later.pending p (List.mem_of_mem_eraseP erased), fun c mem => ?_⟩
      rcases List.mem_append.mp mem with old | new
      · exact later.completed c old
      · cases accepted : (n.host.handshakeRecv C q ours fun _ => answer).1 with
        | error e => simp [accepted, Except.toOption] at new
        | ok resp =>
          simp only [accepted, Except.toOption, Option.map_some', Option.toList_some,
            List.mem_singleton] at new
          subst new
          exact ⟨drawn, handshakeRecv_checked C accepted⟩
  | inbound => exact ⟨later.pending, later.completed⟩
  | sendIntent => exact ⟨later.pending, later.completed⟩
  | createIntent => exact later

theorem Node.Sound.step {past : List Event} {n : Node} (sound : n.Sound C past) (e : Event) :
    (n.step C e).Sound C (past ++ [e]) :=
  ⟨(sound.react C e).pending, (sound.react C e).completed⟩

theorem Node.Sound.run {past : List Event} {n : Node} (sound : n.Sound C past) (events : List Event) :
    (n.run C events).Sound C (past ++ events) := by
  induction events generalizing past n with
  | nil => simpa using sound
  | cons e events ih =>
    rw [Node.run_cons, ← List.singleton_append, ← List.append_assoc]
    exact ih (sound.step C e)

theorem Node.completed_drawn (h : AgentHost) (events : List Event)
    {c : PeerId × HandshakeMessage × HandshakeMessage} (mem : c ∈ ((Node.init h).run C events).completed) :
    Drawn events c.1 c.2.1 ∧ handshakeCheck C c.2.1 c.2.2 = .ok () := by
  simpa using ((Node.Sound.init C h).run C events).completed c mem

/-- A network of honest nodes: the hosts they started from and the events each has taken. -/
structure Network where
  hosts : PeerId → AgentHost
  history : PeerId → List Event

def Network.fresh (hosts : PeerId → AgentHost) : Network := ⟨hosts, fun _ => []⟩

def Network.node (net : Network) (x : PeerId) : Node := (Node.init (net.hosts x)).run C (net.history x)

def Network.record (net : Network) (x : PeerId) (es : List Event) : Network :=
  { net with history := Function.update net.history x (net.history x ++ es) }

def Event.peer : Event → Option PeerId
  | .inbound remote .. => some remote
  | .handshakeSend peer .. => some peer
  | .handshakeRecv peer _ => some peer
  | .sendIntent peer .. => some peer
  | .createIntent .. => none

inductive Action where
  | act (x : PeerId) (e : Event)
  | handshake (a b : PeerId) (nonce : Except GoError Nonce) (now : BitVec 64)
      (answerNonce : Except GoError Nonce) (answerNow : BitVec 64)

/-- The transport authenticates peer ids: an honest node's streams with the adversary are
streams with a peer id outside `honest`. -/
def Action.Allowed (honest : List PeerId) : Action → Prop
  | .act x e => x ∈ honest ∧ ∀ p, e.peer = some p → p ∉ honest
  | .handshake a b .. => a ∈ honest ∧ b ∈ honest ∧ a ≠ b

def Network.step (net : Network) : Action → Network
  | .act x e => net.record x [e]
  | .handshake a b nonce now answerNonce answerNow =>
    match (net.node C a).host.handshakeSend nonce now openStream with
    | .error _ => net.record a [.handshakeSend b nonce now openStream]
    | .ok ours =>
      let input := frame msgHandshake ours.encode
      let answer := ((handleStream C (net.node C b).host a input answerNonce answerNow).2).getD []
      (net.record b [.inbound a input answerNonce answerNow]).record a
        [.handshakeSend b nonce now openStream, .handshakeRecv b answer]

def Network.run (net : Network) (actions : List Action) : Network := actions.foldl (Network.step C) net

theorem Network.run_hosts (net : Network) (actions : List Action) : (net.run C actions).hosts = net.hosts := by
  induction actions generalizing net with
  | nil => rfl
  | cons action actions ih =>
    rw [Network.run, List.foldl_cons, ← Network.run, ih]
    cases action with
    | act => rfl
    | handshake => dsimp only [Network.step]; split <;> rfl

end Symplex.Protocol
