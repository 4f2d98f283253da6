import Symplex.Core.Did

namespace Symplex.Core

variable (C : Crypto)

def challengeSize : Nat := 32

abbrev Nonce := { b : Bytes // b.length = challengeSize }

def startHandshake (agent : Agent) (nonce : Except GoError Nonce) (now : BitVec 64) :
    Except GoError HandshakeMessage :=
  match nonce with
  | .error e => .error (.wrapf "handshake: nonce generation: %w" [] e)
  | .ok n =>
    .ok { agentID := agent.id, did := agent.did.string, capabilities := agent.capabilities,
          version := protocolVersion, timestamp := now, publicKey := agent.publicKey,
          challenge := n.val, challengeResponse := [] }

def respondHandshake (responder : Agent) (incoming : HandshakeMessage) (nonce : Except GoError Nonce)
    (now : BitVec 64) : Except GoError HandshakeMessage :=
  match parseDID incoming.did with
  | .error e => .error (.wrapf "handshake: peer DID invalid: %w" [] e)
  | .ok peerDID =>
    if !peerDID.validateBinding C incoming.publicKey then
      .error (.errorf "handshake: DID/key binding mismatch for %s" [.inl incoming.agentID])
    else
      match responder.sign C incoming.challenge with
      | .error e => .error (.wrapf "handshake: signing challenge: %w" [] e)
      | .ok sig =>
        match nonce with
        | .error e => .error (.wrapf "handshake: nonce generation: %w" [] e)
        | .ok n =>
          .ok { agentID := responder.id, did := responder.did.string,
                capabilities := responder.capabilities, version := protocolVersion, timestamp := now,
                publicKey := responder.publicKey, challenge := n.val, challengeResponse := sig }

def finishHandshake (originalChallenge : Bytes) (response : HandshakeMessage) : Except GoError Unit :=
  match parseDID response.did with
  | .error e => .error (.wrapf "handshake finish: peer DID invalid: %w" [] e)
  | .ok peerDID =>
    if !peerDID.validateBinding C response.publicKey then
      .error (.errorf "handshake finish: DID/key binding mismatch for %s" [.inl response.agentID])
    else
      match didFromPublicKey C response.publicKey with
      | .error e => .error (.wrapf "handshake finish: invalid public key: %w" [] e)
      | .ok d =>
        if !d.verify C originalChallenge response.challengeResponse then
          .error (.errorf "handshake finish: challenge signature invalid for %s" [.inl response.agentID])
        else .ok ()

/-- `HandshakeResult`; `CompletedAt` in Unix nanoseconds. -/
structure HandshakeResult where
  peerAgentID : Bytes
  peerDID : Bytes
  peerCapabilities : List Bytes
  peerPublicKey : Bytes
  protocolVersion : Bytes
  completedAt : Int
  deriving DecidableEq, Repr

/-- `NewHandshakeResult(resp)` at time `now`: copies of the responder's fields. -/
def newHandshakeResult (resp : HandshakeMessage) (now : Int) : HandshakeResult :=
  ⟨resp.agentID, resp.did, resp.capabilities, resp.publicKey, resp.version, now⟩

def peerBound (m : HandshakeMessage) : Bool :=
  match parseDID m.did with
  | .error _ => false
  | .ok peerDID => peerDID.validateBinding C m.publicKey

theorem respondHandshake_eq_ok {responder : Agent} {incoming : HandshakeMessage}
    {nonce : Except GoError Nonce} {now : BitVec 64} {r : HandshakeMessage} :
    respondHandshake C responder incoming nonce now = .ok r ↔
      peerBound C incoming = true ∧ ∃ k n, responder.did.privKey = some k ∧ nonce = .ok n ∧
        r = { agentID := responder.id, did := responder.did.string,
              capabilities := responder.capabilities, version := protocolVersion, timestamp := now,
              publicKey := responder.publicKey, challenge := n.val,
              challengeResponse := C.sign k incoming.challenge } := by
  unfold respondHandshake peerBound Agent.sign DID.sign
  cases parseDID incoming.did with
  | error e => simp
  | ok peerDID =>
    dsimp only
    cases peerDID.validateBinding C incoming.publicKey
    · simp
    · cases responder.did.privKey with
      | none => simp
      | some k =>
        cases nonce with
        | error e => simp
        | ok n => simp [eq_comm]

theorem finishHandshake_eq_ok {challenge : Bytes} {resp : HandshakeMessage} :
    finishHandshake C challenge resp = .ok () ↔
      peerBound C resp = true ∧ resp.publicKey.length = publicKeySize ∧
        C.verify resp.publicKey challenge resp.challengeResponse = true := by
  unfold finishHandshake peerBound didFromPublicKey
  cases parseDID resp.did with
  | error e => simp
  | ok peerDID =>
    dsimp only
    cases peerDID.validateBinding C resp.publicKey
    · simp
    · by_cases size : resp.publicKey.length = publicKeySize
      · simp [size, didFromKey, DID.verify]
      · simp [size]

theorem plainMethod_symplex : plainMethod (ascii "symplex") = true := by decide

theorem peerBound_didFromKey {m : HandshakeMessage} {pk : Bytes} {priv : Option Bytes}
    (injective : Function.Injective C.sha256Hex) (bound : peerBound C m = true)
    (named : m.did = (didFromKey C pk priv).string) : m.publicKey = pk := by
  unfold peerBound at bound
  rw [named, parseDID_string _ plainMethod_symplex] at bound
  by_cases empty : (didFromKey C pk priv).id = []
  · rw [if_pos empty] at bound
    cases bound
  · rw [if_neg empty] at bound
    exact injective (of_decide_eq_true bound)

theorem peerBound_of_didFromKey {m : HandshakeMessage} {pk : Bytes} {priv : Option Bytes}
    (named : m.did = (didFromKey C pk priv).string) (key : m.publicKey = pk)
    (nonempty : C.sha256Hex pk ≠ []) : peerBound C m = true := by
  unfold peerBound
  rw [named, parseDID_string _ plainMethod_symplex, if_neg (show (didFromKey C pk priv).id ≠ [] from nonempty)]
  simp [DID.validateBinding, key, didFromKey]

/-- A registry entry; `expiresAt = none` is the zero `time.Time`, which never expires. Times
are Unix nanoseconds. -/
structure RegistryEntry where
  profile : AgentProfile
  expiresAt : Option Int
  deriving DecidableEq, Repr

structure DiscoveryRegistry where
  entries : GoMap Bytes RegistryEntry

def newDiscoveryRegistry : DiscoveryRegistry := ⟨∅⟩

/-- `isExpired` at time `now`: `time.Now().After(e.expiresAt)`. -/
def RegistryEntry.isExpired (e : RegistryEntry) (now : Int) : Bool :=
  match e.expiresAt with
  | none => false
  | some t => t < now

def expiresAfter (ttlSeconds : BitVec 64) (now : Int) : Option Int :=
  if 0 < ttlSeconds.toInt then some (now + (ttlSeconds * 1000000000).toInt) else none

def DiscoveryRegistry.announce (r : DiscoveryRegistry) (profile : AgentProfile) (ttlSeconds : BitVec 64)
    (now : Int) : DiscoveryRegistry :=
  ⟨r.entries.insert profile.agentID ⟨profile, expiresAfter ttlSeconds now⟩⟩

def DiscoveryRegistry.announceFromMessage (r : DiscoveryRegistry) (msg : CapabilityAnnouncement)
    (now : Int) : DiscoveryRegistry :=
  r.announce ⟨msg.agentID, msg.did, msg.capabilities, [], []⟩ msg.ttl now

def DiscoveryRegistry.remove (r : DiscoveryRegistry) (agentID : Bytes) : DiscoveryRegistry :=
  ⟨r.entries.erase agentID⟩

def capabilitySet (available : List Bytes) : GoMap Bytes Unit :=
  available.foldl (fun set c => set.insert c ()) ∅

/-- `hasAll`: the loop over `required` that returns `false` at the first tag missing from the
set. -/
def hasAll (available required : List Bytes) : Bool :=
  let set := capabilitySet available
  required.all fun r => (set.lookup r).isSome

def DiscoveryRegistry.findByCapability (r : DiscoveryRegistry) (now : Int) (required : List Bytes) :
    List AgentProfile :=
  (r.entries.entries.filter fun e => !e.2.isExpired now && hasAll e.2.profile.capabilities required).map
    (·.2.profile)

def DiscoveryRegistry.findByDID (r : DiscoveryRegistry) (now : Int) (did : Bytes) : Option AgentProfile :=
  (r.entries.entries.find? fun e => !e.2.isExpired now && e.2.profile.did = did).map (·.2.profile)

def DiscoveryRegistry.all (r : DiscoveryRegistry) (now : Int) : List AgentProfile :=
  (r.entries.entries.filter fun e => !e.2.isExpired now).map (·.2.profile)

/-- `Evict`: drop the expired entries and count them. -/
def DiscoveryRegistry.evict (r : DiscoveryRegistry) (now : Int) : DiscoveryRegistry × Nat :=
  (⟨r.entries.entries.foldl (fun m e => if e.2.isExpired now then m.erase e.1 else m) r.entries⟩,
    (r.entries.entries.filter fun e => e.2.isExpired now).length)

def buildAnnouncement (agent : Agent) (ttlSeconds : BitVec 64) (now : BitVec 64) : CapabilityAnnouncement :=
  ⟨agent.id, agent.did.string, agent.capabilities, now, ttlSeconds⟩

/-- `CapabilitySetDiff`: the loop over `required` appending each tag to `present` or to
`absent`. -/
def capabilitySetDiff (required available : List Bytes) : List Bytes × List Bytes :=
  let set := capabilitySet available
  required.foldl (fun out c =>
    if (set.lookup c).isSome then (out.1 ++ [c], out.2) else (out.1, out.2 ++ [c])) ([], [])

/-- `SummariseRegistry` at time `now`: `fmt.Sprintf("DiscoveryRegistry: %d live agents", len(r.All()))`. -/
def summariseRegistry (r : DiscoveryRegistry) (now : Int) : Bytes :=
  ascii ("DiscoveryRegistry: " ++ toString (r.all now).length ++ " live agents")

theorem lookup_foldl_insert_isSome (l : List Bytes) (set : GoMap Bytes Unit) (c : Bytes) :
    ((l.foldl (fun set c => set.insert c ()) set).lookup c).isSome ↔ c ∈ l ∨ (set.lookup c).isSome := by
  induction l generalizing set with
  | nil => simp
  | cons x l ih =>
    rw [List.foldl_cons, ih]
    by_cases same : c = x
    · subst same
      simp
    · simp [AList.lookup_insert_ne same, same]

@[simp] theorem lookup_capabilitySet_isSome (available : List Bytes) (c : Bytes) :
    ((capabilitySet available).lookup c).isSome = decide (c ∈ available) := by
  rw [Bool.eq_iff_iff, decide_eq_true_iff]
  simp [capabilitySet, lookup_foldl_insert_isSome]

@[simp] theorem lookup_capabilitySet_isNone (available : List Bytes) (c : Bytes) :
    ((capabilitySet available).lookup c).isNone = !decide (c ∈ available) := by
  rw [← lookup_capabilitySet_isSome]
  cases (capabilitySet available).lookup c <;> rfl

theorem hasAll_iff (available required : List Bytes) :
    hasAll available required = true ↔ ∀ c ∈ required, c ∈ available := by
  simp [hasAll]

theorem foldl_append_unless (p : Bytes → Bool) (l acc : List Bytes) :
    l.foldl (fun out c => if p c then out else out ++ [c]) acc = acc ++ l.filter fun c => !p c := by
  induction l generalizing acc with
  | nil => simp
  | cons c l ih =>
    rw [List.foldl_cons, ih]
    cases tested : p c <;> simp [tested]

theorem foldl_split (p : Bytes → Bool) (l present absent : List Bytes) :
    l.foldl (fun out c => if p c then (out.1 ++ [c], out.2) else (out.1, out.2 ++ [c])) (present, absent) =
      (present ++ l.filter p, absent ++ l.filter fun c => !p c) := by
  induction l generalizing present absent with
  | nil => simp
  | cons c l ih =>
    rw [List.foldl_cons]
    cases tested : p c <;> simp [tested, ih]

theorem capabilitySetDiff_eq (required available : List Bytes) :
    capabilitySetDiff required available =
      (required.filter fun c => c ∈ available, required.filter fun c => c ∉ available) := by
  rw [capabilitySetDiff, foldl_split]
  simp

end Symplex.Core
