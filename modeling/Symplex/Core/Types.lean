import Symplex.Float32

namespace Symplex.Core

/-- `MessageType`, the type byte of a frame. -/
abbrev MessageType := BitVec 8

def msgHandshake : MessageType := 0x01
def msgIntent : MessageType := 0x02
def msgNegotiation : MessageType := 0x03
def msgWorkflow : MessageType := 0x04
def msgCapability : MessageType := 0x05

def protocolVersion : Bytes := ascii "1.0.0"

/-- A decentralized identifier. `ParseDID` leaves both keys `nil`; `DIDFromPublicKey` sets
only `pubKey`. -/
structure DID where
  method : Bytes
  id : Bytes
  pubKey : Option Bytes
  privKey : Option Bytes
  deriving DecidableEq, Repr

structure Agent where
  id : Bytes
  did : DID
  capabilities : List Bytes
  pubKey : Bytes
  privKey : Bytes
  deriving DecidableEq, Repr

/-- `IntentMessage`. The declaration of its `Signature` field is not under `src/`;
`CreateIntent` and `VerifyIntentSignature` use it as a byte string. -/
structure IntentMessage where
  id : Bytes
  intentVector : List Float32
  capabilities : List Bytes
  did : Bytes
  payload : Bytes
  timestamp : BitVec 64
  trustScore : Float32
  metadata : GoMap Bytes Bytes
  signature : Bytes
  deriving DecidableEq

structure HandshakeMessage where
  agentID : Bytes
  did : Bytes
  capabilities : List Bytes
  version : Bytes
  timestamp : BitVec 64
  publicKey : Bytes
  challenge : Bytes
  challengeResponse : Bytes
  deriving DecidableEq, Repr

/-- `NegotiationResponse`, with the `Signature` field `DefaultNegotiationHandler` sets. -/
structure NegotiationResponse where
  requestID : Bytes
  agentID : Bytes
  accepted : Bool
  workflowSteps : List Bytes
  did : Bytes
  responseVector : List Float32
  timestamp : BitVec 64
  reason : Bytes
  trustDelta : Float32
  signature : Bytes
  deriving DecidableEq, Repr

structure CapabilityAnnouncement where
  agentID : Bytes
  did : Bytes
  capabilities : List Bytes
  timestamp : BitVec 64
  ttl : BitVec 64
  deriving DecidableEq, Repr

/-- `WorkflowMessage`: a step of a distributed workflow, with its `Params` map. -/
structure WorkflowMessage where
  workflowID : Bytes
  stepID : Bytes
  nextStepID : Bytes
  agentID : Bytes
  did : Bytes
  action : Bytes
  params : GoMap Bytes Bytes
  resultChan : Bytes
  timestamp : BitVec 64
  deriving DecidableEq

structure AgentProfile where
  agentID : Bytes
  did : Bytes
  capabilities : List Bytes
  embeddingVector : List Float32
  publicKey : Bytes
  deriving DecidableEq, Repr

def IntentMessage.empty : IntentMessage :=
  ⟨[], [], [], [], [], 0, Float32.zero, ∅, []⟩

def HandshakeMessage.empty : HandshakeMessage := ⟨[], [], [], [], 0, [], [], []⟩

def NegotiationResponse.empty : NegotiationResponse :=
  ⟨[], [], false, [], [], [], 0, [], Float32.zero, []⟩

def CapabilityAnnouncement.empty : CapabilityAnnouncement := ⟨[], [], [], 0, 0⟩

end Symplex.Core
