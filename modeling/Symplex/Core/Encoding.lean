import Symplex.Protowire
import Symplex.Core.Types

namespace Symplex.Core

open Protowire

/-- `enc.bytes`: a non-empty byte field, length-delimited. -/
def encBytes (field : Nat) (b : Bytes) : Bytes :=
  if b = [] then [] else appendTag field 2 ++ appendBytes b

/-- `enc.str`, the same layout as `enc.bytes`. -/
def encStr (field : Nat) (s : Bytes) : Bytes := encBytes field s

/-- `enc.i64`: a non-zero `int64` as the varint of its `uint64` bits. -/
def encI64 (field : Nat) (v : BitVec 64) : Bytes :=
  if v = 0 then [] else appendTag field 0 ++ appendVarint v.toNat

/-- `enc.f32`: skipped when `v == 0`, which holds for both zeros. -/
def encF32 (field : Nat) (v : Float32) : Bytes :=
  if v.beq Float32.zero then [] else appendTag field 5 ++ appendFixed32 v.bits

def encBoolean (field : Nat) (v : Bool) : Bytes :=
  if !v then [] else appendTag field 0 ++ appendVarint 1

/-- `enc.strs`: every element, empty strings included. -/
def encStrs (field : Nat) (ss : List Bytes) : Bytes :=
  ss.flatMap fun s => appendTag field 2 ++ appendBytes s

/-- `enc.packedF32`: the little-endian bits of every element in one length-delimited field
(`binary.LittleEndian.AppendUint32` lays out a word as `AppendFixed32` does). -/
def encPackedF32 (field : Nat) (fs : List Float32) : Bytes :=
  if fs = [] then [] else appendTag field 2 ++ appendBytes (fs.flatMap fun f => appendFixed32 f.bits)

def strMapEntry (k v : Bytes) : Bytes :=
  appendTag 1 2 ++ appendBytes k ++ appendTag 2 2 ++ appendBytes v

/-- `enc.strMap`, visiting the entries in the map's iteration order. -/
def encStrMap (field : Nat) (m : GoMap Bytes Bytes) : Bytes :=
  m.entries.flatMap fun e => appendTag field 2 ++ appendBytes (strMapEntry e.1 e.2)

def IntentMessage.encode (m : IntentMessage) : Bytes :=
  encStr 1 m.id ++ encPackedF32 2 m.intentVector ++ encStrs 3 m.capabilities ++ encStr 4 m.did ++
    encStr 5 m.payload ++ encI64 6 m.timestamp ++ encF32 7 m.trustScore ++ encStrMap 8 m.metadata

def HandshakeMessage.encode (m : HandshakeMessage) : Bytes :=
  encStr 1 m.agentID ++ encStr 2 m.did ++ encStrs 3 m.capabilities ++ encStr 4 m.version ++
    encI64 5 m.timestamp ++ encBytes 6 m.publicKey ++ encBytes 7 m.challenge ++
    encBytes 8 m.challengeResponse

def NegotiationResponse.encode (m : NegotiationResponse) : Bytes :=
  encStr 1 m.requestID ++ encStr 2 m.agentID ++ encBoolean 3 m.accepted ++
    encStrs 4 m.workflowSteps ++ encStr 5 m.did ++ encPackedF32 6 m.responseVector ++
    encI64 7 m.timestamp ++ encStr 8 m.reason ++ encF32 9 m.trustDelta

def CapabilityAnnouncement.encode (m : CapabilityAnnouncement) : Bytes :=
  encStr 1 m.agentID ++ encStr 2 m.did ++ encStrs 3 m.capabilities ++ encI64 4 m.timestamp ++
    encI64 5 m.ttl

/-- `WorkflowMessage.Encode`; no decoder reads it back (`Decode` has no case for it). -/
def WorkflowMessage.encode (m : WorkflowMessage) : Bytes :=
  encStr 1 m.workflowID ++ encStr 2 m.stepID ++ encStr 3 m.nextStepID ++ encStr 4 m.agentID ++
    encStr 5 m.did ++ encStr 6 m.action ++ encStrMap 7 m.params ++ encStr 8 m.resultChan ++
    encI64 9 m.timestamp

theorem encBytes_length_le (field : Nat) (b : Bytes) :
    (encBytes field b).length ≤ field * 8 + 4 + 2 * b.length := by
  unfold encBytes
  split
  · simp
  · have tag := appendVarint_length_le (field * 8 + 2)
    have length := appendVarint_length_le b.length
    simp only [appendTag, appendBytes, List.length_append]
    omega

theorem encI64_length_le (field : Nat) (v : BitVec 64) :
    (encI64 field v).length ≤ field * 8 + 2 + v.toNat := by
  unfold encI64
  split
  · simp
  · have tag := appendVarint_length_le (field * 8 + 0)
    have value := appendVarint_length_le v.toNat
    simp only [appendTag, List.length_append]
    omega

theorem encF32_length_le (field : Nat) (v : Float32) : (encF32 field v).length ≤ field * 8 + 10 := by
  unfold encF32
  split
  · simp
  · have tag := appendVarint_length_le (field * 8 + 5)
    simp only [appendTag, appendFixed32, List.length_append, List.length_cons, List.length_nil]
    omega

theorem encBoolean_length_le (field : Nat) (v : Bool) : (encBoolean field v).length ≤ field * 8 + 3 := by
  unfold encBoolean
  split
  · simp
  · have tag := appendVarint_length_le (field * 8 + 0)
    simp only [appendTag, appendVarint_small (show 1 < 0x80 by decide), List.length_append,
      List.length_singleton]
    omega

theorem encStrs_length_le (field : Nat) (ss : List Bytes) :
    (encStrs field ss).length ≤ (ss.map fun s => field * 8 + 4 + 2 * s.length).sum := by
  induction ss with
  | nil => simp [encStrs]
  | cons s ss ih =>
    have tag := appendVarint_length_le (field * 8 + 2)
    have length := appendVarint_length_le s.length
    simp only [encStrs, List.flatMap_cons, appendTag, appendBytes, List.length_append, List.map_cons,
      List.sum_cons] at ih ⊢
    omega

theorem HandshakeMessage.encode_length_le (m : HandshakeMessage) :
    m.encode.length ≤ 300 + m.timestamp.toNat + 2 * (m.agentID.length + m.did.length +
      m.version.length + m.publicKey.length + m.challenge.length + m.challengeResponse.length) +
      (m.capabilities.map fun s => 28 + 2 * s.length).sum := by
  have := encBytes_length_le 1 m.agentID
  have := encBytes_length_le 2 m.did
  have : (encStrs 3 m.capabilities).length ≤ (m.capabilities.map fun s => 28 + 2 * s.length).sum :=
    encStrs_length_le 3 m.capabilities
  have := encBytes_length_le 4 m.version
  have := encI64_length_le 5 m.timestamp
  have := encBytes_length_le 6 m.publicKey
  have := encBytes_length_le 7 m.challenge
  have := encBytes_length_le 8 m.challengeResponse
  simp only [HandshakeMessage.encode, encStr, List.length_append]
  omega

theorem encI64_length_le_eleven {field : Nat} (small : field * 8 < 0x80) (v : BitVec 64) :
    (encI64 field v).length ≤ 11 := by
  unfold encI64
  split
  · simp
  · have value := appendVarint_length_le_ten v.isLt
    simp only [appendTag, appendVarint_small (show field * 8 + 0 < 0x80 by omega), List.length_append,
      List.length_singleton]
    omega

theorem HandshakeMessage.encode_length_le_fields (m : HandshakeMessage) :
    m.encode.length ≤ 310 + 2 * (m.agentID.length + m.did.length + m.version.length +
      m.publicKey.length + m.challenge.length + m.challengeResponse.length) +
      (m.capabilities.map fun s => 28 + 2 * s.length).sum := by
  have := encBytes_length_le 1 m.agentID
  have := encBytes_length_le 2 m.did
  have : (encStrs 3 m.capabilities).length ≤ (m.capabilities.map fun s => 28 + 2 * s.length).sum :=
    encStrs_length_le 3 m.capabilities
  have := encBytes_length_le 4 m.version
  have := encI64_length_le_eleven (show 5 * 8 < 0x80 by decide) m.timestamp
  have := encBytes_length_le 6 m.publicKey
  have := encBytes_length_le 7 m.challenge
  have := encBytes_length_le 8 m.challengeResponse
  simp only [HandshakeMessage.encode, encStr, List.length_append]
  omega

theorem CapabilityAnnouncement.encode_length_le (m : CapabilityAnnouncement) :
    m.encode.length ≤ 110 + m.timestamp.toNat + m.ttl.toNat + 2 * (m.agentID.length + m.did.length) +
      (m.capabilities.map fun s => 28 + 2 * s.length).sum := by
  have := encBytes_length_le 1 m.agentID
  have := encBytes_length_le 2 m.did
  have : (encStrs 3 m.capabilities).length ≤ (m.capabilities.map fun s => 28 + 2 * s.length).sum :=
    encStrs_length_le 3 m.capabilities
  have := encI64_length_le 4 m.timestamp
  have := encI64_length_le 5 m.ttl
  simp only [CapabilityAnnouncement.encode, encStr, List.length_append]
  omega

theorem NegotiationResponse.encode_length_le (m : NegotiationResponse) (noSteps : m.workflowSteps = [])
    (noVector : m.responseVector = []) :
    m.encode.length ≤ 400 + m.timestamp.toNat + 2 * (m.requestID.length + m.agentID.length +
      m.did.length + m.reason.length) := by
  have := encBytes_length_le 1 m.requestID
  have := encBytes_length_le 2 m.agentID
  have := encBoolean_length_le 3 m.accepted
  have := encBytes_length_le 5 m.did
  have := encI64_length_le 7 m.timestamp
  have := encBytes_length_le 8 m.reason
  have := encF32_length_le 9 m.trustDelta
  simp only [NegotiationResponse.encode, encStr, noSteps, noVector, encStrs, encPackedF32,
    List.flatMap_nil, if_pos, List.length_append, List.length_nil]
  omega

theorem encPackedF32_length_le (field : Nat) (fs : List Float32) :
    (encPackedF32 field fs).length ≤ field * 8 + 4 + 8 * fs.length := by
  have words : ∀ fs : List Float32, (fs.flatMap fun f => appendFixed32 f.bits).length = 4 * fs.length := by
    intro fs
    induction fs with
    | nil => rfl
    | cons f fs ih => simp only [List.flatMap_cons, List.length_append, length_appendFixed32, ih,
        List.length_cons]; omega
  unfold encPackedF32
  split
  · simp
  · have tag := appendVarint_length_le (field * 8 + 2)
    have length := appendVarint_length_le (4 * fs.length)
    simp only [appendTag, appendBytes, List.length_append, words] at tag length ⊢
    omega

theorem NegotiationResponse.encode_length_le_fields (m : NegotiationResponse) :
    m.encode.length ≤ 320 + 2 * (m.requestID.length + m.agentID.length + m.did.length + m.reason.length) +
      (m.workflowSteps.map fun s => 36 + 2 * s.length).sum + 8 * m.responseVector.length := by
  have := encBytes_length_le 1 m.requestID
  have := encBytes_length_le 2 m.agentID
  have := encBoolean_length_le 3 m.accepted
  have : (encStrs 4 m.workflowSteps).length ≤ (m.workflowSteps.map fun s => 36 + 2 * s.length).sum :=
    encStrs_length_le 4 m.workflowSteps
  have := encBytes_length_le 5 m.did
  have := encPackedF32_length_le 6 m.responseVector
  have := encI64_length_le_eleven (show 7 * 8 < 0x80 by decide) m.timestamp
  have := encBytes_length_le 8 m.reason
  have := encF32_length_le 9 m.trustDelta
  simp only [NegotiationResponse.encode, encStr, List.length_append]
  omega

theorem IntentMessage.encode_length_le_fields (m : IntentMessage) :
    m.encode.length ≤ 200 + 2 * (m.id.length + m.did.length + m.payload.length) +
      (m.capabilities.map fun s => 28 + 2 * s.length).sum + 8 * m.intentVector.length +
      (encStrMap 8 m.metadata).length := by
  have := encBytes_length_le 1 m.id
  have := encPackedF32_length_le 2 m.intentVector
  have : (encStrs 3 m.capabilities).length ≤ (m.capabilities.map fun s => 28 + 2 * s.length).sum :=
    encStrs_length_le 3 m.capabilities
  have := encBytes_length_le 4 m.did
  have := encBytes_length_le 5 m.payload
  have := encI64_length_le_eleven (show 6 * 8 < 0x80 by decide) m.timestamp
  have := encF32_length_le 7 m.trustScore
  simp only [IntentMessage.encode, encStr, List.length_append]
  omega

/-- `decodePackedF32`: whole four-byte words; a trailing partial word is dropped. -/
def decodePackedF32 : Bytes → List Float32
  | b0 :: b1 :: b2 :: b3 :: rest =>
    ⟨BitVec.ofNat 32 (b0.toNat + b1.toNat * 2 ^ 8 + b2.toNat * 2 ^ 16 + b3.toNat * 2 ^ 24)⟩ ::
      decodePackedF32 rest
  | _ => []

/-- The `for len(data) > 0` loop every decoder runs: read a tag, let `field` read the value
(it returns the updated message and the bytes it read), and go on after both. -/
def fieldLoop {σ : Type} (field : Nat → Nat → Bytes → σ → Except GoError (σ × Nat))
    (tagError : GoError) (data : Bytes) (m : σ) : Except GoError σ :=
  if data = [] then .ok m
  else
    match _read : consumeTag data with
    | none => .error tagError
    | some (num, typ, n) =>
      match field num typ (data.drop n) m with
      | .error e => .error e
      | .ok (m', n2) => fieldLoop field tagError ((data.drop n).drop n2) m'
termination_by data.length
decreasing_by
  have := consumeTag_consumed _read
  simp only [List.length_drop]
  omega

section Loop

variable {σ : Type} {field : Nat → Nat → Bytes → σ → Except GoError (σ × Nat)} {tagError : GoError}

theorem fieldLoop_nil (field : Nat → Nat → Bytes → σ → Except GoError (σ × Nat))
    (tagError : GoError) (m : σ) : fieldLoop field tagError [] m = .ok m := by
  rw [fieldLoop, if_pos rfl]

theorem fieldLoop_tag_error {data : Bytes} {m : σ} (nonempty : data ≠ [])
    (tag : consumeTag data = none) : fieldLoop field tagError data m = .error tagError := by
  rw [fieldLoop, if_neg nonempty]
  split
  · rfl
  · simp_all

theorem fieldLoop_field_error {data : Bytes} {m : σ} {num typ n : Nat} {e : GoError}
    (nonempty : data ≠ []) (tag : consumeTag data = some (num, typ, n))
    (read : field num typ (data.drop n) m = .error e) : fieldLoop field tagError data m = .error e := by
  rw [fieldLoop, if_neg nonempty]
  split
  · simp_all
  · rename_i num' typ' n' tag'
    obtain ⟨rfl, rfl, rfl⟩ : num = num' ∧ typ = typ' ∧ n = n' := by simpa [tag] using tag'
    simp only [read]

theorem fieldLoop_step {data : Bytes} {m m' : σ} {num typ n n2 : Nat} (nonempty : data ≠ [])
    (tag : consumeTag data = some (num, typ, n)) (read : field num typ (data.drop n) m = .ok (m', n2)) :
    fieldLoop field tagError data m = fieldLoop field tagError ((data.drop n).drop n2) m' := by
  rw [fieldLoop, if_neg nonempty]
  split
  · simp_all
  · rename_i num' typ' n' tag'
    obtain ⟨rfl, rfl, rfl⟩ : num = num' ∧ typ = typ' ∧ n = n' := by simpa [tag] using tag'
    simp only [read]

theorem fieldLoop_invariant (Inv : σ → Prop)
    (step : ∀ num typ b m m' n, Inv m → field num typ b m = .ok (m', n) → Inv m')
    {data : Bytes} {m r : σ} (start : Inv m) (done : fieldLoop field tagError data m = .ok r) :
    Inv r := by
  induction data, m using fieldLoop.induct field tagError with
  | case1 m =>
    rw [fieldLoop_nil] at done
    cases done
    exact start
  | case2 data m nonempty tag =>
    rw [fieldLoop_tag_error nonempty tag] at done
    cases done
  | case3 data m nonempty num typ n tag e read =>
    rw [fieldLoop_field_error nonempty tag read] at done
    cases done
  | case4 data m nonempty num typ n tag m' n2 read ih =>
    rw [fieldLoop_step nonempty tag read] at done
    exact ih (step _ _ _ _ _ _ start read) done

end Loop

def readField {α σ : Type} (consume : Bytes → Option (α × Nat)) (err : GoError) (data : Bytes)
    (set : α → σ) : Except GoError (σ × Nat) :=
  match consume data with
  | none => .error err
  | some (v, n) => .ok (set v, n)

def skipField {σ : Type} (num typ : Nat) (err : GoError) (data : Bytes) (m : σ) :
    Except GoError (σ × Nat) :=
  match consumeFieldValue num typ data with
  | none => .error err
  | some n => .ok (m, n)

def strMapEntryField (num _typ : Nat) (b : Bytes) (kv : Bytes × Bytes) :
    Except GoError ((Bytes × Bytes) × Nat) :=
  match num with
  | 1 => readField consumeBytes (.errorf "invalid map key" []) b fun s => (s, kv.2)
  | 2 => readField consumeBytes (.errorf "invalid map value" []) b fun s => (kv.1, s)
  | _ => skipField num 2 (.errorf "invalid map entry field" []) b kv

theorem readField_ok {α σ : Type} {consume : Bytes → Option (α × Nat)} {err : GoError}
    {data : Bytes} {set : α → σ} {m' : σ} {n : Nat}
    (read : readField consume err data set = .ok (m', n)) : ∃ v, set v = m' := by
  unfold readField at read
  split at read
  · cases read
  · cases read
    exact ⟨_, rfl⟩

theorem skipField_ok {σ : Type} {num typ : Nat} {err : GoError} {data : Bytes} {m m' : σ} {n : Nat}
    (skip : skipField num typ err data m = .ok (m', n)) : m' = m := by
  unfold skipField at skip
  split at skip
  · cases skip
  · cases skip
    rfl

def decodeStrMapEntry (b : Bytes) : Except GoError (Bytes × Bytes) :=
  fieldLoop strMapEntryField (.errorf "invalid map entry tag" []) b ([], [])

def intentField (num typ : Nat) (data : Bytes) (m : IntentMessage) :
    Except GoError (IntentMessage × Nat) :=
  match num with
  | 1 => readField consumeBytes (.errorf "intent: invalid id" []) data fun s => { m with id := s }
  | 2 => readField consumeBytes (.errorf "intent: invalid intent_vector" []) data
      fun b => { m with intentVector := decodePackedF32 b }
  | 3 => readField consumeBytes (.errorf "intent: invalid capability" []) data
      fun s => { m with capabilities := m.capabilities ++ [s] }
  | 4 => readField consumeBytes (.errorf "intent: invalid did" []) data fun s => { m with did := s }
  | 5 => readField consumeBytes (.errorf "intent: invalid payload" []) data
      fun s => { m with payload := s }
  | 6 => readField consumeVarint (.errorf "intent: invalid timestamp" []) data
      fun v => { m with timestamp := v }
  | 7 => readField consumeFixed32 (.errorf "intent: invalid trust_score" []) data
      fun v => { m with trustScore := ⟨v⟩ }
  | 8 =>
    match consumeBytes data with
    | none => .error (.errorf "intent: invalid metadata entry" [])
    | some (b, n2) =>
      match decodeStrMapEntry b with
      | .error e => .error e
      | .ok (k, v) => .ok ({ m with metadata := m.metadata.insert k v }, n2)
  | _ => skipField num typ (.errorf "intent: unknown field %d" [.inr num]) data m

def decodeIntentMessage (data : Bytes) : Except GoError IntentMessage :=
  fieldLoop intentField (.errorf "intent: invalid tag" []) data IntentMessage.empty

def handshakeField (num typ : Nat) (data : Bytes) (m : HandshakeMessage) :
    Except GoError (HandshakeMessage × Nat) :=
  match num with
  | 1 => readField consumeBytes (.errorf "handshake: invalid agent_id" []) data
      fun s => { m with agentID := s }
  | 2 => readField consumeBytes (.errorf "handshake: invalid did" []) data fun s => { m with did := s }
  | 3 => readField consumeBytes (.errorf "handshake: invalid capability" []) data
      fun s => { m with capabilities := m.capabilities ++ [s] }
  | 4 => readField consumeBytes (.errorf "handshake: invalid version" []) data
      fun s => { m with version := s }
  | 5 => readField consumeVarint (.errorf "handshake: invalid timestamp" []) data
      fun v => { m with timestamp := v }
  | 6 => readField consumeBytes (.errorf "handshake: invalid public_key" []) data
      fun b => { m with publicKey := b }
  | 7 => readField consumeBytes (.errorf "handshake: invalid challenge" []) data
      fun b => { m with challenge := b }
  | 8 => readField consumeBytes (.errorf "handshake: invalid challenge_response" []) data
      fun b => { m with challengeResponse := b }
  | _ => skipField num typ (.errorf "handshake: unknown field %d" [.inr num]) data m

def decodeHandshakeMessage (data : Bytes) : Except GoError HandshakeMessage :=
  fieldLoop handshakeField (.errorf "handshake: invalid tag" []) data HandshakeMessage.empty

def negotiationField (num typ : Nat) (data : Bytes) (m : NegotiationResponse) :
    Except GoError (NegotiationResponse × Nat) :=
  match num with
  | 1 => readField consumeBytes (.errorf "negoresp: invalid request_id" []) data
      fun s => { m with requestID := s }
  | 2 => readField consumeBytes (.errorf "negoresp: invalid agent_id" []) data
      fun s => { m with agentID := s }
  | 3 => readField consumeVarint (.errorf "negoresp: invalid accepted" []) data
      fun v => { m with accepted := v != 0 }
  | 4 => readField consumeBytes (.errorf "negoresp: invalid workflow_step" []) data
      fun s => { m with workflowSteps := m.workflowSteps ++ [s] }
  | 5 => readField consumeBytes (.errorf "negoresp: invalid did" []) data fun s => { m with did := s }
  | 6 => readField consumeBytes (.errorf "negoresp: invalid response_vector" []) data
      fun b => { m with responseVector := decodePackedF32 b }
  | 7 => readField consumeVarint (.errorf "negoresp: invalid timestamp" []) data
      fun v => { m with timestamp := v }
  | 8 => readField consumeBytes (.errorf "negoresp: invalid reason" []) data
      fun s => { m with reason := s }
  | 9 => readField consumeFixed32 (.errorf "negoresp: invalid trust_delta" []) data
      fun v => { m with trustDelta := ⟨v⟩ }
  | _ => skipField num typ (.errorf "negoresp: unknown field %d" [.inr num]) data m

def decodeNegotiationResponse (data : Bytes) : Except GoError NegotiationResponse :=
  fieldLoop negotiationField (.errorf "negoresp: invalid tag" []) data NegotiationResponse.empty

theorem negotiationField_signature {num typ : Nat} {data : Bytes} {m m' : NegotiationResponse}
    {n : Nat} (read : negotiationField num typ data m = .ok (m', n)) : m'.signature = m.signature := by
  unfold negotiationField at read
  split at read
  case h_10 => rw [skipField_ok read]
  all_goals obtain ⟨v, rfl⟩ := readField_ok read; rfl

theorem decodeNegotiationResponse_signature {data : Bytes} {m : NegotiationResponse}
    (decoded : decodeNegotiationResponse data = .ok m) : m.signature = [] :=
  fieldLoop_invariant (fun m : NegotiationResponse => m.signature = [])
    (fun _ _ _ _ _ _ unsigned read => (negotiationField_signature read).trans unsigned) rfl decoded

def capabilityField (num typ : Nat) (data : Bytes) (m : CapabilityAnnouncement) :
    Except GoError (CapabilityAnnouncement × Nat) :=
  match num with
  | 1 => readField consumeBytes (.errorf "capability: invalid agent_id" []) data
      fun s => { m with agentID := s }
  | 2 => readField consumeBytes (.errorf "capability: invalid did" []) data fun s => { m with did := s }
  | 3 => readField consumeBytes (.errorf "capability: invalid capability" []) data
      fun s => { m with capabilities := m.capabilities ++ [s] }
  | 4 => readField consumeVarint (.errorf "capability: invalid timestamp" []) data
      fun v => { m with timestamp := v }
  | 5 => readField consumeVarint (.errorf "capability: invalid ttl" []) data fun v => { m with ttl := v }
  | _ => skipField num typ (.errorf "capability: unknown field %d" [.inr num]) data m

def decodeCapabilityAnnouncement (data : Bytes) : Except GoError CapabilityAnnouncement :=
  fieldLoop capabilityField (.errorf "capability: invalid tag" []) data CapabilityAnnouncement.empty

def bigEndian32 (v : BitVec 32) : Bytes :=
  [(v >>> 24).setWidth 8, (v >>> 16).setWidth 8, (v >>> 8).setWidth 8, v.setWidth 8]

def bigEndianUint32 (b : Bytes) : Nat :=
  (b.getD 0 0).toNat * 2 ^ 24 + (b.getD 1 0).toNat * 2 ^ 16 + (b.getD 2 0).toNat * 2 ^ 8 +
    (b.getD 3 0).toNat

/-- `Frame`: `[uint32 big-endian 1 + len(payload)][type][payload]`, the length cast to
`uint32` unchecked. -/
def frame (msgType : MessageType) (payload : Bytes) : Bytes :=
  bigEndian32 (BitVec.ofNat 32 (1 + payload.length)) ++ msgType :: payload

theorem bigEndianUint32_bigEndian32 (v : BitVec 32) (rest : Bytes) :
    bigEndianUint32 (bigEndian32 v ++ rest) = v.toNat := by
  have bound := v.isLt
  simp only [bigEndianUint32, bigEndian32, List.cons_append, List.getD_cons_zero,
    List.getD_cons_succ, BitVec.toNat_setWidth, BitVec.toNat_ushiftRight, Nat.shiftRight_eq_div_pow]
  omega

@[simp] theorem frame_length (msgType : MessageType) (payload : Bytes) :
    (frame msgType payload).length = 5 + payload.length := by
  simp only [frame, bigEndian32, List.length_append, List.length_cons, List.length_nil]
  omega

def slice (b : Bytes) (lo hi : Nat) : Option Bytes :=
  if lo ≤ hi ∧ hi ≤ b.length then some ((b.take hi).drop lo) else none

/-- `Unframe`; `none` is a panic. -/
def unframe (f : Bytes) : Option (Except GoError (MessageType × Bytes)) :=
  if f.length < 5 then some (.error (.errorf "frame too short (%d bytes)" [.inr f.length]))
  else if f.length < 4 + bigEndianUint32 f then
    some (.error (.errorf "frame incomplete: need %d bytes, have %d"
      [.inr (4 + bigEndianUint32 f), .inr f.length]))
  else (slice f 5 (4 + bigEndianUint32 f)).map fun payload => .ok (f.getD 4 0, payload)

inductive Message where
  | handshake (m : HandshakeMessage)
  | intent (m : IntentMessage)
  | negotiation (m : NegotiationResponse)

/-- `Decode`: no case for `MsgWorkflow` or `MsgCapability`. -/
def decode (msgType : MessageType) (data : Bytes) : Except GoError Message :=
  if msgType = msgHandshake then Message.handshake <$> decodeHandshakeMessage data
  else if msgType = msgIntent then Message.intent <$> decodeIntentMessage data
  else if msgType = msgNegotiation then Message.negotiation <$> decodeNegotiationResponse data
  else .error (.errorf "unknown message type: 0x%02x" [.inr msgType.toNat])

end Symplex.Core
