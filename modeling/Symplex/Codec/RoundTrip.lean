import Symplex.Codec.Records
import Symplex.Core.Negotiation

namespace Symplex.Core

variable (C : Crypto)

/-- `Encode` writes no `Signature` and the decoders start from an unsigned message, so a
signature that fails under a key is gone after one trip over the wire, where the empty
signature passes. -/
theorem intent_signature_lost_on_wire :
    verifyIntentSignature C { IntentMessage.empty with signature := [1] } [] = false ∧
      ∃ d, decodeIntentMessage ({ IntentMessage.empty with signature := [1] } : IntentMessage).encode =
          .ok d ∧ verifyIntentSignature C d [] = true := by
  have empty : ({ IntentMessage.empty with signature := [1] } : IntentMessage).encode = [] := by
    decide
  refine ⟨by simp [verifyIntentSignature, didFromPublicKey, publicKeySize], IntentMessage.empty, ?_,
    verifyIntentSignature_unsigned C [] rfl⟩
  rw [empty, decodeIntentMessage, fieldLoop_nil]

open Protowire

theorem decodeCapabilityAnnouncement_encode (m : CapabilityAnnouncement)
    (fits : m.encode.length < 2 ^ 64) : decodeCapabilityAnnouncement m.encode = .ok m := by
  simp only [CapabilityAnnouncement.encode, encStr, List.length_append] at fits
  have reads : Reads capabilityField (.errorf "capability: invalid tag" []) m.encode
      CapabilityAnnouncement.empty m :=
    ((((Reads.bytes 1 (by decide) (by decide) m.agentID (fun m s => { m with agentID := s })
        (fun _ _ => rfl) (fun e => by rw [e]; rfl) (by omega)).append
      (Reads.bytes 2 (by decide) (by decide) m.did (fun m s => { m with did := s })
        (fun _ _ => rfl) (fun e => by rw [e]; rfl) (by omega))).append
      (Reads.strs 3 (by decide) (by decide) m.capabilities (·.capabilities)
        (fun m l => { m with capabilities := l })
        (fun _ _ => rfl) (fun _ _ => rfl) (fun _ _ _ => rfl) (fun _ => rfl) _ (by omega))).append
      (Reads.i64 4 (by decide) (by decide) m.timestamp (fun m v => { m with timestamp := v })
        (fun _ _ => rfl) (fun e => by rw [e]; rfl))).append
      (Reads.i64 5 (by decide) (by decide) m.ttl (fun m v => { m with ttl := v })
        (fun _ _ => rfl) (fun e => by rw [e]; rfl))
  exact reads.decode

theorem decodeHandshakeMessage_encode (m : HandshakeMessage) (fits : m.encode.length < 2 ^ 64) :
    decodeHandshakeMessage m.encode = .ok m := by
  simp only [HandshakeMessage.encode, encStr, List.length_append] at fits
  have reads : Reads handshakeField (.errorf "handshake: invalid tag" []) m.encode
      HandshakeMessage.empty m :=
    (((((((Reads.bytes 1 (by decide) (by decide) m.agentID (fun m s => { m with agentID := s })
        (fun _ _ => rfl) (fun e => by rw [e]; rfl) (by omega)).append
      (Reads.bytes 2 (by decide) (by decide) m.did (fun m s => { m with did := s })
        (fun _ _ => rfl) (fun e => by rw [e]; rfl) (by omega))).append
      (Reads.strs 3 (by decide) (by decide) m.capabilities (·.capabilities)
        (fun m l => { m with capabilities := l })
        (fun _ _ => rfl) (fun _ _ => rfl) (fun _ _ _ => rfl) (fun _ => rfl) _ (by omega))).append
      (Reads.bytes 4 (by decide) (by decide) m.version (fun m s => { m with version := s })
        (fun _ _ => rfl) (fun e => by rw [e]; rfl) (by omega))).append
      (Reads.i64 5 (by decide) (by decide) m.timestamp (fun m v => { m with timestamp := v })
        (fun _ _ => rfl) (fun e => by rw [e]; rfl))).append
      (Reads.bytes 6 (by decide) (by decide) m.publicKey (fun m b => { m with publicKey := b })
        (fun _ _ => rfl) (fun e => by rw [e]; rfl) (by omega))).append
      (Reads.bytes 7 (by decide) (by decide) m.challenge (fun m b => { m with challenge := b })
        (fun _ _ => rfl) (fun e => by rw [e]; rfl) (by omega))).append
      (Reads.bytes 8 (by decide) (by decide) m.challengeResponse
        (fun m b => { m with challengeResponse := b })
        (fun _ _ => rfl) (fun e => by rw [e]; rfl) (by omega))
  exact reads.decode

theorem decodeNegotiationResponse_encode (m : NegotiationResponse)
    (fits : m.encode.length < 2 ^ 64) :
    decodeNegotiationResponse m.encode =
      .ok { m with trustDelta := wireFloat m.trustDelta, signature := [] } := by
  simp only [NegotiationResponse.encode, encStr, List.length_append] at fits
  have reads : Reads negotiationField (.errorf "negoresp: invalid tag" []) m.encode
      NegotiationResponse.empty { m with trustDelta := wireFloat m.trustDelta, signature := [] } :=
    ((((((((Reads.bytes 1 (by decide) (by decide) m.requestID (fun m s => { m with requestID := s })
        (fun _ _ => rfl) (fun e => by rw [e]; rfl) (by omega)).append
      (Reads.bytes 2 (by decide) (by decide) m.agentID (fun m s => { m with agentID := s })
        (fun _ _ => rfl) (fun e => by rw [e]; rfl) (by omega))).append
      (Reads.boolean 3 (by decide) (by decide) m.accepted (fun m a => { m with accepted := a })
        (fun _ _ => rfl) rfl)).append
      (Reads.strs 4 (by decide) (by decide) m.workflowSteps (·.workflowSteps)
        (fun m l => { m with workflowSteps := l })
        (fun _ _ => rfl) (fun _ _ => rfl) (fun _ _ _ => rfl) (fun _ => rfl) _ (by omega))).append
      (Reads.bytes 5 (by decide) (by decide) m.did (fun m s => { m with did := s })
        (fun _ _ => rfl) (fun e => by rw [e]; rfl) (by omega))).append
      (Reads.packedF32 6 (by decide) (by decide) m.responseVector
        (fun m fs => { m with responseVector := fs })
        (fun _ _ => rfl) (fun e => by rw [e]; rfl) (by omega))).append
      (Reads.i64 7 (by decide) (by decide) m.timestamp (fun m v => { m with timestamp := v })
        (fun _ _ => rfl) (fun e => by rw [e]; rfl))).append
      (Reads.bytes 8 (by decide) (by decide) m.reason (fun m s => { m with reason := s })
        (fun _ _ => rfl) (fun e => by rw [e]; rfl) (by omega))).append
      (Reads.f32 9 (by decide) (by decide) m.trustDelta (fun m v => { m with trustDelta := v })
        (fun _ _ => rfl) rfl)
  exact reads.decode

theorem decodeStrMapEntry_strMapEntry {k v : Bytes} (keyFits : k.length < 2 ^ 64)
    (valueFits : v.length < 2 ^ 64) : decodeStrMapEntry (strMapEntry k v) = .ok (k, v) := by
  have split : strMapEntry k v = (appendTag 1 2 ++ appendBytes k) ++ (appendTag 2 2 ++ appendBytes v) := by
    simp [strMapEntry]
  have key : Reads strMapEntryField (.errorf "invalid map entry tag" []) (appendTag 1 2 ++ appendBytes k)
      ([], []) (k, []) :=
    Reads.record (by decide) (by decide) (by decide) fun rest =>
      readField_append (consumeBytes_appendBytes keyFits rest)
  have value : Reads strMapEntryField (.errorf "invalid map entry tag" []) (appendTag 2 2 ++ appendBytes v)
      (k, []) (k, v) :=
    Reads.record (by decide) (by decide) (by decide) fun rest =>
      readField_append (consumeBytes_appendBytes valueFits rest)
  have reads := key.append value
  rw [← split] at reads
  exact reads.decode

theorem Reads.strMap {tagError : GoError} (entries : List (Sigma fun _ : Bytes => Bytes))
    (m : IntentMessage)
    (fits : (entries.flatMap fun e => appendTag 8 2 ++ appendBytes (strMapEntry e.1 e.2)).length <
      2 ^ 64) :
    Reads intentField tagError
      (entries.flatMap fun e => appendTag 8 2 ++ appendBytes (strMapEntry e.1 e.2)) m
      { m with metadata := entries.foldl (fun acc e => acc.insert e.1 e.2) m.metadata } := by
  induction entries generalizing m with
  | nil => exact Reads.nil m
  | cons e entries ih =>
    obtain ⟨k, v⟩ := e
    simp only [List.flatMap_cons, List.length_append] at fits ⊢
    have entryFits : (strMapEntry k v).length < 2 ^ 64 := by
      simp only [appendBytes, List.length_append] at fits; omega
    have keyFits : k.length < 2 ^ 64 := by
      simp only [strMapEntry, appendBytes, List.length_append] at entryFits; omega
    have valueFits : v.length < 2 ^ 64 := by
      simp only [strMapEntry, appendBytes, List.length_append] at entryFits; omega
    have head : Reads intentField tagError (appendTag 8 2 ++ appendBytes (strMapEntry k v)) m
        { m with metadata := m.metadata.insert k v } :=
      Reads.record (by decide) (by decide) (by decide) fun rest => by
        simp only [intentField, consumeBytes_appendBytes entryFits rest,
          decodeStrMapEntry_strMapEntry keyFits valueFits]
    exact head.append (ih _ (by omega))

theorem lookup_foldl_insert {l : List (Sigma fun _ : Bytes => Bytes)} (nodup : l.NodupKeys)
    (acc : GoMap Bytes Bytes) (k : Bytes) :
    (l.foldl (fun acc e => acc.insert e.1 e.2) acc).lookup k = (l.dlookup k).or (acc.lookup k) := by
  induction l generalizing acc with
  | nil => rfl
  | cons e l ih =>
    obtain ⟨key, value⟩ := e
    obtain ⟨fresh, nodup⟩ := List.nodupKeys_cons.mp nodup
    rw [List.foldl_cons, ih nodup]
    by_cases same : k = key
    · subst same
      rw [List.dlookup_eq_none.mpr fresh, AList.lookup_insert, List.dlookup_cons_eq]
      rfl
    · rw [AList.lookup_insert_ne same, List.dlookup_cons_ne _ _ same]

theorem decodeIntentMessage_encode (m : IntentMessage) (fits : m.encode.length < 2 ^ 64) :
    ∃ d, decodeIntentMessage m.encode = .ok d ∧
      { d with metadata := m.metadata } =
        { m with trustScore := wireFloat m.trustScore, signature := [] } ∧
      ∀ k, d.metadata.lookup k = m.metadata.lookup k := by
  simp only [IntentMessage.encode, encStr, encStrMap, List.length_append] at fits
  have front : Reads intentField (.errorf "intent: invalid tag" [])
      (encStr 1 m.id ++ encPackedF32 2 m.intentVector ++ encStrs 3 m.capabilities ++ encStr 4 m.did ++
        encStr 5 m.payload ++ encI64 6 m.timestamp ++ encF32 7 m.trustScore) IntentMessage.empty
      { m with trustScore := wireFloat m.trustScore, signature := [], metadata := ∅ } :=
    ((((((Reads.bytes 1 (by decide) (by decide) m.id (fun m s => { m with id := s })
        (fun _ _ => rfl) (fun e => by rw [e]; rfl) (by omega)).append
      (Reads.packedF32 2 (by decide) (by decide) m.intentVector
        (fun m fs => { m with intentVector := fs })
        (fun _ _ => rfl) (fun e => by rw [e]; rfl) (by omega))).append
      (Reads.strs 3 (by decide) (by decide) m.capabilities (·.capabilities)
        (fun m l => { m with capabilities := l })
        (fun _ _ => rfl) (fun _ _ => rfl) (fun _ _ _ => rfl) (fun _ => rfl) _ (by omega))).append
      (Reads.bytes 4 (by decide) (by decide) m.did (fun m s => { m with did := s })
        (fun _ _ => rfl) (fun e => by rw [e]; rfl) (by omega))).append
      (Reads.bytes 5 (by decide) (by decide) m.payload (fun m s => { m with payload := s })
        (fun _ _ => rfl) (fun e => by rw [e]; rfl) (by omega))).append
      (Reads.i64 6 (by decide) (by decide) m.timestamp (fun m v => { m with timestamp := v })
        (fun _ _ => rfl) (fun e => by rw [e]; rfl))).append
      (Reads.f32 7 (by decide) (by decide) m.trustScore (fun m v => { m with trustScore := v })
        (fun _ _ => rfl) rfl)
  have reads := front.append (Reads.strMap m.metadata.entries _ (by omega))
  refine ⟨_, reads.decode, rfl, fun k => ?_⟩
  rw [lookup_foldl_insert m.metadata.nodupKeys]
  exact Option.or_none

/-- Each message's decoder reads its `Encode` back: exactly for handshakes and announcements;
for negotiation responses and intents up to the omitted signature and a zero scalar float of
either sign reading as `+0`, and for intents with the metadata as the same key-value mapping.
Every byte string Go holds is shorter than `2 ^ 64`. -/
theorem messages_round_trip :
    (∀ m : HandshakeMessage, m.encode.length < 2 ^ 64 → decodeHandshakeMessage m.encode = .ok m) ∧
    (∀ m : IntentMessage, m.encode.length < 2 ^ 64 →
      ∃ d, decodeIntentMessage m.encode = .ok d ∧
        { d with metadata := m.metadata } =
          { m with trustScore := wireFloat m.trustScore, signature := [] } ∧
        ∀ k, d.metadata.lookup k = m.metadata.lookup k) ∧
    (∀ m : NegotiationResponse, m.encode.length < 2 ^ 64 →
      decodeNegotiationResponse m.encode =
        .ok { m with trustDelta := wireFloat m.trustDelta, signature := [] }) ∧
    (∀ m : CapabilityAnnouncement, m.encode.length < 2 ^ 64 →
      decodeCapabilityAnnouncement m.encode = .ok m) :=
  ⟨decodeHandshakeMessage_encode, decodeIntentMessage_encode, decodeNegotiationResponse_encode,
    decodeCapabilityAnnouncement_encode⟩

def edgeIntent : IntentMessage :=
  { IntentMessage.empty with intentVector := [Float32.defaultNaN], capabilities := [[]], timestamp := -1 }

theorem messages_round_trip_edge_intent :
    edgeIntent.encode.length < 2 ^ 64 ∧ ∃ d, decodeIntentMessage edgeIntent.encode = .ok d ∧
      { d with metadata := edgeIntent.metadata } =
        { edgeIntent with trustScore := wireFloat edgeIntent.trustScore, signature := [] } ∧
      ∀ k, d.metadata.lookup k = edgeIntent.metadata.lookup k :=
  have fits : edgeIntent.encode.length < 2 ^ 64 :=
    Nat.lt_of_le_of_lt (IntentMessage.encode_length_le_fields edgeIntent) (by decide)
  ⟨fits, messages_round_trip.2.1 _ fits⟩

end Symplex.Core
