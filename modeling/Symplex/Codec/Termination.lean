import Symplex.Codec.Grammar

namespace Symplex.Core

open Protowire

section Budget

variable {σ : Type} (field : Nat → Nat → Bytes → σ → Except GoError (σ × Nat)) (tagError : GoError)

/-- The decode loop allowed `fuel` passes: `none` when the input is not used up by then. -/
def fieldLoopFor : Nat → Bytes → σ → Option (Except GoError σ)
  | 0, data, m => if data = [] then some (.ok m) else none
  | fuel + 1, data, m =>
    if data = [] then some (.ok m)
    else
      match consumeTag data with
      | none => some (.error tagError)
      | some (num, typ, n) =>
        match field num typ (data.drop n) m with
        | .error e => some (.error e)
        | .ok (m', n2) => fieldLoopFor fuel ((data.drop n).drop n2) m'

theorem fieldLoopFor_of_length_le : ∀ (fuel : Nat) (data : Bytes) (m : σ), data.length ≤ fuel →
    fieldLoopFor field tagError fuel data m = some (fieldLoop field tagError data m)
  | 0, data, m, short => by
    rw [List.length_eq_zero.mp (Nat.le_zero.mp short), fieldLoopFor, if_pos rfl, fieldLoop_nil]
  | fuel + 1, data, m, short => by
    by_cases empty : data = []
    · rw [fieldLoopFor, if_pos empty, empty, fieldLoop_nil]
    rw [fieldLoopFor, if_neg empty]
    cases tag : consumeTag data with
    | none => rw [fieldLoop_tag_error empty tag]
    | some read =>
      obtain ⟨num, typ, n⟩ := read
      dsimp only
      cases value : field num typ (data.drop n) m with
      | error e => rw [fieldLoop_field_error empty tag value]
      | ok r =>
        obtain ⟨m', n2⟩ := r
        have tagged := (consumeTag_consumed tag).1
        rw [fieldLoop_step empty tag value]
        exact fieldLoopFor_of_length_le fuel ((data.drop n).drop n2) m'
          (by simp only [List.length_drop]; omega)

def PassInBounds : Prop :=
  ∀ data m num typ n m' n2, consumeTag data = some (num, typ, n) →
    field num typ (data.drop n) m = .ok (m', n2) → 1 ≤ n ∧ n ≤ data.length ∧ n2 ≤ data.length - n

variable {field}

theorem FieldBounded.passInBounds (bounded : FieldBounded field) : PassInBounds field := by
  intro data m num typ n m' n2 tag read
  have tagged := consumeTag_consumed tag
  have value := bounded _ _ _ _ _ _ read
  rw [List.length_drop] at value
  exact ⟨tagged.1, tagged.2, value⟩

end Budget

theorem decodePackedF32_length : ∀ b : Bytes, (decodePackedF32 b).length = b.length / 4
  | _ :: _ :: _ :: _ :: rest => by
    simp only [decodePackedF32, List.length_cons, decodePackedF32_length rest]
    omega
  | [] | [_] | [_, _] | [_, _, _] => by simp [decodePackedF32]

/-- For every input, each decode loop stops within one pass per byte and returns the decoder's
value or error; each pass of the five tag loops reads a tag of at least one byte and slices
only inside what is left, and `decodePackedF32` makes one pass per four bytes. -/
theorem decode_loops_terminate (data : Bytes) :
    fieldLoopFor intentField (.errorf "intent: invalid tag" []) data.length data IntentMessage.empty =
        some (decodeIntentMessage data) ∧
      fieldLoopFor handshakeField (.errorf "handshake: invalid tag" []) data.length data
        HandshakeMessage.empty = some (decodeHandshakeMessage data) ∧
      fieldLoopFor negotiationField (.errorf "negoresp: invalid tag" []) data.length data
        NegotiationResponse.empty = some (decodeNegotiationResponse data) ∧
      fieldLoopFor capabilityField (.errorf "capability: invalid tag" []) data.length data
        CapabilityAnnouncement.empty = some (decodeCapabilityAnnouncement data) ∧
      fieldLoopFor strMapEntryField (.errorf "invalid map entry tag" []) data.length data ([], []) =
        some (decodeStrMapEntry data) ∧
      PassInBounds intentField ∧ PassInBounds handshakeField ∧ PassInBounds negotiationField ∧
      PassInBounds capabilityField ∧ PassInBounds strMapEntryField ∧
      (decodePackedF32 data).length = data.length / 4 :=
  ⟨fieldLoopFor_of_length_le _ _ _ _ _ le_rfl, fieldLoopFor_of_length_le _ _ _ _ _ le_rfl,
    fieldLoopFor_of_length_le _ _ _ _ _ le_rfl, fieldLoopFor_of_length_le _ _ _ _ _ le_rfl,
    fieldLoopFor_of_length_le _ _ _ _ _ le_rfl, intentField_bounded.passInBounds,
    handshakeField_bounded.passInBounds, negotiationField_bounded.passInBounds,
    capabilityField_bounded.passInBounds, strMapEntryField_bounded.passInBounds,
    decodePackedF32_length data⟩

end Symplex.Core
