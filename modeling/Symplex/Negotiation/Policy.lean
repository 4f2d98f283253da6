import Symplex.Core.Negotiation
import Symplex.Discovery.Registry

namespace Symplex.Core

variable (C : Crypto)

theorem missingCapabilities_eq_nil_iff (required available : List Bytes) :
    missingCapabilities required available = [] ↔ ∀ c ∈ required, c ∈ available := by
  simp [missingCapabilities_eq, List.filter_eq_nil_iff]

theorem defaultNegotiationHandler_eq (agent : Agent) (intent : IntentMessage) (now : BitVec 64) :
    defaultNegotiationHandler C agent intent now =
      .ok { defaultResponse agent intent now with signature :=
        match agent.did.privKey with
        | some k => C.sign k ((defaultResponse agent intent now).requestID ++ (defaultResponse agent intent now).reason)
        | none => [] } := by
  unfold defaultNegotiationHandler DID.sign
  cases agent.did.privKey <;> rfl

theorem defaultResponse_accepted (agent : Agent) (intent : IntentMessage) (now : BitVec 64) :
    (defaultResponse agent intent now).accepted = true ↔ ∀ c ∈ intent.capabilities, c ∈ agent.capabilities := by
  simp [defaultResponse, missingCapabilities_eq_nil_iff]

/-- The three capability checks agree on every pair of lists: `hasAll` holds exactly when no
tag is missing, `missingCapabilities` is the absent list of `CapabilitySetDiff`, both are the
required tags not available, in order and with repetitions, and present and absent tags together
are the required ones. So a profile `FindByCapability` returns, whose tags are its agent's, is
one whose default handler accepts an intent requiring exactly those tags. -/
theorem capability_checks_agree (required available : List Bytes) :
    let diff := capabilitySetDiff required available
    (hasAll available required = true ↔ missingCapabilities required available = []) ∧
      (missingCapabilities required available = [] ↔ diff.2 = []) ∧
      missingCapabilities required available = diff.2 ∧
      diff.2 = required.filter (fun c => c ∉ available) ∧
      (diff.1 ++ diff.2).Perm required ∧
      ∀ (r : DiscoveryRegistry) (t : Int) (p : AgentProfile) (agent : Agent) (intent : IntentMessage)
        (now : BitVec 64), p ∈ r.findByCapability t required → p.capabilities = agent.capabilities →
        intent.capabilities = required →
        ∃ resp, defaultNegotiationHandler C agent intent now = .ok resp ∧ resp.accepted = true := by
  intro diff
  have split : diff = (required.filter fun c => c ∈ available, required.filter fun c => c ∉ available) :=
    capabilitySetDiff_eq required available
  refine ⟨by rw [hasAll_iff, missingCapabilities_eq_nil_iff], by rw [missingCapabilities_eq, split],
    by rw [missingCapabilities_eq, split], by rw [split], ?_, ?_⟩
  · simpa [split] using List.filter_append_perm (fun c => decide (c ∈ available)) required
  · intro r t p agent intent now found same asked
    obtain ⟨-, e, -, -, tags, rfl⟩ := mem_findByCapability.mp found
    refine ⟨_, defaultNegotiationHandler_eq C agent intent now, (defaultResponse_accepted agent intent now).mpr ?_⟩
    rw [asked, ← same]
    exact tags

/-- `DefaultNegotiationHandler(agent)` answers every intent. The response names the request and
is accepted exactly when every required tag is one of the agent's. An accepted response carries
the workflow and the reward `float32(0.05)`; a rejected one no steps, the absent tags in order and
with repetitions, and the penalty `float32(-0.02)`. Its vector is the intent's negated. It is
signed over `RequestID ‖ Reason` only when the agent's DID holds a private key, and is otherwise
unsigned. -/
theorem defaultNegotiationHandler_response (agent : Agent) (intent : IntentMessage) (now : BitVec 64) :
    ∃ r, defaultNegotiationHandler C agent intent now = .ok r ∧ r.requestID = intent.id ∧
      (r.accepted = true ↔ ∀ c ∈ intent.capabilities, c ∈ agent.capabilities) ∧
      (r.accepted = true → r.workflowSteps = [ascii "parse_intent:" ++ intent.id] ++
          intent.capabilities.map (ascii "execute:" ++ ·) ++ [ascii "return_result:" ++ intent.id] ∧
        r.trustDelta = ⟨0x3D4CCCCD⟩) ∧
      (r.accepted = false → r.workflowSteps = [] ∧
        r.reason = ascii "missing capabilities: " ++
          formatList (intent.capabilities.filter fun c => c ∉ agent.capabilities) ∧
        r.trustDelta = ⟨0xBCA3D70A⟩) ∧
      r.responseVector = (if intent.intentVector = [] then [] else intent.intentVector.map Float32.neg) ∧
      r.signature = match agent.did.privKey with
        | some k => C.sign k (r.requestID ++ r.reason)
        | none => [] := by
  refine ⟨_, defaultNegotiationHandler_eq C agent intent now, rfl, defaultResponse_accepted agent intent now,
    fun accepted => ?_, fun rejected => ?_, rfl, rfl⟩
  · simp only [defaultResponse, decide_eq_true_eq] at accepted ⊢
    simp [accepted, buildWorkflow, trustDelta]
  · have missing := mt (defaultResponse_accepted agent intent now).mpr (Bool.eq_false_iff.mp rejected)
    simp [defaultResponse, trustDelta, missingCapabilities_eq_nil_iff, missing, missingCapabilities_eq]

/-- An agent whose DID holds no private key answers unsigned: its DID signs nothing, so the
response carries no signature of it over `RequestID ‖ Reason`. -/
theorem unkeyed_agent_answers_unsigned :
    ¬ ∀ (C : Crypto) (agent : Agent) (intent : IntentMessage) (now : BitVec 64) (r : NegotiationResponse),
      defaultNegotiationHandler C agent intent now = .ok r →
        agent.did.sign C (r.requestID ++ r.reason) = .ok r.signature := by
  intro signed
  cases signed blankCrypto ⟨[], ⟨ascii "symplex", [], none, none⟩, [], [], []⟩ IntentMessage.empty 0 _ rfl

end Symplex.Core
