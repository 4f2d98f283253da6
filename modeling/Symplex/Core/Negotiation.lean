import Symplex.Core.Handshake
import Symplex.Float64
import Symplex.PdqSort

namespace Symplex.Core

variable (C : Crypto)

/-- `missingCapabilities`: the loop over `required` appending each tag the set lacks. -/
def missingCapabilities (required available : List Bytes) : List Bytes :=
  let set := capabilitySet available
  required.foldl (fun missing c => if (set.lookup c).isSome then missing else missing ++ [c]) []

theorem missingCapabilities_eq (required available : List Bytes) :
    missingCapabilities required available = required.filter fun c => c ∉ available := by
  rw [missingCapabilities, foldl_append_unless]
  simp

def buildWorkflow (intent : IntentMessage) : List Bytes :=
  [ascii "parse_intent:" ++ intent.id] ++ intent.capabilities.map (ascii "execute:" ++ ·) ++
    [ascii "return_result:" ++ intent.id]

/-- `reflectVector`: the pointwise negation, `nil` for an empty vector. -/
def reflectVector (v : List Float32) : List Float32 := if v = [] then [] else v.map Float32.neg

/-- `trustDelta`: `float32(0.05)` on accept and `float32(-0.02)` on reject. -/
def trustDelta (accepted : Bool) : Float32 := if accepted then ⟨0x3D4CCCCD⟩ else ⟨0xBCA3D70A⟩

def formatList (ss : List Bytes) : Bytes := ascii "[" ++ (ss.intersperse (ascii " ")).flatten ++ ascii "]"

def defaultResponse (agent : Agent) (intent : IntentMessage) (now : BitVec 64) : NegotiationResponse :=
  let missing := missingCapabilities intent.capabilities agent.capabilities
  let accepted := missing.length = 0
  let reason := if accepted then ascii "all capabilities available"
    else ascii "missing capabilities: " ++ formatList missing
  { requestID := intent.id, agentID := agent.id, accepted := accepted,
    workflowSteps := if accepted then buildWorkflow intent else [], did := agent.did.string,
    responseVector := reflectVector intent.intentVector, timestamp := now, reason := reason,
    trustDelta := trustDelta accepted, signature := [] }

/-- The closure `DefaultNegotiationHandler(agent)` returns, applied to `intent` at time `now`;
its error is always `nil`. A signing failure leaves `Signature` empty. -/
def defaultNegotiationHandler (agent : Agent) (intent : IntentMessage) (now : BitVec 64) :
    Except GoError NegotiationResponse :=
  let resp := defaultResponse agent intent now
  match agent.did.sign C (resp.requestID ++ resp.reason) with
  | .ok sig => .ok { resp with signature := sig }
  | .error _ => .ok resp

/-- `randomID`: sixteen random bytes, hex encoded. -/
def randomID (random : Except GoError Bytes) : Except GoError Bytes :=
  match random with
  | .error e => .error (.wrapf "randomID: %w" [] e)
  | .ok b => .ok (hexEncode b)

def createIntent (sender : Agent) (intentVector : List Float32) (requiredCapabilities : List Bytes)
    (payload : Bytes) (random : Except GoError Bytes) (now : BitVec 64) : Except GoError IntentMessage :=
  match randomID random with
  | .error e => .error e
  | .ok id =>
    let intent : IntentMessage :=
      { id := id, intentVector := intentVector, capabilities := requiredCapabilities,
        did := sender.did.string, payload := payload, timestamp := now, trustScore := ⟨0x3F000000⟩,
        metadata := (∅ : GoMap Bytes Bytes).insert (ascii "protocol") protocolVersion, signature := [] }
    match sender.did.sign C (intent.id ++ intent.payload) with
    | .error e => .error (.wrapf "CreateIntent: sign: %w" [] e)
    | .ok sig => .ok { intent with signature := sig }

/-- `CosineSimilarity(a, b)`: `0` unless the lengths agree and are not zero; otherwise the loop
sums `dot`, `normA` and `normB` in `float64`, and a zero norm gives `0`. -/
def cosineSimilarity (a b : List Float32) : Float64 :=
  if a.length ≠ b.length ∨ a.length = 0 then Float64.zero
  else
    let sums := (a.zip b).foldl (fun (sums : Float64 × Float64 × Float64) (x : Float32 × Float32) =>
        let ax := Float64.ofFloat32 x.1
        let bx := Float64.ofFloat32 x.2
        (sums.1.add (ax.mul bx), sums.2.1.add (ax.mul ax), sums.2.2.add (bx.mul bx)))
      (Float64.zero, Float64.zero, Float64.zero)
    if sums.2.1.beq Float64.zero || sums.2.2.beq Float64.zero then Float64.zero
    else sums.1.div (sums.2.1.sqrt.mul sums.2.2.sqrt)

theorem cosineSimilarity_nil_right (a : List Float32) : cosineSimilarity a [] = Float64.zero := by
  unfold cosineSimilarity
  rw [if_pos (by rw [List.length_nil]; omega)]

/-- `RankCandidates`: `sort.Slice` of the candidates paired with their scores, under
`rs[i].score > rs[j].score`. -/
def rankCandidates (intentVector : List Float32) (candidates : List AgentProfile) : List AgentProfile :=
  (PdqSort.sortSlice (fun x y : AgentProfile × Float64 => y.2.lt x.2)
    (candidates.map fun c => (c, cosineSimilarity intentVector c.embeddingVector))).map (·.1)

theorem rankCandidates_perm (intentVector : List Float32) (candidates : List AgentProfile) :
    (rankCandidates intentVector candidates).Perm candidates := by
  have sorted := (PdqSort.sortSlice_perm (fun x y : AgentProfile × Float64 => y.2.lt x.2)
    (candidates.map fun c => (c, cosineSimilarity intentVector c.embeddingVector))).map (·.1)
  rwa [List.map_map, List.map_id''] at sorted
  intro c
  rfl

def verifyIntentSignature (intent : IntentMessage) (pubKey : Bytes) : Bool :=
  if intent.signature.length = 0 then true
  else
    match didFromPublicKey C pubKey with
    | .error _ => false
    | .ok d => d.verify C (intent.id ++ intent.payload) intent.signature

def verifyResponseSignature (resp : NegotiationResponse) (pubKey : Bytes) : Bool :=
  if resp.signature.length = 0 then true
  else
    match didFromPublicKey C pubKey with
    | .error _ => false
    | .ok d => d.verify C (resp.requestID ++ resp.reason) resp.signature

theorem verifyIntentSignature_unsigned {intent : IntentMessage} (pubKey : Bytes)
    (unsigned : intent.signature = []) : verifyIntentSignature C intent pubKey = true := by
  simp [verifyIntentSignature, unsigned]

theorem verifyResponseSignature_unsigned {resp : NegotiationResponse} (pubKey : Bytes)
    (unsigned : resp.signature = []) : verifyResponseSignature C resp pubKey = true := by
  simp [verifyResponseSignature, unsigned]

theorem verifyIntentSignature_signed {intent : IntentMessage} {pubKey : Bytes}
    (verified : verifyIntentSignature C intent pubKey = true) (signed : intent.signature ≠ []) :
    C.verify pubKey (intent.id ++ intent.payload) intent.signature = true := by
  by_cases size : pubKey.length = publicKeySize
  · simpa [verifyIntentSignature, didFromPublicKey, size, signed, didFromKey, DID.verify] using verified
  · simp [verifyIntentSignature, didFromPublicKey, size, signed] at verified

/-- A `NegotiationHandler`: the response to an intent, `none` for a nil pointer, or an error; `ε`
is what the handler reads besides the intent (the clock, for `DefaultNegotiationHandler`). -/
abbrev NegotiationHandler (ε : Type) := IntentMessage → ε → Except GoError (Option NegotiationResponse)

/-- `NegotiationBus`: the handlers by AgentID. Its `sync.RWMutex` makes each call atomic. -/
structure NegotiationBus (ε : Type) where
  handlers : GoMap Bytes (NegotiationHandler ε)

def newNegotiationBus (ε : Type) : NegotiationBus ε := ⟨∅⟩

def NegotiationBus.register {ε : Type} (b : NegotiationBus ε) (agentID : Bytes) (h : NegotiationHandler ε) :
    NegotiationBus ε :=
  ⟨b.handlers.insert agentID h⟩

def NegotiationBus.negotiate {ε : Type} (b : NegotiationBus ε) (targetAgentID : Bytes) (intent : IntentMessage)
    (env : ε) : Except GoError (Option NegotiationResponse) :=
  match b.handlers.lookup targetAgentID with
  | none => .error (.errorf "negotiation: no handler for agent %q" [.inl targetAgentID])
  | some h => h intent env

def NegotiationBus.registerAll {ε : Type} (b : NegotiationBus ε) (regs : List (Bytes × NegotiationHandler ε)) :
    NegotiationBus ε :=
  regs.foldl (fun b r => b.register r.1 r.2) b

theorem lookup_registerAll {ε : Type} (b : NegotiationBus ε) (regs : List (Bytes × NegotiationHandler ε))
    (target : Bytes) :
    (b.registerAll regs).handlers.lookup target =
      ((regs.reverse.find? (·.1 = target)).map (·.2)).or (b.handlers.lookup target) := by
  induction regs using List.reverseRecOn with
  | nil => rfl
  | append_singleton regs r ih =>
    rw [NegotiationBus.registerAll, List.foldl_append, List.reverse_append]
    by_cases named : r.1 = target
    · simp [NegotiationBus.register, named]
    · simp only [List.foldl_cons, List.foldl_nil, NegotiationBus.register, List.reverse_cons, List.reverse_nil,
        List.nil_append, List.singleton_append, List.find?_cons, named, decide_False]
      rw [AList.lookup_insert_ne (Ne.symm named)]
      exact ih

theorem negotiate_registerAll {ε : Type} (regs : List (Bytes × NegotiationHandler ε)) (target : Bytes)
    (intent : IntentMessage) (env : ε) :
    ((newNegotiationBus ε).registerAll regs).negotiate target intent env =
      match regs.reverse.find? (·.1 = target) with
      | none => .error (.errorf "negotiation: no handler for agent %q" [.inl target])
      | some r => r.2 intent env := by
  rw [NegotiationBus.negotiate, lookup_registerAll]
  cases regs.reverse.find? (·.1 = target) <;> rfl

end Symplex.Core
