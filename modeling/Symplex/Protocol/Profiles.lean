import Symplex.Protocol.Network
import Symplex.P2p.Orchestrator

namespace Symplex.Core

def AgentProfile.Bare (p : AgentProfile) : Prop := p.embeddingVector = [] ∧ p.publicKey = []

end Symplex.Core

namespace Symplex.P2p

open Core

variable (C : Crypto)

theorem handshakeProfile_bare (m : HandshakeMessage) : (handshakeProfile m).Bare := ⟨rfl, rfl⟩

def AgentHost.BareProfiles (h : AgentHost) : Prop :=
  (∀ e ∈ h.known.entries, e.2.Bare) ∧ ∀ e ∈ h.discovery.entries.entries, e.2.profile.Bare

theorem forall_mem_insert {κ ν : Type} [DecidableEq κ] {P : ν → Prop} {m : GoMap κ ν}
    (all : ∀ e ∈ m.entries, P e.2) {k : κ} {v : ν} (pv : P v) : ∀ e ∈ (m.insert k v).entries, P e.2 := by
  intro e mem
  rw [AList.insert_entries] at mem
  rcases List.mem_cons.mp mem with rfl | old
  · exact pv
  · exact all e ((List.kerase_sublist _ _).subset old)

theorem newHost_bareProfiles (agent : Agent) : (newHost agent).BareProfiles :=
  ⟨fun _ mem => (nomatch mem), fun _ mem => nomatch mem⟩

theorem AgentHost.BareProfiles.cache {h : AgentHost} (bare : h.BareProfiles) (peer : PeerId)
    (m : HandshakeMessage) (t : Int) :
    ({ h with known := h.known.insert peer (handshakeProfile m),
              discovery := h.discovery.announce (handshakeProfile m) 0 t } : AgentHost).BareProfiles :=
  ⟨forall_mem_insert bare.1 (handshakeProfile_bare m),
    forall_mem_insert (P := fun e : RegistryEntry => e.profile.Bare) bare.2 (handshakeProfile_bare m)⟩

theorem handleStream_bareProfiles {h : AgentHost} (bare : h.BareProfiles) (remote : PeerId) (input : Bytes)
    (nonce : Except GoError Nonce) (now : BitVec 64) : (handleStream C h remote input nonce now).1.BareProfiles := by
  unfold handleStream handleIncomingHandshake handleIncomingIntent handleIncomingCapability
  split
  · exact bare
  · split_ifs <;> (try split) <;> (try split) <;> first | exact bare | exact bare.cache _ _ _

theorem handshakeRecv_bareProfiles {h : AgentHost} (bare : h.BareProfiles) (peer : PeerId)
    (ours : HandshakeMessage) (reply : Bytes → Bytes) : (h.handshakeRecv C peer ours reply).2.BareProfiles := by
  rcases handshakeRecv_cases C h peer ours reply with ⟨e, failed⟩ | ⟨_, resp, _, _, _, accepted⟩
  · rw [failed]
    exact bare
  · rw [accepted]
    exact bare.cache peer resp 0

theorem sendIntent_bareProfiles {h : AgentHost} (bare : h.BareProfiles) (intent : IntentMessage)
    (io : StreamIO) (reply : Bytes → Bytes) : (h.sendIntent intent io reply).2.BareProfiles := by
  unfold AgentHost.sendIntent
  split
  · exact bare
  · split
    · exact bare
    · split
      · exact bare
      · split_ifs
        · exact bare
        · split <;> exact bare

theorem rankCandidates_unembedded {candidates : List AgentProfile}
    (unembedded : ∀ c ∈ candidates, c.embeddingVector = []) (v w : List Float32) :
    rankCandidates v candidates = rankCandidates w candidates := by
  unfold rankCandidates
  congr 2
  refine List.map_congr_left fun c mem => ?_
  rw [unembedded c mem, cosineSimilarity_nil_right, cosineSimilarity_nil_right]

theorem get_zero_congr {α : Type} {l l' : List α} (p : 0 < l.length) (p' : 0 < l'.length) (same : l = l') :
    l.get ⟨0, p⟩ = l'.get ⟨0, p'⟩ := by
  subst same
  rfl

theorem chooseTarget_bareProfiles {h : AgentHost} (bare : h.BareProfiles) (now : Int) (step : WorkflowStep)
    (v : List Float32) :
    (⟨h⟩ : WorkflowOrchestrator).chooseTarget now { step with intentVector := v } =
      (⟨h⟩ : WorkflowOrchestrator).chooseTarget now step := by
  have unembedded : ∀ c ∈ h.discovery.findByCapability now [step.capability], c.embeddingVector = [] := by
    intro c mem
    obtain ⟨k, e, found, -, -, rfl⟩ := mem_findByCapability.mp mem
    exact (bare.2 ⟨k, e⟩ (AList.mem_lookup_iff.mp found)).1
  simp only [WorkflowOrchestrator.chooseTarget]
  split
  · rfl
  · rw [get_zero_congr _ _ (rankCandidates_unembedded unembedded v step.intentVector)]

end Symplex.P2p

namespace Symplex.Protocol

open Core P2p

variable (C : Crypto)

theorem Node.step_bareProfiles {n : Node} (bare : n.host.BareProfiles) (e : Event) :
    (n.step C e).host.BareProfiles := by
  cases e with
  | inbound remote input nonce now => exact handleStream_bareProfiles C bare remote input nonce now
  | handshakeSend peer nonce now io =>
    show (n.react C _).host.BareProfiles
    dsimp only [Node.react]
    split
    · exact bare
    · exact bare
  | handshakeRecv peer answer =>
    show (n.react C _).host.BareProfiles
    dsimp only [Node.react]
    split
    · exact bare
    · exact handshakeRecv_bareProfiles C bare peer _ _
  | sendIntent peer intent io answer => exact sendIntent_bareProfiles bare intent io _
  | createIntent => exact bare

theorem Node.run_bareProfiles {n : Node} (bare : n.host.BareProfiles) (events : List Event) :
    (n.run C events).host.BareProfiles := by
  induction events generalizing n with
  | nil => exact bare
  | cons e events ih => exact ih (Node.step_bareProfiles C bare e)

/-- Over every run of a host from `NewHost`, whatever the peers send and in whatever order the
events come, no profile in `known` or in the registry carries an embedding vector or a public
key; so the peer a workflow step is sent to is the same for every intent vector of the step. -/
theorem routing_ignores_intentVector (agent : Agent) (events : List Event) :
    let h := ((Node.init (newHost agent)).run C events).host
    h.BareProfiles ∧ ∀ now step v, (⟨h⟩ : WorkflowOrchestrator).chooseTarget now { step with intentVector := v } =
      (⟨h⟩ : WorkflowOrchestrator).chooseTarget now step :=
  have bare := Node.run_bareProfiles C (newHost_bareProfiles agent) events
  ⟨bare, chooseTarget_bareProfiles bare⟩

end Symplex.Protocol
