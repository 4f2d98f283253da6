import Symplex.P2p.Orchestrator
import Symplex.Codec.RoundTrip
import Symplex.Negotiation.Ranking

namespace Symplex.P2p

open Core

variable (C : Crypto)

def AgentHost.cachePeer (h : AgentHost) (peer : PeerId) (m : HandshakeMessage) : AgentHost :=
  { h with known := h.known.insert peer (handshakeProfile m),
           discovery := h.discovery.announce (handshakeProfile m) 0 0 }

theorem handleIncomingHandshake_answered {h : AgentHost} {remote : PeerId} {data : Bytes}
    {m : HandshakeMessage} {nonce : Except GoError Nonce} {now : BitVec 64}
    (decoded : decodeHandshakeMessage data = .ok m)
    (answered : (handleIncomingHandshake C h remote data nonce now).2.isSome) :
    (handleIncomingHandshake C h remote data nonce now).1 = h.cachePeer remote m := by
  unfold handleIncomingHandshake at answered ⊢
  simp only [decoded] at answered ⊢
  cases responded : h.handshakeResponse C remote m nonce now with
  | error e => simp [responded] at answered
  | ok r => rfl

theorem handshake_answered {h : AgentHost} {peer : PeerId} {nonce : Except GoError Nonce}
    {now : BitVec 64} {io : StreamIO} {reply : Bytes → Bytes} {m : HandshakeMessage}
    (answered : (h.handshake C peer nonce now io reply).1 = .ok m) :
    (h.handshake C peer nonce now io reply).2 = h.cachePeer peer m := by
  unfold AgentHost.handshake at answered ⊢
  cases sent : h.handshakeSend nonce now io with
  | error e => simp [sent] at answered
  | ok ours =>
    simp only [sent] at answered ⊢
    rcases handshakeRecv_cases C h peer ours reply with ⟨e, failed⟩ | ⟨_, _, _, _, _, ok⟩
    · rw [failed] at answered
      cases answered
    · rw [ok] at answered ⊢
      cases answered
      rfl

theorem handshake_unsigned_reply (h : AgentHost) (peer : PeerId) (n : Nonce) (now : BitVec 64)
    {resp : HandshakeMessage} (unsigned : resp.challengeResponse = [])
    (fits : 1 + resp.encode.length ≤ maxFrameBytes) :
    h.handshake C peer (.ok n) now ⟨none, none⟩ (fun _ => frame msgHandshake resp.encode) =
      (.ok resp, h.cachePeer peer resp) := by
  simp only [AgentHost.handshake, AgentHost.handshakeSend, startHandshake]
  exact handshakeRecv_unsigned C (readMsg_frame_only _ _ fits)
    (decodeHandshakeMessage_encode resp (length_lt_of_fits fits)) unsigned

/-- `Handshaken C h log`: a fresh host reaches `h` by completed handshakes in either role, and
`log` holds each handshake's peer with the message it sent, latest first. A peer may report any
AgentID. -/
inductive Handshaken : AgentHost → List (PeerId × HandshakeMessage) → Prop
  | new (agent : Agent) : Handshaken (newHost agent) []
  | accept {h : AgentHost} {log : List (PeerId × HandshakeMessage)} (remote : PeerId) {data : Bytes}
      {m : HandshakeMessage} (nonce : Except GoError Nonce) (now : BitVec 64)
      (decoded : decodeHandshakeMessage data = .ok m)
      (answered : (handleIncomingHandshake C h remote data nonce now).2.isSome) :
      Handshaken h log → Handshaken (handleIncomingHandshake C h remote data nonce now).1 ((remote, m) :: log)
  | initiate {h : AgentHost} {log : List (PeerId × HandshakeMessage)} (peer : PeerId)
      (nonce : Except GoError Nonce) (now : BitVec 64) (io : StreamIO) (reply : Bytes → Bytes)
      {m : HandshakeMessage} (answered : (h.handshake C peer nonce now io reply).1 = .ok m) :
      Handshaken h log → Handshaken (h.handshake C peer nonce now io reply).2 ((peer, m) :: log)

theorem Handshaken.cache_unsigned {h : AgentHost} {log : List (PeerId × HandshakeMessage)}
    (reached : Handshaken C h log) (peer : PeerId) (n : Nonce) (now : BitVec 64) (resp : HandshakeMessage)
    (unsigned : resp.challengeResponse = []) (fits : 1 + resp.encode.length ≤ maxFrameBytes) :
    Handshaken C (h.cachePeer peer resp) ((peer, resp) :: log) := by
  have answered := handshake_unsigned_reply C h peer n now unsigned fits
  have extended := Handshaken.initiate peer (.ok n) now ⟨none, none⟩ _ (by rw [answered]) reached
  rwa [answered] at extended

/-- The host's two caches agree with `agentOf`: the profile cached for each peer carries the
peer's AgentID, and every registry entry is the profile cached for a peer with that AgentID. -/
structure AgentHost.CachesAgree (agentOf : PeerId → Bytes) (h : AgentHost) : Prop where
  known : ∀ peer p, h.known.lookup peer = some p → p.agentID = agentOf peer
  registry : ∀ x e, h.discovery.view x = some e → ∃ peer, agentOf peer = x ∧ h.known.lookup peer = some e.profile

section Agree

variable {agentOf : PeerId → Bytes}

theorem cachesAgree_new (agent : Agent) : (newHost agent).CachesAgree agentOf where
  known _ _ found := by simp [newHost] at found
  registry _ _ found := by simp [newHost, view_new] at found

theorem AgentHost.CachesAgree.cachePeer {h : AgentHost} (agree : h.CachesAgree agentOf) {peer : PeerId}
    {m : HandshakeMessage} (reports : m.agentID = agentOf peer) : (h.cachePeer peer m).CachesAgree agentOf where
  known P p found := by
    by_cases same : P = peer
    · subst same
      simp only [AgentHost.cachePeer, AList.lookup_insert, Option.some.injEq] at found
      rw [← found, ← reports]
      rfl
    · rw [AgentHost.cachePeer, AList.lookup_insert_ne same] at found
      exact agree.known P p found
  registry x e found := by
    rw [AgentHost.cachePeer, view_announce] at found
    by_cases same : x = m.agentID
    · subst same
      rw [show (handshakeProfile m).agentID = m.agentID from rfl, Function.update_same] at found
      cases found
      exact ⟨peer, reports.symm, AList.lookup_insert _⟩
    · rw [Function.update_noteq (show x ≠ (handshakeProfile m).agentID from same)] at found
      obtain ⟨P, named, cached⟩ := agree.registry x e found
      have other : P ≠ peer := by
        rintro rfl
        exact same (named.symm.trans reports.symm)
      exact ⟨P, named, by rw [AgentHost.cachePeer, AList.lookup_insert_ne other]; exact cached⟩

theorem Handshaken.cachesAgree {h : AgentHost} {log : List (PeerId × HandshakeMessage)}
    (reached : Handshaken C h log) (honest : ∀ pm ∈ log, pm.2.agentID = agentOf pm.1) :
    h.CachesAgree agentOf := by
  induction reached with
  | new agent => exact cachesAgree_new agent
  | accept remote nonce now decoded answered _ agree =>
    rw [handleIncomingHandshake_answered C decoded answered]
    exact (agree fun pm mem => honest pm (.tail _ mem)).cachePeer (honest _ (.head _))
  | initiate peer nonce now io reply answered _ agree =>
    rw [handshake_answered C answered]
    exact (agree fun pm mem => honest pm (.tail _ mem)).cachePeer (honest _ (.head _))

theorem AgentHost.CachesAgree.chooseTarget {h : AgentHost} (agree : h.CachesAgree agentOf)
    (injective : agentOf.Injective) {now : Int} {step : WorkflowStep} {best : AgentProfile} {peer : PeerId}
    (chosen : (⟨h⟩ : WorkflowOrchestrator).chooseTarget now step = .ok (best, peer)) :
    h.known.lookup peer = some best ∧ step.capability ∈ best.capabilities := by
  obtain ⟨candidate, p, cached, named⟩ := chooseTarget_ok chosen
  obtain ⟨x, e, found, -, tags, rfl⟩ := mem_findByCapability.mp candidate
  obtain ⟨P, rfl, cachedP⟩ := agree.registry x e found
  have same : peer = P := injective <| by
    rw [← agree.known peer p cached, named, agree.known P _ cachedP]
  subst same
  exact ⟨cachedP, tags _ (List.mem_singleton_self _)⟩

end Agree

/-- If each peer keeps one AgentID that no other peer reports, every step is routed to a peer
whose cached profile is the top-ranked one, which has the step's capability. -/
theorem routes_to_chosen_profile {agentOf : PeerId → Bytes} (injective : agentOf.Injective)
    {h : AgentHost} {log : List (PeerId × HandshakeMessage)} (reached : Handshaken C h log)
    (honest : ∀ pm ∈ log, pm.2.agentID = agentOf pm.1) {now : Int} {step : WorkflowStep}
    {best : AgentProfile} {peer : PeerId}
    (chosen : (⟨h⟩ : WorkflowOrchestrator).chooseTarget now step = .ok (best, peer)) :
    h.known.lookup peer = some best ∧ step.capability ∈ best.capabilities :=
  (reached.cachesAgree C honest).chooseTarget injective chosen

theorem routes_to_chosen_profile_pair :
    let mp : HandshakeMessage := { HandshakeMessage.empty with agentID := ascii "ap", capabilities := [ascii "c"] }
    let mq : HandshakeMessage :=
      { HandshakeMessage.empty with agentID := ascii "aq", capabilities := [ascii "c", ascii "d"] }
    let log := [(ascii "q", mq), (ascii "p", mp)]
    let h := ((newHost ⟨[], ⟨ascii "symplex", [], none, none⟩, [], [], []⟩).cachePeer (ascii "p") mp).cachePeer
      (ascii "q") mq
    let step : WorkflowStep := ⟨ascii "s", ascii "c", [], []⟩
    let agentOf : PeerId → Bytes := fun peer => ascii "a" ++ peer
    agentOf.Injective ∧ Handshaken blankCrypto h log ∧ (∀ pm ∈ log, pm.2.agentID = agentOf pm.1) ∧
      (⟨h⟩ : WorkflowOrchestrator).chooseTarget 0 step = .ok (handshakeProfile mq, ascii "q") ∧
      h.known.lookup (ascii "q") = some (handshakeProfile mq) ∧ step.capability ∈ (handshakeProfile mq).capabilities := by
  intro mp mq log h step agentOf
  have injective : agentOf.Injective := fun _ _ same => List.append_cancel_left same
  have reached : Handshaken blankCrypto h log :=
    ((Handshaken.new _).cache_unsigned blankCrypto (ascii "p") ⟨List.replicate 32 0, rfl⟩ 0 mp rfl
      (HandshakeMessage.frame_fits (by decide))).cache_unsigned blankCrypto (ascii "q")
      ⟨List.replicate 32 0, rfl⟩ 0 mq rfl (HandshakeMessage.frame_fits (by decide))
  have honest : ∀ pm ∈ log, pm.2.agentID = agentOf pm.1 := by decide
  have chosen : (⟨h⟩ : WorkflowOrchestrator).chooseTarget 0 step = .ok (handshakeProfile mq, ascii "q") := by
    decide
  exact ⟨injective, reached, honest, chosen,
    routes_to_chosen_profile blankCrypto injective reached honest chosen⟩

/-- When no live profile with the step's capability scores NaN against the step's intent vector,
`executeStep` picks one that none of them outscores. -/
theorem chooseTarget_best {o : WorkflowOrchestrator} {now : Int} {step : WorkflowStep} {best : AgentProfile}
    {peer : PeerId} (chosen : o.chooseTarget now step = .ok (best, peer))
    (noNaN : ∀ c ∈ o.host.discovery.findByCapability now [step.capability],
      (candidateScore step.intentVector c).isNaN = false) :
    ∀ c ∈ o.host.discovery.findByCapability now [step.capability],
      (candidateScore step.intentVector best).lt (candidateScore step.intentVector c) = false := by
  dsimp only [WorkflowOrchestrator.chooseTarget] at chosen
  split at chosen
  · cases chosen
  · rename_i nonempty
    split at chosen
    · cases chosen
    · cases chosen
      exact rankCandidates_first_best noNaN (by rw [(rankCandidates_perm _ _).length_eq]; omega)

set_option maxRecDepth 4000 in
theorem chooseTarget_best_three :
    let m : Bytes → HandshakeMessage := fun x =>
      { HandshakeMessage.empty with agentID := ascii "a" ++ x, capabilities := [ascii "c"] }
    let h := (((newHost ⟨[], ⟨ascii "symplex", [], none, none⟩, [], [], []⟩).cachePeer (ascii "p") (m (ascii "p"))).cachePeer
      (ascii "q") (m (ascii "q"))).cachePeer (ascii "r") (m (ascii "r"))
    let best : AgentProfile := ⟨ascii "aq", [], [ascii "c"], [Float32.one], []⟩
    let o : WorkflowOrchestrator := ⟨{ h with discovery :=
      (h.discovery.announce best 0 0).announce ⟨ascii "ar", [], [ascii "c"], [Float32.one.neg], []⟩ 0 0 }⟩
    let step : WorkflowStep := ⟨ascii "s", ascii "c", [Float32.one], []⟩
    (o.host.discovery.findByCapability 0 [step.capability]).map (candidateScore step.intentVector) =
        [⟨0xBFF0000000000000⟩, ⟨0x3FF0000000000000⟩, Float64.zero] ∧
      o.chooseTarget 0 step = .ok (best, ascii "q") ∧
      (∀ c ∈ o.host.discovery.findByCapability 0 [step.capability],
        (candidateScore step.intentVector c).isNaN = false) ∧
      ∀ c ∈ o.host.discovery.findByCapability 0 [step.capability],
        (candidateScore step.intentVector best).lt (candidateScore step.intentVector c) = false := by
  intro m h best o step
  have scores : (o.host.discovery.findByCapability 0 [step.capability]).map (candidateScore step.intentVector) =
      [⟨0xBFF0000000000000⟩, ⟨0x3FF0000000000000⟩, Float64.zero] := by decide
  have chosen : o.chooseTarget 0 step = .ok (best, ascii "q") := by decide
  have noNaN : ∀ c ∈ o.host.discovery.findByCapability 0 [step.capability],
      (candidateScore step.intentVector c).isNaN = false := by decide
  exact ⟨scores, chosen, noNaN, chooseTarget_best chosen noNaN⟩

/-- Peer `Q` reports AgentID `x`; then peer `P` reports `x` with capability `c`, and later `y`
without it. The registry keeps `P`'s old profile under `x`, `known` leads from `x` back to `Q`,
and `executeStep` sends the step for `c` to `Q`, whose cached profile lacks `c`. -/
theorem routes_to_peer_without_capability :
    ∃ h log, Handshaken C h log ∧ ∃ step best peer p,
      (⟨h⟩ : WorkflowOrchestrator).chooseTarget 0 step = .ok (best, peer) ∧
      (∀ workflowID (env : StepEnv), env.now = 0 → (∃ r, env.random = .ok r) →
        ∃ intent, (⟨h⟩ : WorkflowOrchestrator).executeStep C workflowID step env =
          (⟨h⟩ : WorkflowOrchestrator).sendStep step env intent peer) ∧
      h.known.lookup peer = some p ∧ step.capability ∈ best.capabilities ∧ step.capability ∉ p.capabilities := by
  let agent : Agent := ⟨[], ⟨ascii "symplex", [], none, some []⟩, [], [], []⟩
  let n : Nonce := ⟨List.replicate 32 0, rfl⟩
  let mQ : HandshakeMessage := { HandshakeMessage.empty with agentID := ascii "x" }
  let mP : HandshakeMessage := { mQ with capabilities := [ascii "c"] }
  let mP' : HandshakeMessage := { HandshakeMessage.empty with agentID := ascii "y" }
  have reached := ((((Handshaken.new agent).cache_unsigned C (ascii "Q") n 0 mQ rfl
    (HandshakeMessage.frame_fits (by decide))).cache_unsigned C (ascii "P") n 0 mP rfl
    (HandshakeMessage.frame_fits (by decide))).cache_unsigned C (ascii "P") n 0 mP' rfl
    (HandshakeMessage.frame_fits (by decide)))
  have chosen : (⟨(((newHost agent).cachePeer (ascii "Q") mQ).cachePeer (ascii "P") mP).cachePeer (ascii "P") mP'⟩ :
      WorkflowOrchestrator).chooseTarget 0 ⟨ascii "s", ascii "c", [], []⟩ =
      .ok (handshakeProfile mP, ascii "Q") := by decide
  refine ⟨_, _, reached, _, _, _, handshakeProfile mQ, chosen, fun workflowID env now ⟨r, random⟩ => ?_,
    rfl, by decide, by decide⟩
  exact ⟨_, executeStep_sends C (by rw [now]; exact chosen) (by rw [random]; rfl)⟩

end Symplex.P2p
