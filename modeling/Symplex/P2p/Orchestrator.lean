import Symplex.P2p.Host
import Symplex.Discovery.Registry

namespace Symplex.P2p

open Core

variable (C : Crypto)

structure WorkflowStep where
  id : Bytes
  capability : Bytes
  intentVector : List Float32
  payload : Bytes
  deriving DecidableEq, Repr

/-- `StepResult`; the `Timestamp` in Unix nanoseconds. -/
structure StepResult where
  stepID : Bytes
  agentID : Bytes
  accepted : Bool
  reason : Bytes
  timestamp : Int
  deriving DecidableEq, Repr

def StepResult.empty : StepResult := ⟨[], [], false, [], 0⟩

/-- A `WorkflowOrchestrator`: its host. The step timeout only bounds what the transport does,
which `StepEnv` gives outright. -/
structure WorkflowOrchestrator where
  host : AgentHost

/-- `resolvePeerID`: the first peer of `known`, in its iteration order, whose cached profile
carries the AgentID. `known` is keyed by `peerID.String()`, which `peer.Decode` parses back to
the same peer, so its error branch is never taken. -/
def WorkflowOrchestrator.resolvePeerID (o : WorkflowOrchestrator) (agentID : Bytes) : Except GoError PeerId :=
  match o.host.known.entries.find? fun e => e.2.agentID = agentID with
  | some e => .ok e.1
  | none => .error (.errorf "peerID not found for agentID %q" [.inl agentID])

/-- What `executeStep` reads besides the host: the clock of `FindByCapability`, the random
bytes and the clock of `CreateIntent`, the transport's stream to each peer, and the clock at
which the step ends (the result's `Timestamp`, or the one `RunWorkflow` stamps on a failure). -/
structure StepEnv where
  now : Int
  random : Except GoError Bytes
  sentAt : BitVec 64
  io : PeerId → StreamIO
  reply : PeerId → Bytes → Bytes
  finishedAt : Int

def WorkflowOrchestrator.chooseTarget (o : WorkflowOrchestrator) (now : Int) (step : WorkflowStep) :
    Except GoError (AgentProfile × PeerId) :=
  let candidates := o.host.discovery.findByCapability now [step.capability]
  if empty : candidates.length = 0 then .error (.errorf "no peer with capability %q" [.inl step.capability])
  else
    let best := (rankCandidates step.intentVector candidates).get
      ⟨0, by rw [(rankCandidates_perm _ _).length_eq]; omega⟩
    match o.resolvePeerID best.agentID with
    | .error e => .error e
    | .ok peerID => .ok (best, peerID)

def WorkflowOrchestrator.sendStep (o : WorkflowOrchestrator) (step : WorkflowStep) (env : StepEnv)
    (intent : IntentMessage) (peerID : PeerId) : Except GoError StepResult × WorkflowOrchestrator :=
  match o.host.sendIntent intent (env.io peerID) (env.reply peerID) with
  | (.error e, host) => (.error e, ⟨host⟩)
  | (.ok resp, host) => (.ok ⟨step.id, resp.agentID, resp.accepted, resp.reason, env.finishedAt⟩, ⟨host⟩)

def tagStep (intent : IntentMessage) (workflowID stepID : Bytes) : IntentMessage :=
  { intent with
    metadata := (intent.metadata.insert (ascii "workflow_id") workflowID).insert (ascii "step_id") stepID }

/-- `executeStep`: build the step's intent, tagged with the workflow and step IDs, and send it to
the chosen peer. -/
def WorkflowOrchestrator.executeStep (o : WorkflowOrchestrator) (workflowID : Bytes) (step : WorkflowStep)
    (env : StepEnv) : Except GoError StepResult × WorkflowOrchestrator :=
  match o.chooseTarget env.now step with
  | .error e => (.error e, o)
  | .ok (_, peerID) =>
    match createIntent C o.host.agent step.intentVector [step.capability] step.payload env.random env.sentAt with
    | .error e => (.error e, o)
    | .ok intent => o.sendStep step env (tagStep intent workflowID step.id) peerID

def stepRecord (errorText : GoError → Bytes) (s : WorkflowStep) (outcome : Except GoError StepResult)
    (failedAt : Int) : StepResult :=
  match outcome with
  | .error err => ⟨s.id, [], false, errorText err, failedAt⟩
  | .ok r => r

def stepError (s : WorkflowStep) (outcome : Except GoError StepResult) : Option GoError :=
  match outcome with
  | .error err => some (.wrapf "step %q: %w" [.inl s.id] err)
  | .ok _ => none

@[simp] theorem stepError_eq_none_iff {s : WorkflowStep} {outcome : Except GoError StepResult} :
    stepError s outcome = none ↔ ∃ r, outcome = .ok r := by
  cases outcome <;> simp [stepError]

def recordStep (errorText : GoError → Bytes) (state : List StepResult × Option GoError) (idx : Nat)
    (s : WorkflowStep) (outcome : Except GoError StepResult) (failedAt : Int) :
    List StepResult × Option GoError :=
  (state.1.set idx (stepRecord errorText s outcome failedAt), state.2.or (stepError s outcome))

/-- `RunWorkflow`: goroutine `i` runs `executeStep` for `steps[i]` against the host state `seen i`
it reads, in the environment `envs i`, and the goroutines take `mu` in the order `order`.
`errorText` is `error.Error()`. -/
def WorkflowOrchestrator.runWorkflow (errorText : GoError → Bytes) (workflowID : Bytes)
    (steps : List WorkflowStep) (seen : Fin steps.length → WorkflowOrchestrator)
    (envs : Fin steps.length → StepEnv) (order : List (Fin steps.length)) :
    List StepResult × Option GoError :=
  order.foldl (fun state (i : Fin steps.length) => recordStep errorText state i (steps.get i)
      ((seen i).executeStep C workflowID (steps.get i) (envs i)).1 (envs i).finishedAt)
    (List.replicate steps.length StepResult.empty, none)

theorem resolvePeerID_ok {o : WorkflowOrchestrator} {agentID : Bytes} {peer : PeerId}
    (resolved : o.resolvePeerID agentID = .ok peer) :
    ∃ p, o.host.known.lookup peer = some p ∧ p.agentID = agentID := by
  unfold WorkflowOrchestrator.resolvePeerID at resolved
  split at resolved
  · rename_i e found
    cases resolved
    exact ⟨e.2, AList.mem_lookup_iff.mpr (List.mem_of_find?_eq_some found),
      by simpa using List.find?_some found⟩
  · cases resolved

theorem chooseTarget_ok {o : WorkflowOrchestrator} {now : Int} {step : WorkflowStep}
    {best : AgentProfile} {peer : PeerId} (chosen : o.chooseTarget now step = .ok (best, peer)) :
    best ∈ o.host.discovery.findByCapability now [step.capability] ∧
      ∃ p, o.host.known.lookup peer = some p ∧ p.agentID = best.agentID := by
  dsimp only [WorkflowOrchestrator.chooseTarget] at chosen
  split at chosen
  · cases chosen
  · split at chosen
    · cases chosen
    · rename_i resolved
      cases chosen
      exact ⟨(rankCandidates_perm _ _).subset (List.get_mem _ _ _), resolvePeerID_ok resolved⟩

theorem executeStep_cases (o : WorkflowOrchestrator) (workflowID : Bytes) (step : WorkflowStep)
    (env : StepEnv) :
    (∃ e, o.executeStep C workflowID step env = (.error e, o)) ∨
      ∃ best peer intent, o.chooseTarget env.now step = .ok (best, peer) ∧
        createIntent C o.host.agent step.intentVector [step.capability] step.payload env.random env.sentAt =
          .ok intent ∧
        o.executeStep C workflowID step env = o.sendStep step env (tagStep intent workflowID step.id) peer := by
  unfold WorkflowOrchestrator.executeStep
  cases chosen : o.chooseTarget env.now step with
  | error e => exact .inl ⟨e, rfl⟩
  | ok target =>
    cases built : createIntent C o.host.agent step.intentVector [step.capability] step.payload env.random
        env.sentAt with
    | error e => exact .inl ⟨e, rfl⟩
    | ok intent => exact .inr ⟨target.1, target.2, intent, rfl, rfl, rfl⟩

theorem executeStep_sends {o : WorkflowOrchestrator} {workflowID : Bytes} {step : WorkflowStep}
    {env : StepEnv} {best : AgentProfile} {peer : PeerId} {intent : IntentMessage}
    (chosen : o.chooseTarget env.now step = .ok (best, peer))
    (built : createIntent C o.host.agent step.intentVector [step.capability] step.payload env.random env.sentAt =
      .ok intent) :
    o.executeStep C workflowID step env = o.sendStep step env (tagStep intent workflowID step.id) peer := by
  rw [WorkflowOrchestrator.executeStep, chosen]
  simp only [built]

theorem executeStep_stepID {o : WorkflowOrchestrator} {workflowID : Bytes} {step : WorkflowStep}
    {env : StepEnv} {r : StepResult} (executed : (o.executeStep C workflowID step env).1 = .ok r) :
    r.stepID = step.id := by
  rcases executeStep_cases C o workflowID step env with ⟨e, failed⟩ | ⟨_, _, _, _, _, sent⟩
  · rw [failed] at executed
    cases executed
  · rw [sent, WorkflowOrchestrator.sendStep] at executed
    split at executed <;> cases executed
    rfl

section Mutex

variable {n : Nat} (slot : Fin n → StepResult) (err : Fin n → Option GoError)

theorem foldl_fill_error :
    ∀ (order : List (Fin n)) (state : List StepResult × Option GoError),
      (order.foldl (fun state i => (state.1.set i (slot i), state.2.or (err i))) state).2 =
        state.2.or (order.findSome? err)
  | [], state => by simp
  | i :: order, state => by
    rw [List.foldl_cons, foldl_fill_error order, Option.or_assoc, List.findSome?_cons]
    cases err i <;> rfl

theorem foldl_fill_length :
    ∀ (order : List (Fin n)) (state : List StepResult × Option GoError),
      (order.foldl (fun state i => (state.1.set i (slot i), state.2.or (err i))) state).1.length =
        state.1.length
  | [], _ => rfl
  | i :: order, state => by rw [List.foldl_cons, foldl_fill_length order, List.length_set]

theorem foldl_fill_slot (i : Fin n) :
    ∀ (order : List (Fin n)) (state : List StepResult × Option GoError), order.Nodup →
      state.1.length = n →
      (order.foldl (fun state i => (state.1.set i (slot i), state.2.or (err i))) state).1[(i : Nat)]? =
        if i ∈ order then some (slot i) else state.1[(i : Nat)]?
  | [], _, _, _ => rfl
  | j :: order, state, nodup, length => by
    rw [List.nodup_cons] at nodup
    rw [List.foldl_cons, foldl_fill_slot i order _ nodup.2 (by simpa using length), List.getElem?_set]
    by_cases same : j = i
    · subst same
      simp [nodup.1, length]
    · simp [same, Ne.symm same, Fin.val_inj]

end Mutex

/-- `RunWorkflow` fills every slot whatever order the goroutines take `mu` in: slot `i` is for
`steps[i]` and holds the result `executeStep` returned for it, or on an error a rejection that
carries the error's text. The error it returns is nil exactly when no step failed, and is
otherwise the wrapped error of the first failed step to take `mu`. -/
theorem runWorkflow_aligned (errorText : GoError → Bytes) (workflowID : Bytes) (steps : List WorkflowStep)
    (seen : Fin steps.length → WorkflowOrchestrator) (envs : Fin steps.length → StepEnv)
    (order : List (Fin steps.length)) (finished : order.Perm (List.finRange steps.length)) :
    let run := WorkflowOrchestrator.runWorkflow C errorText workflowID steps seen envs order
    let outcome := fun i => ((seen i).executeStep C workflowID (steps.get i) (envs i)).1
    run.1.length = steps.length ∧
      (∀ i : Fin steps.length, ∃ r, run.1[(i : Nat)]? = some r ∧ r.stepID = (steps.get i).id ∧
        (∀ s, outcome i = .ok s → r = s) ∧
        ∀ e, outcome i = .error e → r.accepted = false ∧ r.reason = errorText e) ∧
      (run.2 = none ↔ ∀ i, ∃ s, outcome i = .ok s) ∧
      run.2 = order.findSome? fun i => stepError (steps.get i) (outcome i) := by
  intro run outcome
  have ran : ∀ i, i ∈ order := fun i => finished.mem_iff.mpr (List.mem_finRange i)
  have error : run.2 = order.findSome? fun i => stepError (steps.get i) (outcome i) :=
    (foldl_fill_error _ _ order _).trans Option.none_or
  refine ⟨(foldl_fill_length _ _ order _).trans (List.length_replicate _ _), fun i => ?_, ?_, error⟩
  · have filled := foldl_fill_slot (fun i => stepRecord errorText (steps.get i) (outcome i) (envs i).finishedAt)
      (fun i => stepError (steps.get i) (outcome i)) i order
      (List.replicate steps.length StepResult.empty, none) (finished.nodup_iff.mpr (List.nodup_finRange _))
      (List.length_replicate _ _)
    rw [if_pos (ran i)] at filled
    refine ⟨_, filled, ?_⟩
    cases executed : outcome i with
    | error e => simp [stepRecord, executed]
    | ok s => simp [stepRecord, executed, executeStep_stepID C executed]
  · simp only [error, List.findSome?_eq_none_iff, stepError_eq_none_iff]
    exact ⟨fun ok i => ok i (ran i), fun ok i _ => ok i⟩

theorem runWorkflow_aligned_reversed :
    let steps : List WorkflowStep := [⟨ascii "a", ascii "c", [], []⟩, ⟨ascii "b", ascii "c", [], []⟩]
    let seen : Fin steps.length → WorkflowOrchestrator :=
      fun _ => ⟨newHost ⟨[], ⟨[], [], none, none⟩, [], [], []⟩⟩
    let envs : Fin steps.length → StepEnv :=
      fun _ => ⟨0, .error (.errorf "EOF" []), 0, fun _ => ⟨none, none⟩, fun _ b => b, 0⟩
    let order : List (Fin steps.length) := ([1, 0] : List (Fin 2))
    let run := WorkflowOrchestrator.runWorkflow blankCrypto (fun _ => []) [] steps seen envs order
    let outcome := fun i => ((seen i).executeStep blankCrypto [] (steps.get i) (envs i)).1
    order.Perm (List.finRange steps.length) ∧
      run.1.length = steps.length ∧
      (∀ i : Fin steps.length, ∃ r, run.1[(i : Nat)]? = some r ∧ r.stepID = (steps.get i).id ∧
        (∀ s, outcome i = .ok s → r = s) ∧
        ∀ e, outcome i = .error e → r.accepted = false ∧ r.reason = [] ) ∧
      (run.2 = none ↔ ∀ i, ∃ s, outcome i = .ok s) ∧
      run.2 = order.findSome? fun i => stepError (steps.get i) (outcome i) := by
  intro steps seen envs order _ _
  exact ⟨by decide, runWorkflow_aligned blankCrypto (fun _ => []) [] steps seen envs order (by decide)⟩

end Symplex.P2p
