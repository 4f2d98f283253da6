import Symplex.Core.Handshake

namespace Symplex.Core

def RegistryEntry.live (e : RegistryEntry) (t : Int) : Bool := e.expiresAt.all fun x => t ≤ x

@[simp] theorem RegistryEntry.isExpired_eq (e : RegistryEntry) (t : Int) : e.isExpired t = !e.live t := by
  unfold RegistryEntry.isExpired RegistryEntry.live
  cases e.expiresAt <;> simp [← decide_not]

/-- The operations a registry takes, each at the time it runs. -/
inductive RegistryOp where
  | announce (profile : AgentProfile) (ttlSeconds : BitVec 64) (now : Int)
  | announceFromMessage (msg : CapabilityAnnouncement) (now : Int)
  | remove (agentID : Bytes)
  | evict (now : Int)

def DiscoveryRegistry.apply (r : DiscoveryRegistry) : RegistryOp → DiscoveryRegistry
  | .announce profile ttlSeconds now => r.announce profile ttlSeconds now
  | .announceFromMessage msg now => r.announceFromMessage msg now
  | .remove agentID => r.remove agentID
  | .evict now => (r.evict now).1

def DiscoveryRegistry.run (r : DiscoveryRegistry) (ops : List RegistryOp) : DiscoveryRegistry :=
  ops.foldl DiscoveryRegistry.apply r

/-- The registry the spec describes: the entry stored for each `AgentID`, if any. -/
abbrev RegistryMap := Bytes → Option RegistryEntry

def RegistryMap.apply (m : RegistryMap) : RegistryOp → RegistryMap
  | .announce profile ttlSeconds now =>
    Function.update m profile.agentID (some ⟨profile, expiresAfter ttlSeconds now⟩)
  | .announceFromMessage msg now =>
    Function.update m msg.agentID
      (some ⟨⟨msg.agentID, msg.did, msg.capabilities, [], []⟩, expiresAfter msg.ttl now⟩)
  | .remove agentID => Function.update m agentID none
  | .evict t => fun k => (m k).filter (·.live t)

/-- The abstraction: the entry the registry's map holds under each key. -/
def DiscoveryRegistry.view (r : DiscoveryRegistry) : RegistryMap := fun k => r.entries.lookup k

/-- Every entry sits under its own profile's `AgentID`. -/
def DiscoveryRegistry.Keyed (r : DiscoveryRegistry) : Prop :=
  ∀ e ∈ r.entries.entries, e.1 = e.2.profile.agentID

def evictStep (t : Int) (m : GoMap Bytes RegistryEntry) (e : Σ _ : Bytes, RegistryEntry) :
    GoMap Bytes RegistryEntry :=
  if e.2.isExpired t then m.erase e.1 else m

theorem evict_loop (t : Int) (rest : List (Σ _ : Bytes, RegistryEntry)) :
    ∀ (m : GoMap Bytes RegistryEntry) (kept : List (Σ _ : Bytes, RegistryEntry)),
      m.entries = kept ++ rest → (rest.foldl (evictStep t) m).entries = kept ++ rest.filter (·.2.live t) := by
  induction rest with
  | nil => intro m kept same; simpa using same
  | cons e rest ih =>
    intro m kept same
    have fresh : e.1 ∉ kept.keys := by
      have nodup := m.nodupKeys
      rw [same, List.NodupKeys, List.keys, List.map_append, List.nodup_append] at nodup
      exact fun mem => nodup.2.2 mem (List.mem_cons_self _ _)
    rw [List.foldl_cons, evictStep]
    by_cases alive : e.2.live t
    · rw [if_neg (by simp [alive]), ih m (kept ++ [e]) (by simp [same])]
      simp [List.filter_cons, alive]
    · have erased : (m.erase e.1).entries = kept ++ rest := by
        show List.kerase e.1 m.entries = _
        rw [same, List.kerase_append_right fresh, List.kerase_cons_eq rfl]
      rw [if_pos (by simp [alive]), ih _ kept erased]
      simp [List.filter_cons, alive]

theorem evict_entries (r : DiscoveryRegistry) (t : Int) :
    (r.evict t).1.entries.entries = r.entries.entries.filter (·.2.live t) :=
  evict_loop t r.entries.entries r.entries [] rfl

theorem evict_count (r : DiscoveryRegistry) (t : Int) :
    (r.evict t).2 + (r.evict t).1.entries.entries.length = r.entries.entries.length := by
  rw [evict_entries]
  simp only [DiscoveryRegistry.evict, RegistryEntry.isExpired_eq]
  rw [Nat.add_comm, ← List.length_eq_length_filter_add]

theorem view_announce (r : DiscoveryRegistry) (profile : AgentProfile) (ttlSeconds : BitVec 64) (now : Int) :
    (r.announce profile ttlSeconds now).view =
      Function.update r.view profile.agentID (some ⟨profile, expiresAfter ttlSeconds now⟩) := by
  funext k
  by_cases same : k = profile.agentID
  · subst same
    simp [DiscoveryRegistry.view, DiscoveryRegistry.announce, AList.lookup_insert]
  · simp [DiscoveryRegistry.view, DiscoveryRegistry.announce, AList.lookup_insert_ne same, same]

theorem view_remove (r : DiscoveryRegistry) (agentID : Bytes) :
    (r.remove agentID).view = Function.update r.view agentID none := by
  funext k
  by_cases same : k = agentID
  · subst same
    simp [DiscoveryRegistry.view, DiscoveryRegistry.remove, AList.lookup_erase]
  · simp [DiscoveryRegistry.view, DiscoveryRegistry.remove, AList.lookup_erase_ne same, same]

theorem view_evict (r : DiscoveryRegistry) (t : Int) :
    (r.evict t).1.view = fun k => (r.view k).filter (·.live t) := by
  funext k
  ext e
  rw [DiscoveryRegistry.view, DiscoveryRegistry.view, AList.mem_lookup_iff, evict_entries, List.mem_filter,
    ← AList.mem_lookup_iff, Option.mem_filter_iff]

theorem view_apply (r : DiscoveryRegistry) (op : RegistryOp) : (r.apply op).view = r.view.apply op := by
  cases op with
  | announce profile ttlSeconds now => exact view_announce r profile ttlSeconds now
  | announceFromMessage msg now => exact view_announce r _ msg.ttl now
  | remove agentID => exact view_remove r agentID
  | evict t => exact view_evict r t

theorem view_run (r : DiscoveryRegistry) (ops : List RegistryOp) :
    (r.run ops).view = ops.foldl RegistryMap.apply r.view := by
  induction ops generalizing r with
  | nil => rfl
  | cons op ops ih =>
    rw [DiscoveryRegistry.run, List.foldl_cons, ← DiscoveryRegistry.run, ih, view_apply]
    rfl

theorem view_new : newDiscoveryRegistry.view = fun _ => none := by
  funext k
  exact AList.lookup_empty k

theorem DiscoveryRegistry.keyed_new : newDiscoveryRegistry.Keyed := fun _ mem => nomatch mem

theorem DiscoveryRegistry.Keyed.sub {r r' : DiscoveryRegistry} (keyed : r.Keyed)
    (sub : r'.entries.entries ⊆ r.entries.entries) : r'.Keyed :=
  fun e mem => keyed e (sub mem)

theorem DiscoveryRegistry.Keyed.announce {r : DiscoveryRegistry} (keyed : r.Keyed) (profile : AgentProfile)
    (ttlSeconds : BitVec 64) (now : Int) : (r.announce profile ttlSeconds now).Keyed := by
  intro e mem
  rw [DiscoveryRegistry.announce, AList.insert_entries] at mem
  rcases List.mem_cons.mp mem with rfl | old
  · rfl
  · exact keyed e ((List.kerase_sublist _ _).subset old)

theorem DiscoveryRegistry.Keyed.apply {r : DiscoveryRegistry} (keyed : r.Keyed) (op : RegistryOp) : (r.apply op).Keyed := by
  cases op with
  | announce profile ttlSeconds now => exact keyed.announce profile ttlSeconds now
  | announceFromMessage msg now => exact keyed.announce _ msg.ttl now
  | remove agentID => exact keyed.sub (List.kerase_sublist _ _).subset
  | evict t =>
    refine keyed.sub fun e mem => ?_
    change e ∈ (r.evict t).1.entries.entries at mem
    rw [evict_entries] at mem
    exact (List.mem_filter.mp mem).1

theorem DiscoveryRegistry.Keyed.run {r : DiscoveryRegistry} (keyed : r.Keyed) (ops : List RegistryOp) : (r.run ops).Keyed := by
  induction ops generalizing r with
  | nil => exact keyed
  | cons op ops ih => exact ih (keyed.apply op)

theorem DiscoveryRegistry.Keyed.nodup_profiles {r : DiscoveryRegistry} (keyed : r.Keyed) {l : List (Σ _ : Bytes, RegistryEntry)}
    (sub : l.Sublist r.entries.entries) : (l.map (·.2.profile)).Nodup := by
  refine List.Nodup.map_on (fun x xin y yin same => ?_) (r.entries.nodupKeys.nodup.sublist sub)
  have key : x.1 = y.1 := by rw [keyed x (sub.subset xin), keyed y (sub.subset yin), same]
  have xfound := AList.mem_lookup_iff.mpr (sub.subset xin)
  have yfound := AList.mem_lookup_iff.mpr (sub.subset yin)
  rw [key] at xfound
  exact Sigma.ext key (heq_of_eq (Option.some.inj (xfound.symm.trans yfound)))

theorem mem_findByCapability {r : DiscoveryRegistry} {t : Int} {required : List Bytes} {p : AgentProfile} :
    p ∈ r.findByCapability t required ↔ ∃ k e, r.view k = some e ∧ e.live t ∧
      (∀ c ∈ required, c ∈ e.profile.capabilities) ∧ e.profile = p := by
  simp only [DiscoveryRegistry.findByCapability, List.mem_map, List.mem_filter, RegistryEntry.isExpired_eq,
    Bool.not_not, Bool.and_eq_true, hasAll_iff]
  constructor
  · rintro ⟨⟨k, e⟩, ⟨mem, alive, tags⟩, rfl⟩
    exact ⟨k, e, AList.mem_lookup_iff.mpr mem, alive, tags, rfl⟩
  · rintro ⟨k, e, found, alive, tags, rfl⟩
    exact ⟨⟨k, e⟩, ⟨AList.mem_lookup_iff.mp found, alive, tags⟩, rfl⟩

theorem mem_all {r : DiscoveryRegistry} {t : Int} {p : AgentProfile} :
    p ∈ r.all t ↔ ∃ k e, r.view k = some e ∧ e.live t ∧ e.profile = p := by
  simp only [DiscoveryRegistry.all, List.mem_map, List.mem_filter, RegistryEntry.isExpired_eq, Bool.not_not]
  constructor
  · rintro ⟨⟨k, e⟩, ⟨mem, alive⟩, rfl⟩
    exact ⟨k, e, AList.mem_lookup_iff.mpr mem, alive, rfl⟩
  · rintro ⟨k, e, found, alive, rfl⟩
    exact ⟨⟨k, e⟩, ⟨AList.mem_lookup_iff.mp found, alive⟩, rfl⟩

theorem findByDID_isSome {r : DiscoveryRegistry} {t : Int} {d : Bytes} :
    (r.findByDID t d).isSome ↔ ∃ k e, r.view k = some e ∧ e.live t ∧ e.profile.did = d := by
  simp only [DiscoveryRegistry.findByDID, Option.isSome_map', List.find?_isSome, RegistryEntry.isExpired_eq,
    Bool.not_not, Bool.and_eq_true, decide_eq_true_eq]
  constructor
  · rintro ⟨⟨k, e⟩, mem, alive, named⟩
    exact ⟨k, e, AList.mem_lookup_iff.mpr mem, alive, named⟩
  · rintro ⟨k, e, found, alive, named⟩
    exact ⟨⟨k, e⟩, AList.mem_lookup_iff.mp found, alive, named⟩

theorem findByDID_some {r : DiscoveryRegistry} {t : Int} {d : Bytes} {p : AgentProfile}
    (found : r.findByDID t d = some p) : ∃ k e, r.view k = some e ∧ e.live t ∧ e.profile = p ∧ p.did = d := by
  obtain ⟨⟨k, e⟩, first, rfl⟩ := Option.map_eq_some'.mp found
  have matched := List.find?_some first
  simp only [RegistryEntry.isExpired_eq, Bool.not_not, Bool.and_eq_true, decide_eq_true_eq] at matched
  exact ⟨k, e, AList.mem_lookup_iff.mpr (List.mem_of_find?_eq_some first), matched.1, rfl, matched.2⟩

theorem evict_findByCapability (r : DiscoveryRegistry) (t : Int) (required : List Bytes) :
    (r.evict t).1.findByCapability t required = r.findByCapability t required := by
  simp only [DiscoveryRegistry.findByCapability, evict_entries, List.filter_filter, RegistryEntry.isExpired_eq]
  congr 2
  funext e
  cases e.2.live t <;> simp

theorem evict_all (r : DiscoveryRegistry) (t : Int) : (r.evict t).1.all t = r.all t := by
  simp only [DiscoveryRegistry.all, evict_entries, List.filter_filter, RegistryEntry.isExpired_eq]
  congr 2
  funext e
  cases e.2.live t <;> simp

theorem evict_findByDID (r : DiscoveryRegistry) (t : Int) (d : Bytes) :
    (r.evict t).1.findByDID t d = r.findByDID t d := by
  simp only [DiscoveryRegistry.findByDID, evict_entries, List.find?_filter, RegistryEntry.isExpired_eq]
  congr 2
  funext e
  cases e.2.live t <;> simp

/-- Over every run of `Announce`, `AnnounceFromMessage`, `Remove` and `Evict` from an empty
registry, and at every time `t`: the registry holds the spec's map, each entry under its
profile's `AgentID`; `FindByCapability` and `All` return each live matching profile once and
nothing else; `FindByDID` finds a live profile with the DID exactly when one exists; and
`Evict` keeps exactly the live entries, returns how many it deleted, and changes none of the
reads at `t`. -/
theorem registry_reads_live_map (ops : List RegistryOp) (t : Int) (required : List Bytes) (d : Bytes) :
    let r := newDiscoveryRegistry.run ops
    let m := ops.foldl RegistryMap.apply fun _ => none
    r.view = m ∧ (∀ k e, m k = some e → e.profile.agentID = k) ∧
    ((r.findByCapability t required).Nodup ∧ ∀ p, p ∈ r.findByCapability t required ↔
      ∃ k e, m k = some e ∧ e.live t ∧ (∀ c ∈ required, c ∈ e.profile.capabilities) ∧ e.profile = p) ∧
    ((r.all t).Nodup ∧ ∀ p, p ∈ r.all t ↔ ∃ k e, m k = some e ∧ e.live t ∧ e.profile = p) ∧
    ((r.findByDID t d).isSome ↔ ∃ k e, m k = some e ∧ e.live t ∧ e.profile.did = d) ∧
    (∀ p, r.findByDID t d = some p → ∃ k e, m k = some e ∧ e.live t ∧ e.profile = p ∧ p.did = d) ∧
    (r.evict t).1.view = m.apply (.evict t) ∧
    (r.evict t).2 + (r.evict t).1.entries.entries.length = r.entries.entries.length ∧
    (r.evict t).1.findByCapability t required = r.findByCapability t required ∧
    (r.evict t).1.all t = r.all t ∧ (r.evict t).1.findByDID t d = r.findByDID t d := by
  intro r m
  have view : r.view = m := by rw [view_run, view_new]
  have keyed : r.Keyed := DiscoveryRegistry.keyed_new.run ops
  rw [← view]
  refine ⟨rfl, fun k e found => (keyed ⟨k, e⟩ (AList.mem_lookup_iff.mp found)).symm,
    ⟨keyed.nodup_profiles (List.filter_sublist _), fun _ => mem_findByCapability⟩,
    ⟨keyed.nodup_profiles (List.filter_sublist _), fun _ => mem_all⟩, findByDID_isSome,
    fun _ found => findByDID_some found, view_evict r t, evict_count r t, evict_findByCapability r t required,
    evict_all r t, evict_findByDID r t d⟩

end Symplex.Core
