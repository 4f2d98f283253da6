import Symplex.Discovery.Registry

namespace Symplex.Core

def maxTTLSeconds : Int := 9223372036

theorem toInt_mul_second {ttl : BitVec 64} (positive : 0 < ttl.toInt) (fits : ttl.toInt ≤ maxTTLSeconds) :
    (ttl * 1000000000).toInt = ttl.toInt * 1000000000 := by
  unfold maxTTLSeconds at fits
  rw [BitVec.toInt_eq_toNat_cond] at positive fits ⊢
  rw [BitVec.toInt_eq_toNat_cond ttl, BitVec.toNat_mul, show (1000000000 : BitVec 64).toNat = 1000000000 from rfl]
  split_ifs at positive fits ⊢ <;> omega

/-- An entry announced at `t0` with a TTL that fits is expired at `t` exactly when `t` is past
`t0` plus the TTL. -/
theorem announce_isExpired_iff (r : DiscoveryRegistry) (profile : AgentProfile) (ttl : BitVec 64) (t0 t : Int)
    (positive : 0 < ttl.toInt) (fits : ttl.toInt ≤ maxTTLSeconds) :
    ∃ e, (r.announce profile ttl t0).view profile.agentID = some e ∧
      (e.isExpired t = true ↔ t0 + ttl.toInt * 1000000000 < t) := by
  refine ⟨_, by rw [view_announce, Function.update_same], ?_⟩
  simp only [RegistryEntry.isExpired, expiresAfter, if_pos positive, toInt_mul_second positive fits,
    decide_eq_true_eq]

theorem announce_isExpired_iff_minute :
    0 < (60 : BitVec 64).toInt ∧ (60 : BitVec 64).toInt ≤ maxTTLSeconds ∧
      ∃ e, (newDiscoveryRegistry.announce ⟨[], [], [], [], []⟩ 60 0).view [] = some e ∧
        (e.isExpired 60000000001 = true ↔ 0 + (60 : BitVec 64).toInt * 1000000000 < 60000000001) :=
  ⟨by decide, by decide,
    announce_isExpired_iff newDiscoveryRegistry ⟨[], [], [], [], []⟩ 60 0 60000000001 (by decide) (by decide)⟩

theorem expiresAfter_wraps (now : Int) : expiresAfter 9223372037 now = some (now - 9223372036709551616) := by
  rw [expiresAfter, if_pos (by decide), show (9223372037 * 1000000000 : BitVec 64).toInt = -9223372036709551616 by
    decide, Int.sub_eq_add_neg]

/-- A TTL one past `maxTTLSeconds`, whether given to `Announce` or read from the wire by
`AnnounceFromMessage`, gives an entry that is expired the moment it is announced, while the same
profile announced with a TTL of one second is live. -/
theorem announce_wrapped_ttl_expired (r : DiscoveryRegistry) (profile : AgentProfile) (msg : CapabilityAnnouncement)
    (t0 : Int) :
    (∃ e, (r.announce profile 9223372037 t0).view profile.agentID = some e ∧ e.isExpired t0 = true) ∧
      (∃ e, (r.announceFromMessage { msg with ttl := 9223372037 } t0).view msg.agentID = some e ∧
        e.isExpired t0 = true) ∧
      ∃ e, (r.announce profile 1 t0).view profile.agentID = some e ∧ e.isExpired t0 = false := by
  refine ⟨⟨_, by rw [view_announce, Function.update_same], ?_⟩, ⟨_, by
    rw [DiscoveryRegistry.announceFromMessage, view_announce, Function.update_same], ?_⟩, ?_⟩
  · simp only [RegistryEntry.isExpired, expiresAfter_wraps, decide_eq_true_eq]
    omega
  · rw [show ({ msg with ttl := 9223372037 } : CapabilityAnnouncement).ttl = 9223372037 from rfl]
    simp only [RegistryEntry.isExpired, expiresAfter_wraps, decide_eq_true_eq]
    omega
  · refine ⟨_, by rw [view_announce, Function.update_same], ?_⟩
    simp only [RegistryEntry.isExpired, expiresAfter, if_pos (show 0 < (1 : BitVec 64).toInt by decide),
      show ((1 : BitVec 64) * 1000000000).toInt = 1000000000 by decide, decide_eq_false_iff_not]
    omega

end Symplex.Core
