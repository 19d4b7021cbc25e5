import PacingFabric.Theorems.Identities
import PacingFabric.Theorems.Slots

/-!
# The size of the tables

Whatever is asked of a coordinator and whatever it finds on disk, its registries stay within
the bounds it is configured with, dead slots included, and no load makes the envelope table
larger than its bound or than the start left it.

## Main definitions

* `Fabric.Bounded`: the registries are within their bounds.

## Main results

* `tables_bounded`: in every reachable state, and over every run from it within an incarnation.
-/

namespace Pacing

open Interleaving

/-! ### Registries -/

namespace BindingRegistry

variable {limits : Limits} {registry : BindingRegistry}

theorem bind_bounded (h : registry.length ≤ limits.maxFlows.toNat) (binding : FlowBinding) :
    (bind limits registry binding).2.length ≤ limits.maxFlows.toNat := by
  unfold bind
  dsimp only
  split
  · exact h
  split
  · split
    · exact h
    split
    · split
      · exact h
      · exact List.length_set.trans_le h
    · exact List.length_set.trans_le h
  split
  · exact h
  · rename_i hroom
    rw [List.length_append]
    exact Nat.lt_of_not_le hroom

theorem restore_bounded (h : registry.length ≤ limits.maxFlows.toNat) (binding : FlowBinding) :
    (restore limits registry binding).2.length ≤ limits.maxFlows.toNat := by
  unfold restore
  split
  · exact h
  split
  · exact List.length_set.trans_le h
  split
  · exact h
  · rename_i hroom
    rw [List.length_append]
    exact Nat.lt_of_not_le hroom

theorem length_unbind (registry : BindingRegistry) (flow : FlowId) :
    (unbind registry flow).2.length = registry.length := by
  unfold unbind
  split
  · exact List.length_modify ..
  · rfl

end BindingRegistry

namespace PolicyStore

variable {limits : Limits} {store : PolicyStore}

theorem length_republish (i : ℕ) (entry : PolicyEntry) (policy : PacingPolicy) :
    (republish limits store i entry policy).2.length = store.length := by
  unfold republish
  dsimp only
  split
  · rfl
  split
  · split
    · rfl
    · exact List.length_set
  · exact List.length_set

theorem publish_bounded (h : store.length ≤ limits.maxPolicies.toNat) (policy : PacingPolicy) :
    (publish limits store policy).2.length ≤ limits.maxPolicies.toNat := by
  unfold publish
  dsimp only
  split
  · exact h
  split
  · exact (length_republish _ _ _).trans_le h
  split
  · exact h
  · rename_i hroom
    rw [List.length_append]
    exact Nat.lt_of_not_le hroom

theorem restore_bounded (h : store.length ≤ limits.maxPolicies.toNat) (policy : PacingPolicy) :
    (restore limits store policy).2.length ≤ limits.maxPolicies.toNat := by
  unfold restore
  dsimp only
  split
  · exact h
  split
  · exact List.length_set.trans_le h
  split
  · exact h
  · rename_i hroom
    rw [List.length_append]
    exact Nat.lt_of_not_le hroom

theorem length_remove (store : PolicyStore) (id : PolicyId) :
    (remove store id).2.length = store.length := by
  unfold remove
  split
  · exact List.length_modify ..
  · rfl

end PolicyStore

/-! ### Steps -/

/-- The registries are within the bounds of the configuration. -/
structure Fabric.Bounded (f : Fabric) : Prop where
  bindings : f.bindings.length ≤ f.config.limits.maxFlows.toNat
  policies : f.policies.length ≤ f.config.limits.maxPolicies.toNat
  backends : f.backends.length ≤ f.config.limits.maxBackends.toNat

namespace Fabric

variable {f : Fabric} {a : Answers}

theorem bindFlow_bounded (h : f.Bounded) (now : Instant) (binding : FlowBinding) :
    (f.bindFlow a now binding).2.bindings.length ≤ f.config.limits.maxFlows.toNat := by
  have hbound := BindingRegistry.bind_bounded h.bindings binding
  unfold bindFlow
  split
  · exact h.bindings
  dsimp only
  split
  · exact hbound
  split
  · exact hbound
  split <;> exact hbound

theorem unbindFlow_bounded (h : f.Bounded) (now : Instant) (flow : FlowId) :
    (f.unbindFlow a now flow).2.bindings.length ≤ f.config.limits.maxFlows.toNat := by
  have hbound := (BindingRegistry.length_unbind f.bindings flow).trans_le h.bindings
  unfold unbindFlow
  split
  · exact h.bindings
  dsimp only
  split
  · exact hbound
  split <;> exact hbound

theorem publishPolicy_bounded (h : f.Bounded) (now : Instant) (policy : PacingPolicy) :
    (f.publishPolicy a now policy).2.policies.length ≤ f.config.limits.maxPolicies.toNat := by
  have hbound := PolicyStore.publish_bounded h.policies
  unfold publishPolicy
  split
  · exact h.policies
  dsimp only
  split
  · exact hbound _
  split
  · exact hbound _
  split <;> exact hbound _

theorem removePolicy_bounded (h : f.Bounded) (now : Instant) (id : PolicyId) :
    (f.removePolicy a now id).2.policies.length ≤ f.config.limits.maxPolicies.toNat := by
  have hbound := (PolicyStore.length_remove f.policies id).trans_le h.policies
  unfold removePolicy
  split
  · exact h.policies
  dsimp only
  split
  · exact hbound
  split <;> exact hbound

theorem registerBackend_bounded (h : f.Bounded) (now : Instant) (backend : BackendPtr)
    (desc : BackendDescriptor) :
    (f.registerBackend a now backend desc).2.backends.length ≤
      f.config.limits.maxBackends.toNat := by
  unfold registerBackend
  split
  · exact h.backends
  dsimp only
  split
  · exact h.backends
  rename_i hroom
  cases hfind : f.backends.findIdx? (fun b : BackendId × BackendPtr => b.1 == desc.ref.id) with
  | some i => split <;> exact List.length_set.trans_le h.backends
  | none =>
    rw [hfind] at hroom
    have hlength : (f.backends ++ [(desc.ref.id, backend)]).length ≤
        f.config.limits.maxBackends.toNat := by
      rw [List.length_append]
      exact Nat.lt_of_not_le (by simpa using hroom)
    split <;> exact hlength

theorem unregisterBackend_bounded (h : f.Bounded) (id : BackendId) :
    (f.unregisterBackend id).2.backends.length ≤ f.config.limits.maxBackends.toNat := by
  unfold unregisterBackend
  split
  · exact h.backends
  · exact (List.length_eraseIdx_le ..).trans h.backends

theorem Bounded.step (h : f.Bounded) (k : Call) : (Call.step f a k).1.Bounded := by
  have hframe := Call.step_frame f a k
  refine ⟨?_, ?_, ?_⟩ <;> rw [hframe.config]
  · cases hwrites : k.writesBindings with
    | false => exact (congrArg List.length (hframe.bindings hwrites)).trans_le h.bindings
    | true =>
      cases k with
      | locked request now =>
        rw [show (Call.step f a (.locked request now)).1 = Call.lockedState f a now request from
          Call.lockedStep_fst f a now request]
        cases request with
        | bindFlow binding => exact bindFlow_bounded h now binding
        | unbindFlow flow => exact unbindFlow_bounded h now flow
        | _ => cases hwrites
      | _ => cases hwrites
  · cases hwrites : k.writesPolicies with
    | false => exact (congrArg List.length (hframe.policies hwrites)).trans_le h.policies
    | true =>
      cases k with
      | locked request now =>
        rw [show (Call.step f a (.locked request now)).1 = Call.lockedState f a now request from
          Call.lockedStep_fst f a now request]
        cases request with
        | publishPolicy policy => exact publishPolicy_bounded h now policy
        | removePolicy id => exact removePolicy_bounded h now id
        | _ => cases hwrites
      | _ => cases hwrites
  · cases hwrites : k.writesBackends with
    | false => exact (congrArg List.length (hframe.backends hwrites)).trans_le h.backends
    | true =>
      cases k with
      | register now backend desc =>
        rw [show (Call.step f a (.register now backend desc)).1 =
          (f.registerBackend a now backend desc).2 from rfl]
        exact registerBackend_bounded h now backend desc
      | locked request now =>
        rw [show (Call.step f a (.locked request now)).1 = Call.lockedState f a now request from
          Call.lockedStep_fst f a now request]
        cases request with
        | unregisterBackend id => exact unregisterBackend_bounded h id
        | _ => cases hwrites
      | clear => exact Nat.zero_le _
      | _ => cases hwrites

/-! ### Starts -/

end Fabric

/-- No record of a log, whatever it holds, makes a registry larger than its bound. -/
theorem Replay.record_bounded {s : Replay} (h : s.fabric.Bounded) (nonce : UInt64)
    (record : DurableRecord) : (Replay.record nonce s record).fabric.Bounded := by
  obtain ⟨hbindings, hpolicies, hbackends⟩ := h
  unfold Replay.record
  cases record.type with
  | flowBinding =>
    dsimp only
    split
    · exact ⟨hbindings, hpolicies, hbackends⟩
    · exact ⟨BindingRegistry.restore_bounded hbindings _, hpolicies, hbackends⟩
  | policy =>
    dsimp only
    split
    · exact ⟨hbindings, hpolicies, hbackends⟩
    · exact ⟨hbindings, PolicyStore.restore_bounded hpolicies _, hbackends⟩
  | flowUnbound =>
    dsimp only
    split
    · exact ⟨hbindings, hpolicies, hbackends⟩
    · exact ⟨(BindingRegistry.length_unbind _ _).trans_le hbindings, hpolicies, hbackends⟩
  | policyRemoved =>
    dsimp only
    split
    · exact ⟨hbindings, hpolicies, hbackends⟩
    · exact ⟨hbindings, (PolicyStore.length_remove _ _).trans_le hpolicies, hbackends⟩
  | envelope =>
    dsimp only [Replay.envelope]
    split
    · exact ⟨hbindings, hpolicies, hbackends⟩
    · split <;> exact ⟨hbindings, hpolicies, hbackends⟩
  | attempt =>
    dsimp only [Replay.attempt]
    split
    · exact ⟨hbindings, hpolicies, hbackends⟩
    · split <;> exact ⟨hbindings, hpolicies, hbackends⟩
  | envelopeRevocation =>
    dsimp only [Replay.revocation]
    split
    · exact ⟨hbindings, hpolicies, hbackends⟩
    · split <;> exact ⟨hbindings, hpolicies, hbackends⟩
  | epochAdvance | backendRegistration =>
    dsimp only
    split <;> exact ⟨hbindings, hpolicies, hbackends⟩
  | metaRecord | unlisted => exact ⟨hbindings, hpolicies, hbackends⟩

namespace Fabric

variable {f : Fabric} {a : Answers}

theorem replay_bounded (h : f.Bounded) (records : List DurableRecord) :
    (f.replay a records).fabric.Bounded :=
  List.foldlRecOn records (Replay.record (nonZeroNonce (a.nonce 1)))
    (motive := fun s : Replay => s.fabric.Bounded) h
    fun _ hs record _ => Replay.record_bounded hs _ record

/-- A start leaves the registries within their bounds, whatever is on disk. -/
theorem initializeFabric_bounded (config : FabricConfig) (disk : Disk) :
    ((construct config disk).initializeFabric a).2.Bounded := by
  rcases initializeFabric_cases a config disk with ⟨_, _, _, _, _, _, _, heq, -⟩ |
    ⟨store, disk', _, _, _, -, -, heq⟩
  · rw [heq]
    exact ⟨Nat.zero_le _, Nat.zero_le _, Nat.zero_le _⟩
  · rw [heq]
    have hbegun : ((opened a config disk' store).beginRecovery a store.recovered).Bounded :=
      ⟨Nat.zero_le _, Nat.zero_le _, Nat.zero_le _⟩
    have hbounded := replay_bounded (a := a) hbegun store.recovered
    have hrecovers := recover_recovers a (opened a config disk' store) store.recovered
    generalize (opened a config disk' store).recover a store.recovered = result at hrecovers ⊢
    generalize ((opened a config disk' store).beginRecovery a store.recovered).replay a
      store.recovered = replay at hbounded hrecovers
    obtain ⟨hbindings, hpolicies, hbackends⟩ := hbounded
    cases hrecovers with
    | exhausted => exact ⟨hbindings, hpolicies, hbackends⟩
    | settled =>
      obtain ⟨_, _, _, _, _, _, hsettle⟩ := settle_frame (f := { replay.fabric.countRestored with
        epoch := _, boot := _, recovery := _ }) a replay
      rw [hsettle]
      exact ⟨hbindings, hpolicies, hbackends⟩

/-! ### The envelope table -/

theorem slotsKept_le : f.slotsKept ≤ f.envelopes.entries.length := by
  unfold slotsKept
  split
  · exact List.length_filter_le ..
  · exact le_rfl

/-- No step makes the envelope table larger than it was or than its bound. -/
theorem step_envelopes_le (k : Call) : (Call.step f a k).1.envelopes.entries.length ≤
    max f.envelopes.entries.length f.config.limits.maxEnvelopes.toNat := by
  have hkept : f.evictAndCompact.envelopes.entries.length = f.slotsKept :=
    (length_evictAndCompact f).trans (length_compactTables f)
  have hslots := Call.step_slots (f := f) (a := a) k
  generalize (Call.step f a k).1.envelopes = t at hslots ⊢
  cases hslots with
  | restamped same =>
    have hlength : t.entries.length = f.envelopes.entries.length := by
      simpa using congrArg List.length same.slots
    exact hlength.trans_le (le_max_left _ _)
  | evicted => exact (hkept.trans_le slotsKept_le).trans (le_max_left _ _)
  | inserted inputs now envelope _ _ room =>
    have hlength : (f.evictAndCompact.envelopes.insert envelope).entries.length =
        f.slotsKept + 1 := by
      rw [← hkept]
      exact List.length_append
    exact (hlength.trans_le (Nat.lt_of_not_le room)).trans (le_max_right _ _)

end Fabric

theorem World.Reachable.bounded {w : World} (h : w.Reachable) : w.shared.Bounded := by
  obtain ⟨n, hrun⟩ := h
  refine hrun.invariant (I := fun w => w.shared.Bounded)
    ⟨Nat.zero_le _, Nat.zero_le _, Nat.zero_le _⟩ ?_
  intro w e w' hw _ hs
  cases hs with
  | start _ => exact hw
  | move _ => exact hw.step _
  | restart hr =>
    obtain ⟨config, a, rfl⟩ := hr
    exact Fabric.initializeFabric_bounded config _

/-- Over every run, and after a start over any files at all, the registries stay within their
bounds, and within an incarnation the envelope table does not outgrow its own. -/
theorem tables_bounded {w₀ w : World}
    (h₀ : w₀.Reachable ∨ ∃ config disk a,
      w₀ = .idle ((Fabric.construct config disk).initializeFabric a).2)
    {n : ℕ} (h : Run coordinator withinIncarnation w₀ n w) :
    w.shared.Bounded ∧ w.shared.envelopes.entries.length ≤
      max w₀.shared.envelopes.entries.length w.shared.config.limits.maxEnvelopes.toNat := by
  have hbounded₀ : w₀.shared.Bounded := by
    rcases h₀ with h₀ | ⟨config, disk, a, rfl⟩
    · exact h₀.bounded
    · exact Fabric.initializeFabric_bounded config disk
  refine h.invariant (I := fun w => w.shared.Bounded ∧ w.shared.envelopes.entries.length ≤
    max w₀.shared.envelopes.entries.length w.shared.config.limits.maxEnvelopes.toNat)
    ⟨hbounded₀, le_max_left _ _⟩ ?_
  rintro w e w' ⟨hbounded, hlength⟩ hok hs
  cases hs with
  | start _ => exact ⟨hbounded, hlength⟩
  | @move i k a here =>
    refine ⟨hbounded.step k, ?_⟩
    change (Call.step w.shared a k).1.envelopes.entries.length ≤
      max _ (Call.step w.shared a k).1.config.limits.maxEnvelopes.toNat
    rw [(Call.step_frame w.shared a k).config]
    exact (Fabric.step_envelopes_le k).trans (max_le hlength (le_max_right _ _))
  | restart => exact hok.elim

/-- A coordinator with one envelope. -/
theorem tables_bounded_setup :
    let w := coordinator.exec Scenario.started Scenario.setup
    w.shared.Bounded ∧ w.shared.envelopes.entries.length = 1 ∧ w.shared.envelopes.entries.length ≤
      max Scenario.started.shared.envelopes.entries.length
        w.shared.config.limits.maxEnvelopes.toNat := by
  obtain ⟨n, hn⟩ := coordinator.run_exec Scenario.started Scenario.setup
  have hreachable : World.Reachable Scenario.started := by
    have hzero : Run coordinator anyStep Scenario.started 0 Scenario.started := .zero
    exact Scenario.run_started (by trivial) hzero
  have hone : (coordinator.exec Scenario.started
      Scenario.setup).shared.envelopes.entries.length = 1 := by decide +kernel
  obtain ⟨hbounded, hlength⟩ := tables_bounded (.inl hreachable) hn
  exact ⟨hbounded, hone, hlength⟩

end Pacing
