import PacingFabric.Storage.SlotTable
import PacingFabric.Theorems.Journaling

/-!
# The registries as finite maps

Bindings and policies live in tables of slots that are marked dead rather than removed. The
two treat dead slots differently: `bind` leaves a dead slot behind and fills a new one,
`publish` fills the slot of its policy again. Read through `get`, each operation writes
one key.

## Main definitions

* `BindingRegistry.bound`, `PolicyStore.published`: what `get` finds, by flow and by policy.
* `BindingRegistry.Binds`, `PolicyStore.Publishes`: how `bind` and `publish` end.

## Main results

* `BindingRegistry.unbind_bound`: what unbinding does to the flows.
* `PolicyStore.publish_published`, `PolicyStore.remove_published`: the operations on policies.
-/

namespace Pacing

open SlotTable

variable {limits : Limits}

theorem Generation.lt_next {g : Generation} (h : g.next.2 = false) :
    g.value < g.next.1.value := by
  unfold Generation.next at h ⊢
  split at h
  · cases h
  · rename_i hlast
    rw [if_neg hlast]
    exact UInt64.lt_add_one fun heq => hlast (by rw [heq]; rfl)

/-! ### Bindings -/

namespace BindingRegistry
variable {registry : BindingRegistry} {binding : FlowBinding} {flow : FlowId}

/-- The key of a slot. -/
def key (entry : BindingEntry) : FlowId := entry.binding.flow

/-- Live slots are of different flows. -/
abbrev Apart (registry : BindingRegistry) : Prop := SlotTable.Apart key (·.live) registry

/-- The binding of each flow, as `get` finds it. -/
def bound (registry : BindingRegistry) (flow : FlowId) : Option FlowBinding :=
  (lookup key (·.live) registry flow).map (·.binding)

/-- Writing one slot writes one flow. -/
theorem bound_write (h : registry.Apart) {i : ℕ} {t : BindingEntry} {registry' : BindingRegistry}
    (hw : Writes key (·.live) registry i t registry') :
    registry'.bound = Function.update registry.bound t.binding.flow
      (if t.live then some t.binding else none) := by
  funext flow
  unfold bound
  rw [h.lookup_write hw, show key t = t.binding.flow from rfl]
  by_cases hflow : flow = t.binding.flow
  · subst hflow
    rw [Function.update_self, Function.update_self]
    cases t.live <;> rfl
  · rw [Function.update_of_ne hflow, Function.update_of_ne hflow]

/-- A live slot of the flow, when there is one. -/
theorem holds_iff {entry : BindingEntry} :
    holds flow entry = true ↔ entry.live = true ∧ key entry = flow := by
  simp [holds, key]

/-- How `bind` ends. -/
inductive Binds (limits : Limits) (registry : BindingRegistry) (binding : FlowBinding) :
    Status × BindingRegistry → Prop
  | invalid (bad : (check limits binding).isOk = false) :
      Binds limits registry binding (check limits binding, registry)
  | exhausted {entry : BindingEntry} (found : entry ∈ registry)
      (holds : holds binding.flow entry = true) :
      Binds limits registry binding
        (.of .resourceExhausted "binding generation exhausted", registry)
  | full (new : ∀ e ∈ registry, BindingRegistry.holds binding.flow e = false)
      (spent : limits.maxFlows.toNat ≤ registry.length) :
      Binds limits registry binding (.of .resourceExhausted "binding registry is full", registry)
  | rebound {i : ℕ} {entry : BindingEntry} {generation : Generation}
      (found : registry[i]? = some entry) (holds : holds binding.flow entry = true)
      (newer : entry.binding.generation.value < generation.value) :
      Binds limits registry binding (.success, registry.set i
        { entry with binding := { binding with generation := generation } })
  | bound {generation : Generation}
      (new : ∀ e ∈ registry, BindingRegistry.holds binding.flow e = false)
      (room : registry.length < limits.maxFlows.toNat) :
      Binds limits registry binding
        (.success, registry ++ [⟨{ binding with generation := generation }, true⟩])

theorem defaulted_eq (binding : FlowBinding) :
    ∃ generation, defaulted binding = { binding with generation := generation } := by
  unfold defaulted
  split
  · exact ⟨.first, rfl⟩
  · exact ⟨binding.generation, rfl⟩

theorem bind_binds (limits : Limits) (registry : BindingRegistry) (binding : FlowBinding) :
    Binds limits registry binding (bind limits registry binding) := by
  obtain ⟨generation, hdefaulted⟩ := defaulted_eq binding
  unfold bind
  dsimp only
  rw [hdefaulted]
  split
  · rename_i hinvalid
    exact .invalid (by simpa using hinvalid)
  cases hfind : registry.findIdx? (holds binding.flow) with
  | none =>
    have hnew : ∀ e ∈ registry, holds binding.flow e = false := List.findIdx?_eq_none_iff.1 hfind
    dsimp only
    split
    · rename_i hfull
      exact .full hnew hfull
    · rename_i hroom
      exact .bound hnew (Nat.lt_of_not_le hroom)
  | some i =>
    obtain ⟨entry, hentry, hholds⟩ := getElem?_of_findIdx? hfind
    dsimp only
    rw [hentry]
    dsimp only
    -- a generation that is not later is replaced by the next one, if there is one
    split
    · split
      · exact .exhausted (List.mem_of_getElem? hentry) hholds
      · rename_i hexhausted
        exact .rebound hentry hholds (Generation.lt_next (Bool.eq_false_iff.2 hexhausted))
    · rename_i hgt
      exact .rebound hentry hholds (UInt64.not_le.1 hgt)

/-- `bind` fills a live slot of its flow, or a new one. -/
theorem bind_writes (h : registry.Apart) (hok : (bind limits registry binding).1.isOk = true) :
    ∃ i t, Writes key (·.live) registry i t (bind limits registry binding).2 ∧
      t.live = true ∧ t.binding.flow = binding.flow ∧
      (registry.length ≤ limits.maxFlows.toNat →
        (bind limits registry binding).2.length ≤ limits.maxFlows.toNat) := by
  have hbinds := bind_binds limits registry binding
  generalize bind limits registry binding = result at hbinds hok ⊢
  cases hbinds with
  | invalid bad => exact absurd hok (Bool.eq_false_iff.1 bad)
  | exhausted | full => cases hok
  | @rebound i entry generation found held newer =>
    obtain ⟨hlive, hkey⟩ := holds_iff.1 held
    refine ⟨i, _, Writes.set found hkey fun j u hj hu hulive hukey => ?_, hlive, rfl,
      fun hle => ?_⟩
    · exact hj (h j i u entry hu found hulive hlive (hukey.trans hkey.symm))
    · rw [List.length_set]
      exact hle
  | bound new room =>
    refine ⟨_, _, Writes.concat fun j u hu hulive hukey => ?_, rfl, rfl, fun _ => ?_⟩
    · have hheld : holds binding.flow u = true := holds_iff.2 ⟨hulive, hukey⟩
      rw [new u (List.mem_of_getElem? hu)] at hheld
      cases hheld
    · rw [List.length_append, List.length_singleton]
      exact room

/-- `unbind` marks the live slot of its flow. -/
theorem unbind_writes (h : registry.Apart) (hok : (unbind registry flow).1.isOk = true) :
    ∃ i t, Writes key (·.live) registry i t (unbind registry flow).2 ∧
      t.live = false ∧ t.binding.flow = flow ∧
      (unbind registry flow).2.length = registry.length := by
  unfold unbind at hok ⊢
  cases hfind : registry.findIdx? (holds flow) with
  | none =>
    rw [hfind] at hok
    cases hok
  | some i =>
    obtain ⟨entry, hentry, hholds⟩ := getElem?_of_findIdx? hfind
    obtain ⟨hlive, hkey⟩ := holds_iff.1 hholds
    dsimp only
    rw [modify_eq_set_of_getElem? _ hentry]
    refine ⟨i, { entry with live := false }, Writes.set hentry rfl ?_, rfl, hkey,
      List.length_set ..⟩
    intro j u hj hu hulive hukey
    exact hj (h j i u entry hu hentry hulive hlive hukey)

theorem unbind_bound (h : registry.Apart) (flow : FlowId) :
    (unbind registry flow).2.Apart ∧
      (unbind registry flow).2.bound = Function.update registry.bound flow none := by
  cases hok : (unbind registry flow).1.isOk with
  | true =>
    obtain ⟨i, t, hw, hlive, hflow, -⟩ := unbind_writes h hok
    have hbound := bound_write h hw
    rw [hlive, if_neg Bool.false_ne_true, hflow] at hbound
    exact ⟨h.write hw, hbound⟩
  | false =>
    unfold unbind at hok ⊢
    cases hfind : registry.findIdx? (holds flow) with
    | some i =>
      rw [hfind] at hok
      cases hok
    | none =>
      have hnone : registry.bound flow = none :=
        Option.map_eq_none_iff.2 (List.find?_eq_none.2 fun e he => by
          simpa [holds, key] using List.findIdx?_eq_none_iff.1 hfind e he)
      exact ⟨h, by rw [← hnone, Function.update_eq_self]⟩

end BindingRegistry

/-! ### Policies -/

namespace PolicyStore
variable {store : PolicyStore} {policy : PacingPolicy} {id : PolicyId}

/-- The key of a slot. -/
def key (entry : PolicyEntry) : PolicyId := entry.policy.ref.id

/-- The policy of each identity, as `get` finds it. -/
def published (store : PolicyStore) (id : PolicyId) : Option PacingPolicy :=
  (lookup key (·.live) store id).map (·.policy)

theorem get_eq (store : PolicyStore) (id : PolicyId) :
    store.get id = match store.published id with
      | some policy => .ok policy
      | none => .error (.of .notFound "policy not found") := by
  have hpublished : store.published id = (store.find? (holds id)).map (·.policy) := rfl
  rw [hpublished]
  unfold get
  cases store.find? (holds id) <;> rfl

/-- Writing one slot writes one policy. -/
theorem published_write (h : (store.map key).Nodup) {i : ℕ} {t : PolicyEntry}
    {store' : PolicyStore} (hw : Writes key (·.live) store i t store') :
    store'.published = Function.update store.published t.policy.ref.id
      (if t.live then some t.policy else none) := by
  funext id
  unfold published
  rw [(apart_of_nodup h).lookup_write hw, show key t = t.policy.ref.id from rfl]
  by_cases hid : id = t.policy.ref.id
  · subst hid
    rw [Function.update_self, Function.update_self]
    cases t.live <;> rfl
  · rw [Function.update_of_ne hid, Function.update_of_ne hid]

/-- How `publish` ends. -/
inductive Publishes (limits : Limits) (store : PolicyStore) (policy : PacingPolicy) :
    StatusOr PolicyRef × PolicyStore → Prop
  | invalid (bad : ((defaulted policy).validate limits).isOk = false) :
      Publishes limits store policy (.error ((defaulted policy).validate limits), store)
  | full (unheld : (store.map key).Nodup → ∀ e ∈ store, holds policy.ref.id e = false)
      (spent : limits.maxPolicies.toNat ≤ store.length) :
      Publishes limits store policy
        (.error (.of .resourceExhausted "policy store is full"), store)
  | exhausted {entry : PolicyEntry} (found : entry ∈ store)
      (named : key entry = policy.ref.id)
      (room : entry.live = true ∨ store.length < limits.maxPolicies.toNat) :
      Publishes limits store policy
        (.error (.of .resourceExhausted "policy generation exhausted"), store)
  | filled {i : ℕ} {entry : PolicyEntry} {generation : Generation}
      (found : store[i]? = some entry) (named : key entry = policy.ref.id)
      (room : entry.live = true ∨ store.length < limits.maxPolicies.toNat)
      (newer : entry.policy.ref.generation.value < generation.value) :
      Publishes limits store policy (.ok ⟨policy.ref.id, generation⟩,
        store.set i ⟨{ policy with ref := ⟨policy.ref.id, generation⟩ }, true⟩)
  | appended {generation : Generation} (fresh : policy.ref.id ∉ store.map key)
      (room : store.length < limits.maxPolicies.toNat) :
      Publishes limits store policy (.ok ⟨policy.ref.id, generation⟩,
        store ++ [⟨{ policy with ref := ⟨policy.ref.id, generation⟩ }, true⟩])

theorem defaulted_eq (policy : PacingPolicy) : ∃ generation,
    defaulted policy = { policy with ref := ⟨policy.ref.id, generation⟩ } := by
  unfold defaulted
  split
  · exact ⟨.first, rfl⟩
  · exact ⟨policy.ref.generation, rfl⟩

theorem publish_publishes (limits : Limits) (store : PolicyStore) (policy : PacingPolicy) :
    Publishes limits store policy (publish limits store policy) := by
  obtain ⟨generation, hdefaulted⟩ := defaulted_eq policy
  have hinvalid := @Publishes.invalid limits store policy
  unfold publish
  dsimp only
  rw [hdefaulted] at hinvalid ⊢
  split
  · rename_i hbad
    exact hinvalid (by simpa using hbad)
  cases hfind : store.findIdx? (names policy.ref.id) with
  | none =>
    have hfresh : policy.ref.id ∉ store.map key := key_not_mem hfind
    rw [find?_of_findIdx?_none hfind]
    dsimp only
    split
    · rename_i hfull
      refine .full (fun _ e he => ?_) hfull
      have hother := List.findIdx?_eq_none_iff.1 hfind e he
      simp [holds, hother]
    · rename_i hroom
      exact .appended hfresh (Nat.lt_of_not_le hroom)
  | some i =>
    obtain ⟨entry, hentry, hname⟩ := getElem?_of_findIdx? hfind
    have hkey : key entry = policy.ref.id := eq_of_beq hname
    rw [find?_of_findIdx? hfind, hentry]
    dsimp only
    unfold republish
    split
    · rename_i hfull
      simp only [Bool.and_eq_true, Bool.not_eq_true', decide_eq_true_eq] at hfull
      refine .full (fun h e he => ?_) hfull.2
      -- the slot of the policy is dead, and no other slot names it
      obtain ⟨j, hj⟩ := List.mem_iff_getElem?.1 he
      by_contra hheld
      rw [Bool.not_eq_false, holds, Bool.and_eq_true] at hheld
      obtain rfl := slot_inj h hj hentry ((eq_of_beq hheld.2).trans hkey.symm)
      obtain rfl := Option.some.inj (hj.symm.trans hentry)
      rw [hheld.1] at hfull
      cases hfull.1
    rename_i hnotFull
    have hroom : entry.live = true ∨ store.length < limits.maxPolicies.toNat := by
      by_contra hno
      rw [not_or, Bool.not_eq_true, Nat.not_lt] at hno
      exact hnotFull (by simp [hno.1, hno.2])
    split
    · dsimp only
      split
      · exact .exhausted (List.mem_of_getElem? hentry) hkey hroom
      · rename_i hexhausted
        exact .filled hentry hkey hroom (Generation.lt_next (Bool.eq_false_iff.2 hexhausted))
    · rename_i hgt
      exact .filled hentry hkey hroom (UInt64.not_le.1 hgt)

/-- `publish` fills the slot of its policy, whatever its mark, or a new one. -/
theorem publish_writes (h : (store.map key).Nodup) {ref : PolicyRef}
    (hok : (publish limits store policy).1 = .ok ref) :
    ∃ i t, Writes key (·.live) store i t (publish limits store policy).2 ∧
      t.live = true ∧ t.policy.ref = ref ∧
      ((publish limits store policy).2.map key).Nodup ∧
      (store.length ≤ limits.maxPolicies.toNat →
        (publish limits store policy).2.length ≤ limits.maxPolicies.toNat) := by
  have hpublishes := publish_publishes limits store policy
  generalize publish limits store policy = result at hpublishes hok ⊢
  cases hpublishes with
  | invalid | full | exhausted => cases hok
  | @filled i entry generation found named room newer =>
    obtain rfl := Except.ok.inj hok
    have hkey : key entry = key ⟨{ policy with ref := ⟨policy.ref.id, generation⟩ }, true⟩ := named
    refine ⟨i, _, Writes.set_of_nodup h found hkey, rfl, rfl, ?_, fun hle => ?_⟩
    · rw [map_key_set found hkey]
      exact h
    · rw [List.length_set]
      exact hle
  | appended fresh room =>
    obtain rfl := Except.ok.inj hok
    refine ⟨_, _, Writes.concat_of_fresh fresh, rfl, rfl, nodup_concat h fresh, fun _ => ?_⟩
    rw [List.length_append, List.length_singleton]
    exact room

/-- A published policy: `get` finds what was stored. -/
theorem publish_published (h : (store.map key).Nodup) {ref : PolicyRef}
    (hok : (publish limits store policy).1 = .ok ref) :
    ∃ stored, stored.ref = ref ∧ (publish limits store policy).2.get ref.id = .ok stored ∧
      (publish limits store policy).2.published =
        Function.update store.published ref.id (some stored) := by
  obtain ⟨i, t, hw, hlive, href, -⟩ := publish_writes h hok
  have hpublished := published_write h hw
  rw [hlive, if_pos rfl, href] at hpublished
  refine ⟨t.policy, href, ?_, hpublished⟩
  rw [get_eq, hpublished, Function.update_self]

/-- `remove` marks the live slot of its policy. -/
theorem remove_writes (h : (store.map key).Nodup) (hok : (remove store id).1.isOk = true) :
    ∃ i t, Writes key (·.live) store i t (remove store id).2 ∧ t.live = false ∧
      t.policy.ref.id = id ∧ (remove store id).2.map key = store.map key := by
  unfold remove at hok ⊢
  cases hfind : store.findIdx? (holds id) with
  | none =>
    rw [hfind] at hok
    cases hok
  | some i =>
    obtain ⟨entry, hentry, hholds⟩ := getElem?_of_findIdx? hfind
    have hid : key entry = id := by
      rw [holds, Bool.and_eq_true] at hholds
      exact eq_of_beq hholds.2
    dsimp only
    rw [modify_eq_set_of_getElem? _ hentry]
    exact ⟨i, { entry with live := false }, Writes.set_of_nodup h hentry rfl, rfl, hid,
      map_key_set hentry rfl⟩

theorem remove_published (h : (store.map key).Nodup) (id : PolicyId) :
    (remove store id).2.map key = store.map key ∧
      (remove store id).2.published = Function.update store.published id none := by
  cases hok : (remove store id).1.isOk with
  | true =>
    obtain ⟨i, t, hw, hlive, hid, hkeys⟩ := remove_writes h hok
    have hpublished := published_write h hw
    rw [hlive, if_neg Bool.false_ne_true, hid] at hpublished
    exact ⟨hkeys, hpublished⟩
  | false =>
    unfold remove at hok ⊢
    cases hfind : store.findIdx? (holds id) with
    | some i =>
      rw [hfind] at hok
      cases hok
    | none =>
      have hnone : store.published id = none :=
        Option.map_eq_none_iff.2 (List.find?_eq_none.2 fun e he => by
          simpa [holds, names, key] using List.findIdx?_eq_none_iff.1 hfind e he)
      exact ⟨rfl, by rw [← hnone, Function.update_eq_self]⟩

/-- `restore` fills the slot of its policy, whatever its mark, or a new one. -/
theorem restore_writes (h : (store.map key).Nodup) (hvalid : (policy.validate limits).isOk = true)
    (hroom : policy.ref.id ∈ store.map key ∨ store.length < limits.maxPolicies.toNat) :
    ∃ i, Writes key (·.live) store i ⟨policy, true⟩ (restore limits store policy).2 ∧
      ((restore limits store policy).2.map key).Nodup ∧
      ∀ k, k ∈ (restore limits store policy).2.map key →
        k ∈ store.map key ∨ k = policy.ref.id := by
  unfold restore
  dsimp only
  rw [if_neg (by simp [hvalid])]
  cases hfind : store.findIdx? (names policy.ref.id) with
  | none =>
    have hfresh : policy.ref.id ∉ store.map key := key_not_mem hfind
    dsimp only
    rw [if_neg (Nat.not_le.2 (hroom.resolve_left hfresh))]
    refine ⟨_, Writes.concat_of_fresh hfresh, nodup_concat h hfresh, fun k hk => ?_⟩
    rw [List.map_append, List.mem_append] at hk
    exact hk.imp_right List.mem_singleton.1
  | some i =>
    obtain ⟨entry, hentry, hname⟩ := getElem?_of_findIdx? hfind
    have hkey : key entry = key ⟨policy, true⟩ := eq_of_beq hname
    dsimp only
    rw [map_key_set hentry hkey]
    exact ⟨i, Writes.set_of_nodup h hentry hkey, h, fun k hk => .inl hk⟩

end PolicyStore

end Pacing
