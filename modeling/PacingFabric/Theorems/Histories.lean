import PacingFabric.Theorems.Registries

/-!
# Histories of the registries

What a registry holds is compared with what its callers were told, over every sequence of
calls. Policies behave as a map whose generations only grow. Bindings do too, except that
`quiesce` writes before it finds the generation exhausted; and neither registry takes a dead
slot back, so removals use up the room that the capacity counts.

## Main definitions

* `PolicyStore.History`: what the publishers of a store have been told.
* `BindingRegistry.run`, `PolicyStore.run`: sequences of calls.

## Main results

* `publications_kept`: the store holds what the history says.
* `refusals_justified_iff`: a registry is full only of live entries when no dead one is among
  its slots, or one was never filled.
* `refused_unchanged_iff`: a refused call leaves the registry alone unless it is a `quiesce`
  that finds the generation exhausted.
-/

namespace Pacing

open SlotTable

variable {limits : Limits}

/-- Of slots that are all filled, as many are live as the capacity counts when none is dead. -/
theorem spent_iff {σ : Type*} {live : σ → Bool} {xs : List σ} {capacity : ℕ}
    (hbounded : xs.length ≤ capacity) (hspent : capacity ≤ xs.length) :
    capacity ≤ (xs.filter live).length ↔ ∀ x ∈ xs, live x = true := by
  rw [← List.length_filter_eq_length_iff, ← Nat.le_antisymm hbounded hspent]
  exact ⟨fun h => Nat.le_antisymm (List.length_filter_le ..) h, fun h => h.ge⟩

/-! ### Policies and what was said of them -/

namespace PolicyStore

/-- A call on a store. -/
inductive Command
  | publish (policy : PacingPolicy)
  | remove (id : PolicyId)

/-- What the callers of a store have been told: every reference issued, and the policy that
each identity stands for. -/
structure History where
  issued : List PolicyRef := []
  current : PolicyId → Option PacingPolicy := fun _ => none

/-- The answer to one call, in a history. -/
def History.record (history : History) : Command → StatusOr PolicyRef ⊕ Status → History
  | .publish policy, .inl (.ok ref) =>
    { issued := ref :: history.issued
      current := Function.update history.current ref.id (some { policy with ref := ref }) }
  | .remove id, .inr status =>
    if status.isOk then { history with current := Function.update history.current id none }
    else history
  | _, _ => history

/-- One call. -/
def command (limits : Limits) (s : PolicyStore × History) : Command → PolicyStore × History
  | .publish policy =>
    let (answer, store) := publish limits s.1 policy
    (store, s.2.record (.publish policy) (.inl answer))
  | .remove id =>
    let (status, store) := remove s.1 id
    (store, s.2.record (.remove id) (.inr status))

/-- Calls one after another on an empty store. -/
def run (limits : Limits) (commands : List Command) : PolicyStore × History :=
  commands.foldl (command limits) ([], {})

/-- The store holds what the history says. -/
structure Agrees (limits : Limits) (s : PolicyStore × History) : Prop where
  nodup : (s.1.map key).Nodup
  bounded : s.1.length ≤ limits.maxPolicies.toNat
  current : s.1.published = s.2.current
  issued : ∀ ref ∈ s.2.issued, ∃ e ∈ s.1, key e = ref.id ∧
    ref.generation.value ≤ e.policy.ref.generation.value

variable {s : PolicyStore × History}

theorem Agrees.empty (limits : Limits) : Agrees limits ([], {}) where
  nodup := List.nodup_nil
  bounded := Nat.zero_le _
  current := rfl
  issued := fun _ h => by cases h

/-- Writing a slot with a newer generation, and saying so. -/
theorem Agrees.write (h : Agrees limits s) {policy : PacingPolicy} {ref : PolicyRef} {i : ℕ}
    {store : PolicyStore}
    (hw : Writes key (·.live) s.1 i ⟨{ policy with ref := ref }, true⟩ store)
    (hnodup : (store.map key).Nodup) (hbounded : store.length ≤ limits.maxPolicies.toNat)
    (hnewer : ∀ e, s.1[i]? = some e → e.policy.ref.generation.value < ref.generation.value) :
    Agrees limits (store, s.2.record (.publish policy) (.inl (.ok ref))) := by
  refine ⟨hnodup, hbounded, ?_, fun r hr => ?_⟩
  · have hpublished := published_write h.nodup hw
    rw [h.current] at hpublished
    exact hpublished
  · rcases List.mem_cons.1 hr with rfl | hr
    · exact ⟨_, List.mem_of_getElem? hw.here, rfl, UInt64.le_refl _⟩
    -- an older reference is bounded by its slot, which was written or left
    obtain ⟨e, he, hid, hle⟩ := h.issued r hr
    obtain ⟨j, hj⟩ := List.mem_iff_getElem?.1 he
    by_cases hji : j = i
    · subst hji
      exact ⟨_, List.mem_of_getElem? hw.here, (hw.before e hj).symm.trans hid,
        UInt64.le_of_lt (UInt64.lt_of_le_of_lt hle (hnewer e hj))⟩
    · exact ⟨e, List.mem_of_getElem? ((hw.others j hji).trans hj), hid, hle⟩

theorem Agrees.publish (h : Agrees limits s) (policy : PacingPolicy) :
    Agrees limits (command limits s (.publish policy)) := by
  have hpublishes := publish_publishes limits s.1 policy
  unfold command
  dsimp only
  generalize PolicyStore.publish limits s.1 policy = result at hpublishes ⊢
  cases hpublishes with
  | invalid | full | exhausted => exact ⟨h.nodup, h.bounded, h.current, h.issued⟩
  | @filled i entry generation found named room newer =>
    have hkey : key entry = key ⟨{ policy with ref := ⟨policy.ref.id, generation⟩ }, true⟩ := named
    refine h.write (.set_of_nodup h.nodup found hkey) ?_ ?_ fun e he => ?_
    · rw [map_key_set found hkey]
      exact h.nodup
    · rw [List.length_set]
      exact h.bounded
    · obtain rfl := Option.some.inj (found.symm.trans he)
      exact newer
  | appended fresh room =>
    refine h.write (.concat_of_fresh fresh) (nodup_concat h.nodup fresh) ?_ fun e he => ?_
    · rw [List.length_append, List.length_singleton]
      exact room
    · simp at he

/-- A removal keeps every policy in its slot. -/
theorem remove_policies (store : PolicyStore) (id : PolicyId) :
    (PolicyStore.remove store id).2.map (·.policy) = store.map (·.policy) := by
  unfold PolicyStore.remove
  cases hfind : store.findIdx? (holds id) with
  | none => rfl
  | some i =>
    obtain ⟨entry, hentry, -⟩ := getElem?_of_findIdx? hfind
    dsimp only
    rw [modify_eq_set_of_getElem? _ hentry]
    exact map_key_set hentry rfl

theorem remove_refused {id : PolicyId} (hrefused : (PolicyStore.remove store id).1.isOk = false) :
    (PolicyStore.remove store id).2 = store := by
  unfold PolicyStore.remove at hrefused ⊢
  cases hfind : store.findIdx? (holds id) with
  | none => rfl
  | some i =>
    rw [hfind] at hrefused
    cases hrefused

theorem Agrees.remove (h : Agrees limits s) (id : PolicyId) :
    Agrees limits (command limits s (.remove id)) := by
  unfold command
  dsimp only
  cases hok : (PolicyStore.remove s.1 id).1.isOk with
  | false =>
    rw [remove_refused hok]
    simp only [History.record, hok, Bool.false_eq_true, if_false]
    exact h
  | true =>
    obtain ⟨hkeys, hpublished⟩ := remove_published h.nodup id
    simp only [History.record, hok, if_true]
    refine ⟨?_, ?_, ?_, fun r hr => ?_⟩
    · rw [hkeys]
      exact h.nodup
    · have hlength := congrArg List.length hkeys
      rw [List.length_map, List.length_map] at hlength
      exact hlength.trans_le h.bounded
    · rw [hpublished, h.current]
    · obtain ⟨e, he, hid, hle⟩ := h.issued r hr
      -- the dead slot still has the generation of its last policy
      have hmem : e.policy ∈ (PolicyStore.remove s.1 id).2.map (·.policy) := by
        rw [remove_policies]
        exact List.mem_map_of_mem he
      obtain ⟨e', he', hsame⟩ := List.mem_map.1 hmem
      refine ⟨e', he', ?_, ?_⟩
      · rw [← hid]
        exact congrArg (·.ref.id) hsame
      · rw [hsame]
        exact hle

/-- The store holds what its callers were told, after any calls. -/
theorem run_agrees (limits : Limits) (commands : List Command) :
    Agrees limits (run limits commands) := by
  induction commands using List.reverseRecOn with
  | nil => exact .empty limits
  | append_singleton commands c ih =>
    unfold run at ih ⊢
    rw [List.foldl_append]
    cases c with
    | publish policy => exact ih.publish policy
    | remove id => exact ih.remove id

/-- A published generation is newer than every one issued for the policy. -/
theorem Agrees.newer (h : Agrees limits s) {policy : PacingPolicy} {ref : PolicyRef}
    (hok : (PolicyStore.publish limits s.1 policy).1 = .ok ref) :
    ref.id = policy.ref.id ∧
      ∀ r ∈ s.2.issued, r.id = ref.id → r.generation.value < ref.generation.value := by
  have hpublishes := publish_publishes limits s.1 policy
  generalize PolicyStore.publish limits s.1 policy = result at hpublishes hok
  cases hpublishes with
  | invalid | full | exhausted => cases hok
  | @filled i entry generation found named room newer =>
    obtain rfl := Except.ok.inj hok
    refine ⟨rfl, fun r hr hid => ?_⟩
    obtain ⟨e, he, hkey, hle⟩ := h.issued r hr
    obtain ⟨j, hj⟩ := List.mem_iff_getElem?.1 he
    obtain rfl := slot_inj h.nodup hj found ((hkey.trans hid).trans named.symm)
    obtain rfl := Option.some.inj (hj.symm.trans found)
    exact UInt64.lt_of_le_of_lt hle newer
  | appended fresh room =>
    obtain rfl := Except.ok.inj hok
    refine ⟨rfl, fun r hr hid => ?_⟩
    obtain ⟨e, he, hkey, -⟩ := h.issued r hr
    exact absurd (List.mem_map_of_mem he) ((hkey.trans hid) ▸ fresh)

/-- After any calls the store holds one slot a policy and `get` finds the policy last published
and not removed since; a publication is newer than all before it, or changes nothing. -/
theorem publications_kept (limits : Limits) (commands : List Command) :
    ((run limits commands).1.map key).Nodup ∧
    (∀ id, (run limits commands).1.get id =
      match (run limits commands).2.current id with
      | some policy => .ok policy
      | none => .error (.of .notFound "policy not found")) ∧
    ∀ policy, match PolicyStore.publish limits (run limits commands).1 policy with
      | (.ok ref, _) => ref.id = policy.ref.id ∧ ∀ r ∈ (run limits commands).2.issued,
          r.id = ref.id → r.generation.value < ref.generation.value
      | (.error _, store) => store = (run limits commands).1 := by
  have hagrees := run_agrees limits commands
  refine ⟨hagrees.nodup, fun id => ?_, fun policy => ?_⟩
  · have hget := get_eq (run limits commands).1 id
    rw [hagrees.current] at hget
    exact hget
  have hnewer := @hagrees.newer _ _ policy
  have hpublishes := publish_publishes limits (run limits commands).1 policy
  generalize PolicyStore.publish limits (run limits commands).1 policy = result
    at hnewer hpublishes ⊢
  cases hpublishes with
  | invalid | full | exhausted => rfl
  | filled | appended => exact hnewer rfl

end PolicyStore

/-! ### Calls on the bindings -/

namespace BindingRegistry

/-- What recovery does to a registry. -/
inductive Restoration
  | restore (binding : FlowBinding)
  | unbind (flow : FlowId)

/-- A call on a recovered registry. -/
inductive Command
  | bind (binding : FlowBinding)
  | unbind (flow : FlowId)
  | quiesce (flow : FlowId) (quiesced : Bool)

def restoration (limits : Limits) (registry : BindingRegistry) : Restoration → BindingRegistry
  | .restore binding => (restore limits registry binding).2
  | .unbind flow => (unbind registry flow).2

def command (limits : Limits) (registry : BindingRegistry) : Command → Status × BindingRegistry
  | .bind binding => bind limits registry binding
  | .unbind flow => unbind registry flow
  | .quiesce flow quiesced => quiesce registry flow quiesced

/-- Recovery of an empty registry, and calls after it. -/
def run (limits : Limits) (restorations : List Restoration) (commands : List Command) :
    BindingRegistry :=
  commands.foldl (fun registry c => (command limits registry c).2)
    (restorations.foldl (restoration limits) [])

/-- Live slots are of different flows, and the capacity bounds the slots. -/
structure Ordered (limits : Limits) (registry : BindingRegistry) : Prop where
  apart : registry.Apart
  bounded : registry.length ≤ limits.maxFlows.toNat

variable {registry : BindingRegistry}

theorem unbind_keys (registry : BindingRegistry) (flow : FlowId) :
    (unbind registry flow).2.map key = registry.map key := by
  unfold unbind
  cases hfind : registry.findIdx? (holds flow) with
  | none => rfl
  | some i =>
    obtain ⟨entry, hentry, -⟩ := getElem?_of_findIdx? hfind
    dsimp only
    rw [modify_eq_set_of_getElem? _ hentry]
    exact map_key_set hentry rfl

/-- While a registry is recovered its slots have different flows, dead or live. -/
theorem restoration_keys (h : (registry.map key).Nodup)
    (hbounded : registry.length ≤ limits.maxFlows.toNat) (r : Restoration) :
    ((restoration limits registry r).map key).Nodup ∧
      (restoration limits registry r).length ≤ limits.maxFlows.toNat := by
  cases r with
  | unbind flow =>
    have hkeys := unbind_keys registry flow
    have hlength := congrArg List.length hkeys
    rw [List.length_map, List.length_map] at hlength
    exact ⟨hkeys ▸ h, hlength.trans_le hbounded⟩
  | restore binding =>
    unfold restoration restore
    dsimp only
    split
    · exact ⟨h, hbounded⟩
    cases hfind : registry.findIdx? fun entry => entry.binding.flow == binding.flow with
    | none =>
      have hfresh : binding.flow ∉ registry.map key := key_not_mem hfind
      dsimp only
      split
      · exact ⟨h, hbounded⟩
      · rename_i hroom
        refine ⟨nodup_concat h hfresh, ?_⟩
        rw [List.length_append, List.length_singleton]
        exact Nat.lt_of_not_le hroom
    | some i =>
      obtain ⟨entry, hentry, hkey⟩ := getElem?_of_findIdx? hfind
      have hkey : key entry = key ⟨binding, true⟩ := eq_of_beq hkey
      dsimp only
      rw [map_key_set hentry hkey, List.length_set]
      exact ⟨h, hbounded⟩

/-- How `quiesce` ends. -/
inductive Quiesces (registry : BindingRegistry) (flow : FlowId) (quiesced : Bool) :
    Status × BindingRegistry → Prop
  | missing (new : ∀ e ∈ registry, BindingRegistry.holds flow e = false) :
      Quiesces registry flow quiesced (.of .notFound "flow binding not found", registry)
  | marked {i : ℕ} {entry : BindingEntry} (found : registry[i]? = some entry)
      (holds : holds flow entry = true)
      (below : entry.binding.generation.value ≠ Checked.u64Max) :
      Quiesces registry flow quiesced (.success, registry.set i
        { entry with binding := { entry.binding with
            quiesced := quiesced, generation := ⟨entry.binding.generation.value + 1⟩ } })
  | exhausted {i : ℕ} {entry : BindingEntry} (found : registry[i]? = some entry)
      (holds : holds flow entry = true)
      (last : entry.binding.generation.value = Checked.u64Max) :
      -- the mark is written although the call is refused
      Quiesces registry flow quiesced (.of .resourceExhausted "binding generation exhausted",
        registry.set i { entry with binding := { entry.binding with quiesced := quiesced } })

theorem quiesce_quiesces (registry : BindingRegistry) (flow : FlowId) (quiesced : Bool) :
    Quiesces registry flow quiesced (quiesce registry flow quiesced) := by
  unfold quiesce
  cases hfind : registry.findIdx? (holds flow) with
  | none =>
    rw [find?_of_findIdx?_none hfind]
    exact .missing (List.findIdx?_eq_none_iff.1 hfind)
  | some i =>
    obtain ⟨entry, hentry, hholds⟩ := getElem?_of_findIdx? hfind
    rw [find?_of_findIdx? hfind, hentry]
    unfold Generation.next
    by_cases hlast : entry.binding.generation.value = Checked.u64Max
    · simp only [hlast, beq_self_eq_true, if_true]
      exact .exhausted hentry hholds hlast
    · simp only [beq_eq_false_iff_ne.2 hlast, Bool.false_eq_true, if_false]
      exact .marked hentry hholds hlast

/-- Writing the live slot of a flow, its mark and flow as they were. -/
theorem Ordered.set (h : Ordered limits registry) {i : ℕ} {entry : BindingEntry}
    (hentry : registry[i]? = some entry) (hlive : entry.live = true) {binding : FlowBinding}
    (hflow : binding.flow = entry.binding.flow) :
    Ordered limits (registry.set i { entry with binding := binding }) where
  apart := by
    refine h.apart.write (.set hentry hflow.symm fun j u hj hu hulive hukey => ?_)
    exact hj (h.apart j i u entry hu hentry hulive hlive (hukey.trans hflow))
  bounded := by
    rw [List.length_set]
    exact h.bounded

theorem Ordered.command (h : Ordered limits registry) (c : Command) :
    Ordered limits (command limits registry c).2 := by
  cases c with
  | bind binding =>
    cases hok : (bind limits registry binding).1.isOk with
    | true =>
      obtain ⟨i, t, hw, -, -, hbounded⟩ := bind_writes h.apart hok
      exact ⟨h.apart.write hw, hbounded h.bounded⟩
    | false =>
      have hbinds := bind_binds limits registry binding
      unfold BindingRegistry.command
      dsimp only
      generalize bind limits registry binding = result at hok hbinds ⊢
      cases hbinds with
      | invalid | exhausted | full => exact h
      | rebound | bound => cases hok
  | unbind flow =>
    have hlength := congrArg List.length (unbind_keys registry flow)
    rw [List.length_map, List.length_map] at hlength
    exact ⟨(unbind_bound h.apart flow).1, hlength.trans_le h.bounded⟩
  | quiesce flow quiesced =>
    have hquiesces := quiesce_quiesces registry flow quiesced
    unfold BindingRegistry.command
    dsimp only
    generalize quiesce registry flow quiesced = result at hquiesces ⊢
    cases hquiesces with
    | missing => exact h
    | marked found holds | exhausted found holds => exact h.set found (holds_iff.1 holds).1 rfl

theorem run_ordered (limits : Limits) (restorations : List Restoration)
    (commands : List Command) : Ordered limits (run limits restorations commands) := by
  -- recovery keeps all keys apart, the calls after it those of live slots
  have hrestored : ((restorations.foldl (restoration limits) []).map key).Nodup ∧
      (restorations.foldl (restoration limits) []).length ≤ limits.maxFlows.toNat := by
    induction restorations using List.reverseRecOn with
    | nil => exact ⟨List.nodup_nil, Nat.zero_le _⟩
    | append_singleton restorations r ih =>
      rw [List.foldl_append]
      exact restoration_keys ih.1 ih.2 r
  induction commands using List.reverseRecOn with
  | nil => exact ⟨apart_of_nodup hrestored.1, hrestored.2⟩
  | append_singleton commands c ih =>
    unfold run at ih ⊢
    rw [List.foldl_append]
    exact ih.command c

/-- A call that marks a flow whose generation cannot advance. -/
def Overrun (registry : BindingRegistry) (c : Command) : Prop :=
  ∃ flow quiesced, c = .quiesce flow quiesced ∧ ∃ e ∈ registry, holds flow e = true ∧
    e.binding.generation.value = Checked.u64Max ∧ e.binding.quiesced ≠ quiesced

theorem bind_refused {binding : FlowBinding}
    (hrefused : (bind limits registry binding).1.isOk = false) :
    (bind limits registry binding).2 = registry := by
  have hbinds := bind_binds limits registry binding
  generalize bind limits registry binding = result at hrefused hbinds ⊢
  cases hbinds with
  | invalid | exhausted | full => rfl
  | rebound | bound => cases hrefused

theorem unbind_refused {flow : FlowId} (hrefused : (unbind registry flow).1.isOk = false) :
    (unbind registry flow).2 = registry := by
  unfold unbind at hrefused ⊢
  cases hfind : registry.findIdx? (holds flow) with
  | none => rfl
  | some i =>
    rw [hfind] at hrefused
    cases hrefused

/-- At most one slot holds a flow. -/
theorem held_unique (h : registry.Apart) {flow : FlowId} {i : ℕ} {entry e : BindingEntry}
    (found : registry[i]? = some entry) (hentry : holds flow entry = true) (he : e ∈ registry)
    (hholds : holds flow e = true) : e = entry := by
  obtain ⟨j, hj⟩ := List.mem_iff_getElem?.1 he
  obtain ⟨hlive, hkey⟩ := holds_iff.1 hholds
  obtain ⟨hlive', hkey'⟩ := holds_iff.1 hentry
  obtain rfl := h j i e entry hj found hlive hlive' (hkey.trans hkey'.symm)
  exact Option.some.inj (hj.symm.trans found)

/-- A refused `quiesce` leaves the registry alone unless the mark it writes is a new one. -/
theorem quiesce_refused_iff (h : registry.Apart) {flow : FlowId} {quiesced : Bool} :
    ((quiesce registry flow quiesced).1.isOk = false →
      (quiesce registry flow quiesced).2 = registry) ↔
      ¬ Overrun registry (.quiesce flow quiesced) := by
  have hquiesces := quiesce_quiesces registry flow quiesced
  have hoverrun : Overrun registry (.quiesce flow quiesced) ↔ ∃ e ∈ registry,
      holds flow e = true ∧ e.binding.generation.value = Checked.u64Max ∧
        e.binding.quiesced ≠ quiesced := by
    constructor
    · rintro ⟨_, _, ⟨rfl, rfl⟩, hentry⟩
      exact hentry
    · intro hentry
      exact ⟨flow, quiesced, rfl, hentry⟩
  rw [hoverrun]
  generalize quiesce registry flow quiesced = result at hquiesces ⊢
  cases hquiesces with
  | missing new =>
    refine iff_of_true (fun _ => rfl) ?_
    rintro ⟨e, he, hholds, -⟩
    rw [new e he] at hholds
    cases hholds
  | @marked i entry found holds below =>
    refine iff_of_true nofun ?_
    rintro ⟨e, he, hholds, hlast, -⟩
    obtain rfl := held_unique h found holds he hholds
    exact below hlast
  | @exhausted i entry found holds last =>
    constructor
    · rintro hsame ⟨e, he, hholds, -, hmark⟩
      obtain rfl := held_unique h found holds he hholds
      have hmarks := congrArg (·.binding.quiesced) (eq_of_set_eq found (hsame rfl))
      exact hmark hmarks.symm
    · -- the mark that is written is the one the slot has
      intro hfine _
      have hmark : entry.binding.quiesced = quiesced := by
        by_contra hne
        exact hfine ⟨entry, List.mem_of_getElem? found, holds, last, hne⟩
      obtain ⟨hlt, rfl⟩ := List.getElem?_eq_some_iff.1 found
      rw [← hmark]
      exact List.set_getElem_self hlt

/-- In every reachable registry the live entries are of different flows, and a refused call
changes nothing exactly when it is not a `quiesce` that writes a new mark before it finds the
generation exhausted. -/
theorem refused_unchanged_iff (limits : Limits) (restorations : List Restoration)
    (commands : List Command) :
    (run limits restorations commands).Apart ∧
    ∀ c, ((command limits (run limits restorations commands) c).1.isOk = false →
        (command limits (run limits restorations commands) c).2 =
          run limits restorations commands) ↔
      ¬ Overrun (run limits restorations commands) c := by
  have hordered := run_ordered limits restorations commands
  refine ⟨hordered.apart, fun c => ?_⟩
  cases c with
  | bind binding =>
    exact iff_of_true bind_refused fun ⟨_, _, heq, _⟩ => nomatch heq
  | unbind flow =>
    exact iff_of_true unbind_refused fun ⟨_, _, heq, _⟩ => nomatch heq
  | quiesce flow quiesced => exact quiesce_refused_iff hordered.apart

/-- A flow whose generation cannot advance. -/
def lastBinding : FlowBinding :=
  { flow := ⟨1⟩, generation := ⟨Checked.u64Max⟩, resource := ⟨⟨1⟩, ⟨1⟩⟩, path := ⟨⟨1⟩, ⟨1⟩⟩ }

/-- The flow is quiesced by a call that is refused. -/
theorem refused_quiesced :
    (quiesce (run {} [.restore lastBinding] []) ⟨1⟩ true).1.isOk = false ∧
    run {} [.restore lastBinding] [] = [⟨lastBinding, true⟩] ∧
    (quiesce (run {} [.restore lastBinding] []) ⟨1⟩ true).2 =
      [⟨{ lastBinding with quiesced := true }, true⟩] := by
  decide

/-- A valid binding of a new flow is refused for want of room although flows are missing only
when every slot was filled and one is dead. -/
theorem Ordered.full_iff (h : Ordered limits registry) {binding : FlowBinding}
    (hvalid : (check limits binding).isOk = true)
    (hnew : ∀ e ∈ registry, holds binding.flow e = false) :
    ((bind limits registry binding).1 = .of .resourceExhausted "binding registry is full" →
      limits.maxFlows.toNat ≤ registry.liveBindings.length) ↔
    registry.length < limits.maxFlows.toNat ∨ ∀ e ∈ registry, e.live = true := by
  have hbinds := bind_binds limits registry binding
  generalize bind limits registry binding = result at hbinds ⊢
  cases hbinds with
  | invalid bad =>
    rw [hvalid] at bad
    cases bad
  | exhausted found holds =>
    rw [hnew _ found] at holds
    cases holds
  | rebound found holds =>
    rw [hnew _ (List.mem_of_getElem? found)] at holds
    cases holds
  | bound new room =>
    exact iff_of_true (fun heq => nomatch congrArg Status.code heq) (.inl room)
  | full new spent =>
    rw [liveBindings, List.length_map, or_iff_right (Nat.not_lt.2 spent)]
    exact (forall_prop_of_true rfl).trans (spent_iff h.bounded spent)

end BindingRegistry

namespace PolicyStore

variable {store : PolicyStore}

/-- The same of a valid policy, whose own slot has room while it is live. -/
theorem full_iff (hnodup : (store.map key).Nodup)
    (hbounded : store.length ≤ limits.maxPolicies.toNat) {policy : PacingPolicy}
    (hvalid : ((defaulted policy).validate limits).isOk = true) :
    ((PolicyStore.publish limits store policy).1 =
        .error (.of .resourceExhausted "policy store is full") →
      limits.maxPolicies.toNat ≤ store.livePolicies.length) ↔
    store.length < limits.maxPolicies.toNat ∨ (∀ e ∈ store, e.live = true) ∨
      ∃ e ∈ store, holds policy.ref.id e = true := by
  have hpublishes := publish_publishes limits store policy
  -- a live slot of the policy, or a slot never filled
  have hroom : ∀ entry ∈ store, key entry = policy.ref.id →
      entry.live = true ∨ store.length < limits.maxPolicies.toNat →
      store.length < limits.maxPolicies.toNat ∨ (∀ e ∈ store, e.live = true) ∨
        ∃ e ∈ store, holds policy.ref.id e = true := by
    rintro entry hmem hkey (hlive | hroom)
    · refine .inr (.inr ⟨entry, hmem, ?_⟩)
      rw [holds, hlive, Bool.true_and]
      exact beq_iff_eq.2 hkey
    · exact .inl hroom
  generalize PolicyStore.publish limits store policy = result at hpublishes ⊢
  cases hpublishes with
  | invalid bad =>
    rw [hvalid] at bad
    cases bad
  | exhausted found named room =>
    refine iff_of_true (fun heq => ?_) (hroom _ found named room)
    exact absurd (Except.error.inj heq) (by decide)
  | filled found named room =>
    exact iff_of_true (fun heq => by cases heq) (hroom _ (List.mem_of_getElem? found) named room)
  | appended fresh room => exact iff_of_true (fun heq => by cases heq) (.inl room)
  | full unheld spent =>
    have hunheld : ¬ ∃ e ∈ store, holds policy.ref.id e = true := by
      rintro ⟨e, he, hholds⟩
      rw [unheld hnodup e he] at hholds
      cases hholds
    rw [livePolicies, List.length_map, or_iff_right (Nat.not_lt.2 spent), or_iff_left hunheld]
    exact (forall_prop_of_true rfl).trans (spent_iff hbounded spent)

end PolicyStore

/-- After any calls, a registry refuses a valid new entry as full with fewer live entries than
its capacity exactly when all its slots were filled and one of them is dead; of a policy, when
moreover its own slot is not live. -/
theorem refusals_justified_iff (limits : Limits) :
    (∀ restorations commands (binding : FlowBinding),
      (BindingRegistry.check limits binding).isOk = true →
      (∀ e ∈ BindingRegistry.run limits restorations commands,
        BindingRegistry.holds binding.flow e = false) →
      (((BindingRegistry.bind limits (BindingRegistry.run limits restorations commands)
            binding).1 = .of .resourceExhausted "binding registry is full" →
          limits.maxFlows.toNat ≤
            (BindingRegistry.run limits restorations commands).liveBindings.length) ↔
        (BindingRegistry.run limits restorations commands).length < limits.maxFlows.toNat ∨
          ∀ e ∈ BindingRegistry.run limits restorations commands, e.live = true)) ∧
    ∀ commands (policy : PacingPolicy),
      ((PolicyStore.defaulted policy).validate limits).isOk = true →
      (((PolicyStore.publish limits (PolicyStore.run limits commands).1 policy).1 =
            .error (.of .resourceExhausted "policy store is full") →
          limits.maxPolicies.toNat ≤ (PolicyStore.run limits commands).1.livePolicies.length) ↔
        (PolicyStore.run limits commands).1.length < limits.maxPolicies.toNat ∨
          (∀ e ∈ (PolicyStore.run limits commands).1, e.live = true) ∨
          ∃ e ∈ (PolicyStore.run limits commands).1,
            PolicyStore.holds policy.ref.id e = true) := by
  constructor
  · intro restorations commands binding hvalid hnew
    exact (BindingRegistry.run_ordered limits restorations commands).full_iff hvalid hnew
  · intro commands policy hvalid
    have hagrees := PolicyStore.run_agrees limits commands
    exact PolicyStore.full_iff hagrees.nodup hagrees.bounded hvalid

/-- Room for one flow and one policy. -/
def narrowLimits : Limits := { maxFlows := 1, maxPolicies := 1 }

def flowBinding (flow : UInt64) : FlowBinding :=
  { flow := ⟨flow⟩, resource := ⟨⟨1⟩, ⟨1⟩⟩, path := ⟨⟨1⟩, ⟨1⟩⟩ }

def resourcePolicy (id : UInt64) : PacingPolicy :=
  { ref := ⟨⟨id⟩, {}⟩, resource := ⟨1⟩, quantumBytes := 1500, windowNs := 1000000,
    path := ⟨⟨1⟩, ⟨1⟩⟩ }

/-- A flow that came and went takes the room of the next, and a policy too. -/
theorem refusals_unjustified :
    let registry := BindingRegistry.run narrowLimits [] [.bind (flowBinding 1), .unbind ⟨1⟩]
    let store := (PolicyStore.run narrowLimits [.publish (resourcePolicy 1), .remove ⟨1⟩]).1
    (BindingRegistry.check narrowLimits (flowBinding 2)).isOk = true ∧
    (∀ e ∈ registry, BindingRegistry.holds ⟨2⟩ e = false) ∧
    (BindingRegistry.bind narrowLimits registry (flowBinding 2)).1 =
      .of .resourceExhausted "binding registry is full" ∧
    registry.liveBindings = [] ∧
    ((PolicyStore.defaulted (resourcePolicy 1)).validate narrowLimits).isOk = true ∧
    (PolicyStore.publish narrowLimits store (resourcePolicy 1)).1 =
      .error (.of .resourceExhausted "policy store is full") ∧
    store.livePolicies = [] := by
  decide

/-- A flow that recovery brought back, another one beside it, and both changed since. -/
def churned : BindingRegistry :=
  BindingRegistry.run { maxFlows := 2 }
    [.restore { flowBinding 1 with generation := ⟨1⟩ }, .unbind ⟨1⟩,
      .restore { flowBinding 1 with generation := ⟨2⟩ }]
    [.bind (flowBinding 2), .bind (flowBinding 1), .quiesce ⟨2⟩ true, .unbind ⟨3⟩]

/-- Two policies, one of them revised and the other one removed. -/
def revised : PolicyStore :=
  (PolicyStore.run { maxPolicies := 2 }
    [.publish (resourcePolicy 1), .publish (resourcePolicy 2), .publish (resourcePolicy 1),
      .remove ⟨2⟩]).1

/-- The registry refuses a third flow with two live ones. The store has filled its slots and one
is dead; it does not refuse the policy that is still there. -/
theorem refusals_justified_churned :
    (BindingRegistry.bind { maxFlows := 2 } churned (flowBinding 3)).1 =
        .of .resourceExhausted "binding registry is full" ∧
      2 ≤ churned.liveBindings.length ∧
      (PolicyStore.publish { maxPolicies := 2 } revised (resourcePolicy 1)).1 ≠
        .error (.of .resourceExhausted "policy store is full") := by
  have hfull : (BindingRegistry.bind { maxFlows := 2 } churned (flowBinding 3)).1 =
      .of .resourceExhausted "binding registry is full" := by decide +kernel
  refine ⟨hfull, ?_, fun hrefused => ?_⟩
  · exact ((refusals_justified_iff { maxFlows := 2 }).1 _ _ (flowBinding 3) (by decide)
      (by decide +kernel)).2 (.inr (by decide +kernel)) hfull
  · have hlive := ((refusals_justified_iff { maxPolicies := 2 }).2 _ (resourcePolicy 1)
      (by decide)).2 (.inr (.inr (by decide +kernel))) hrefused
    exact absurd hlive (by decide +kernel)

end Pacing
