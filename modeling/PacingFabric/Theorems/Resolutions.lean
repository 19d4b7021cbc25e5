import PacingFabric.Storage.SlotOrder
import PacingFabric.Theorems.EnvelopeIds
import PacingFabric.Theorems.Mirror

/-!
# Resolutions after a restart

A resolution takes the first live policy of the registry in its order. The files keep the
order in which policies were published: a start reads the registry back without its dead
slots. A policy that was removed and is published again takes its old slot in the registry;
the files put it there only while they still hold a publication of it.

## Main definitions

* `filed`: the registry that a start reads from records.
* `Fabric.Ordered`: that registry is the one in memory without some of its dead slots.
* `fillsOnRecord`: a publication that fills a known slot is of a policy on record.

## Main results

* `resolve_survives`: over every run whose publications are on record, a start resolves
  every flow and resource as before.
* `resolve_swapped`: with a checkpoint between removal and publication, it does not.
-/

namespace Pacing

open Interleaving KeyedLog SlotTable

variable {limits : Limits} {old : List DurableRecord} {f g : Fabric} {a : Answers}

/-! ### Resolving -/

namespace PolicyStore

/-- A resolution looks at live slots only. -/
theorem resolveFrom_filter (flow : FlowId) (resource : ResourceId) (store : PolicyStore)
    (best : Option PacingPolicy) :
    resolveFrom flow resource (store.filter (·.live)) best =
      resolveFrom flow resource store best := by
  induction store generalizing best with
  | nil => rfl
  | cons entry rest ih =>
    cases hlive : entry.live with
    | false =>
      rw [List.filter_cons_of_neg (by simp [hlive]), ih]
      simp [resolveFrom, hlive]
    | true =>
      rw [List.filter_cons_of_pos hlive]
      simp only [resolveFrom, ih]

/-- Tables that differ in dead slots resolve alike. -/
theorem resolve_of_thinned {store store' : PolicyStore} (h : Thinned (·.live) store store')
    (flow : FlowId) (resource : ResourceId) :
    store.resolve flow resource = store'.resolve flow resource := by
  unfold resolve
  rw [← resolveFrom_filter, h.filter_eq, resolveFrom_filter]

/-- What a start makes of one write. -/
def write (limits : Limits) (store : PolicyStore) : Entry Name Held → PolicyStore
  | .put (.policy _) (.policy policy) => (restore limits store policy).2
  | .delete (.policy id) => (remove store id).2
  | _ => store

end PolicyStore

/-- The policies a start restores from the log, dead slots included. -/
def filed (limits : Limits) (log : List Fabric.Compacted) : PolicyStore :=
  (entries limits log).foldl (PolicyStore.write limits) []

/-! ### Replay -/

/-- One turn of the replay loop, as far as policies go. -/
theorem Replay.record_policies (nonce : UInt64) (s : Replay) (record : DurableRecord) :
    (Replay.record nonce s record).fabric.config = s.fabric.config ∧
      (Replay.record nonce s record).fabric.policies =
        ((logEntry s.fabric.config.limits (record.type, record.payload)).toList).foldl
          (PolicyStore.write s.fabric.config.limits) s.fabric.policies := by
  unfold Replay.record logEntry
  dsimp only
  cases record.type with
  | policy =>
    dsimp only
    cases hp : decodePayload (decodePolicy s.fabric.config.limits) record.payload with
    | none => exact ⟨rfl, rfl⟩
    | some p =>
      refine ⟨rfl, ?_⟩
      dsimp only [Option.bind_some]
      cases hvalid : (p.validate s.fabric.config.limits).isOk with
      | true => rfl
      | false =>
        simp [PolicyStore.restore, hvalid]
  | flowBinding =>
    dsimp only
    cases decodePayload (decodeBinding s.fabric.config.limits) record.payload <;>
      exact ⟨rfl, rfl⟩
  | policyRemoved =>
    dsimp only
    cases decodePayload decodeIdentityU64 record.payload <;> exact ⟨rfl, rfl⟩
  | flowUnbound =>
    dsimp only
    cases decodePayload decodeIdentityU64 record.payload <;> exact ⟨rfl, rfl⟩
  | attempt =>
    dsimp only
    cases decodePayload (decodeAttempt s.fabric.config.limits) record.payload with
    | none => exact ⟨rfl, rfl⟩
    | some r =>
      dsimp only [Replay.attempt, Option.map_some, Option.toList]
      split <;> exact ⟨rfl, rfl⟩
  | envelope =>
    dsimp only
    cases decodePayload decodeEnvelope record.payload with
    | none => exact ⟨rfl, rfl⟩
    | some e =>
      dsimp only [Replay.envelope]
      split <;> exact ⟨rfl, rfl⟩
  | envelopeRevocation =>
    dsimp only
    cases decodePayload decodeRevocation record.payload with
    | none => exact ⟨rfl, rfl⟩
    | some r =>
      dsimp only [Replay.revocation]
      split <;> exact ⟨rfl, rfl⟩
  | epochAdvance =>
    dsimp only
    cases decodePayload decodeEpoch record.payload <;> exact ⟨rfl, rfl⟩
  | backendRegistration =>
    dsimp only
    cases decodePayload (decodeBackendDescriptor s.fabric.config.limits) record.payload <;>
      exact ⟨rfl, rfl⟩
  | metaRecord => exact ⟨rfl, rfl⟩
  | unlisted => exact ⟨rfl, rfl⟩

theorem Fabric.replay_policies (f : Fabric) (a : Answers) (records : List DurableRecord) :
    (f.replay a records).fabric.policies =
      (entries f.config.limits (records.map fun r => (r.type, r.payload))).foldl
        (PolicyStore.write f.config.limits) f.policies := by
  have hall : ∀ (records : List DurableRecord) (s : Replay),
      (records.foldl (Replay.record (nonZeroNonce (a.nonce 1))) s).fabric.policies =
        (entries s.fabric.config.limits (records.map fun r => (r.type, r.payload))).foldl
          (PolicyStore.write s.fabric.config.limits) s.fabric.policies := by
    intro records
    induction records with
    | nil => exact fun _ => rfl
    | cons record records ih =>
      intro s
      obtain ⟨hconfig, hpolicies⟩ :=
        Replay.record_policies (nonZeroNonce (a.nonce 1)) s record
      rw [List.foldl_cons, ih, hconfig, hpolicies, List.map_cons, entries, entries,
        ← List.foldl_append]
      cases hentry : logEntry s.fabric.config.limits (record.type, record.payload) with
      | none => rw [List.filterMap_cons_none hentry]; rfl
      | some e => rw [List.filterMap_cons_some hentry]; rfl
  exact hall records { fabric := f }

/-- Recovery touches the policies in replay only. -/
theorem Fabric.recover_policies (f : Fabric) (a : Answers) (records : List DurableRecord) :
    (f.recover a records).2.policies =
      (entries f.config.limits (records.map fun r => (r.type, r.payload))).foldl
        (PolicyStore.write f.config.limits) f.policies := by
  have hreplay := (f.beginRecovery a records).replay_policies a records
  have hrecovers := recover_recovers a f records
  generalize f.recover a records = result at hrecovers ⊢
  generalize (f.beginRecovery a records).replay a records = replay at hreplay hrecovers
  cases hrecovers with
  | exhausted => exact hreplay
  | settled =>
    obtain ⟨_, _, _, _, _, _, hsettle⟩ := settle_frame (f := { replay.fabric.countRestored with
      epoch := _, boot := _, recovery := _ }) a replay
    rw [hsettle]
    exact hreplay

/-- A start restores what the log says. -/
theorem Fabric.initializeFabric_policies {config : FabricConfig} {disk : Disk}
    {sequence : UInt64} (hsealed : disk.Sealed config.limits sequence)
    (hdurable : usesDirectory config = true) (hfiles : a.files.Succeeds)
    (hok : ((construct config disk).initializeFabric a).1.isOk = true) :
    ((construct config disk).initializeFabric a).2.policies = filed config.limits disk.log := by
  obtain ⟨store, disk', hopen⟩ := initializeFabric_opened a hdurable hok
  obtain ⟨-, heq⟩ := initializeFabric_recover a hdurable hopen hok
  rw [hfiles.opening] at hopen
  obtain ⟨hrecovered, -⟩ := hsealed.openStore hopen hsealed.sequences
  rw [heq]
  change ((opened a config disk' store).recover a store.recovered).2.policies = _
  rw [recover_policies, hrecovered]
  rfl

/-! ### Removing -/

namespace PolicyStore
variable {store store' : PolicyStore} {id : PolicyId}

/-- `remove`, slot by slot. -/
def mark (id : PolicyId) : PolicyStore → PolicyStore
  | [] => []
  | entry :: rest =>
    if holds id entry then { entry with live := false } :: rest else entry :: mark id rest

theorem remove_eq_mark (store : PolicyStore) (id : PolicyId) :
    (remove store id).2 = mark id store := by
  induction store with
  | nil => rfl
  | cons entry rest ih =>
    unfold remove at ih ⊢
    rw [List.findIdx?_cons, mark]
    cases hholds : holds id entry with
    | true => rfl
    | false =>
      cases hfind : List.findIdx? (holds id) rest with
      | none =>
        rw [hfind] at ih
        simpa using ih
      | some i =>
        rw [hfind] at ih
        simpa using ih

theorem map_key_mark (id : PolicyId) (store : PolicyStore) :
    (mark id store).map key = store.map key := by
  induction store with
  | nil => rfl
  | cons entry rest ih =>
    unfold mark
    split
    · rfl
    · rw [List.map_cons, ih, List.map_cons]

theorem mark_eq_self (h : id ∉ store.map key) : mark id store = store := by
  induction store with
  | nil => rfl
  | cons entry rest ih =>
    rw [List.map_cons, List.mem_cons, not_or] at h
    have hnot : ¬ holds id entry = true := by
      intro hholds
      rw [holds, Bool.and_eq_true] at hholds
      exact h.1 (eq_of_beq hholds.2).symm
    rw [mark, if_neg hnot, ih h.2]

/-- A removal may be repeated. -/
theorem mark_mark (h : (store.map key).Nodup) : mark id (mark id store) = mark id store := by
  induction store with
  | nil => rfl
  | cons entry rest ih =>
    obtain ⟨hentry, hrest⟩ := List.nodup_cons.1 h
    by_cases hholds : holds id entry = true
    · have hid : key entry = id := by
        rw [holds, Bool.and_eq_true] at hholds
        exact eq_of_beq hholds.2
      have hmark : mark id (entry :: rest) = { entry with live := false } :: rest :=
        if_pos hholds
      have hdead : ¬ holds id { entry with live := false } = true := by simp [holds]
      rw [hmark, mark, if_neg hdead, mark_eq_self (hid ▸ hentry)]
    · have hmark : mark id (entry :: rest) = entry :: mark id rest := if_neg hholds
      rw [hmark, mark, if_neg hholds, ih hrest]

/-- The slot that is marked is live, so it was not dropped. -/
theorem mark_thinned (h : Thinned (·.live) store store') :
    Thinned (·.live) (mark id store) (mark id store') := by
  induction h with
  | nil => exact .nil
  | @keep s xs ys h ih =>
    unfold mark
    split
    · exact .keep _ h
    · exact .keep _ ih
  | @drop s xs ys hs h ih =>
    have hnot : ¬ holds id s = true := by simp [holds, hs]
    rw [show mark id (s :: ys) = s :: mark id ys from if_neg hnot]
    exact .drop hs ih

/-- `restore` fills the slot of its policy. -/
theorem restore_eq_fill {policy : PacingPolicy} (h : (store.map key).Nodup)
    (hvalid : (policy.validate limits).isOk = true)
    (hroom : policy.ref.id ∈ store.map key ∨ store.length < limits.maxPolicies.toNat) :
    (restore limits store policy).2 = fill key ⟨policy, true⟩ store := by
  obtain ⟨i, hw, hnodup, -⟩ := restore_writes h hvalid hroom
  exact hw.eq_fill hnodup

end PolicyStore

/-! ### The order of the policies -/

/-- The policies a start would restore from the log are those of the coordinator without some
of its dead slots, and every policy the log publishes has a slot among them. -/
structure Fabric.Ordered (limits : Limits) (f : Fabric) (log : List Fabric.Compacted) :
    Prop where
  thinned : Thinned (·.live) (filed limits log) f.policies
  named : ∀ id, Name.policy id ∈ written (entries limits log) →
    id ∈ (filed limits log).map PolicyStore.key

theorem filed_concat {log : List Fabric.Compacted} {c : Fabric.Compacted} {e : Entry Name Held}
    (hentry : logEntry limits c = some e) :
    filed limits (log ++ [c]) = PolicyStore.write limits (filed limits log) e ∧
      written (entries limits (log ++ [c])) = written (entries limits log) ∪ written [e] := by
  have hentries : entries limits (log ++ [c]) = entries limits log ++ [e] := by
    rw [entries, List.filterMap_append, List.filterMap_cons_some hentry, List.filterMap_nil,
      entries]
  refine ⟨?_, by rw [hentries, written_append]⟩
  rw [filed, hentries, List.foldl_append]
  rfl

namespace Fabric.Ordered
variable {log : List Fabric.Compacted} {c : Fabric.Compacted} {policy : PacingPolicy}
  {id : PolicyId}

theorem congr (h : f.Ordered limits log) (hpolicies : g.policies = f.policies) :
    g.Ordered limits log :=
  ⟨hpolicies ▸ h.thinned, h.named⟩

/-- A record that stands for no write. -/
theorem skip (h : f.Ordered limits log) (hentry : logEntry limits c = none) :
    f.Ordered limits (log ++ [c]) := by
  have hentries : entries limits (log ++ [c]) = entries limits log := by
    rw [entries, List.filterMap_append, List.filterMap_cons_none hentry, List.filterMap_nil,
      List.append_nil, entries]
  have hfiled : filed limits (log ++ [c]) = filed limits log := by rw [filed, hentries, filed]
  exact ⟨hfiled ▸ h.thinned, hentries ▸ hfiled ▸ h.named⟩

/-- The record of a publication, where both tables have a slot for it or neither. -/
theorem put (h : f.Ordered limits log)
    (hentry : logEntry limits c = some (.put (.policy policy.ref.id) (.policy policy)))
    (hvalid : (policy.validate limits).isOk = true)
    (hnodup : (f.policies.map PolicyStore.key).Nodup)
    (hpolicies : g.policies = fill PolicyStore.key ⟨policy, true⟩ f.policies)
    (hkept : policy.ref.id ∈ f.policies.map PolicyStore.key →
      policy.ref.id ∈ (filed limits log).map PolicyStore.key)
    (hlength : g.policies.length ≤ limits.maxPolicies.toNat) :
    g.Ordered limits (log ++ [c]) := by
  obtain ⟨hfiled, hwritten⟩ := @filed_concat _ log _ _ hentry
  have hsub := h.thinned.sublist
  have hroom : policy.ref.id ∈ (filed limits log).map PolicyStore.key ∨
      (filed limits log).length < limits.maxPolicies.toNat := by
    by_cases hmem : policy.ref.id ∈ (filed limits log).map PolicyStore.key
    · exact .inl hmem
    · -- a new slot on both sides, and there was room for it
      right
      have hfresh : PolicyStore.key ⟨policy, true⟩ ∉ f.policies.map PolicyStore.key :=
        fun hin => hmem (hkept hin)
      rw [hpolicies, length_fill_of_fresh hfresh] at hlength
      exact Nat.lt_of_lt_of_le (Nat.lt_succ_of_le hsub.length_le) hlength
  have hfill : filed limits (log ++ [c]) =
      fill PolicyStore.key ⟨policy, true⟩ (filed limits log) := by
    rw [hfiled]
    exact PolicyStore.restore_eq_fill (hnodup.sublist (hsub.map _)) hvalid hroom
  refine ⟨?_, fun id hid => ?_⟩
  · rw [hfill, hpolicies]
    exact h.thinned.fill hnodup hkept
  · rw [hfill]
    rw [hwritten, Finset.mem_union, written_put, Finset.mem_singleton] at hid
    rcases hid with hid | hid
    · exact mem_keys_fill (h.named id hid)
    · obtain rfl := Name.policy.inj hid
      exact key_mem_fill (t := (⟨policy, true⟩ : PolicyEntry))

/-- The record of a removal. -/
theorem delete (h : f.Ordered limits log)
    (hentry : logEntry limits c = some (.delete (.policy id)))
    (hpolicies : g.policies = PolicyStore.mark id f.policies) :
    g.Ordered limits (log ++ [c]) := by
  obtain ⟨hfiled, hwritten⟩ := @filed_concat _ log _ _ hentry
  have hmark : filed limits (log ++ [c]) = PolicyStore.mark id (filed limits log) :=
    hfiled.trans (PolicyStore.remove_eq_mark _ _)
  refine ⟨?_, fun id' hid => ?_⟩
  · rw [hmark, hpolicies]
    exact PolicyStore.mark_thinned h.thinned
  · rw [hmark, PolicyStore.map_key_mark]
    rw [hwritten, Finset.mem_union, written_delete] at hid
    exact h.named id' (hid.resolve_right (Finset.notMem_empty _))

end Fabric.Ordered

/-! ### Compactions -/

/-- Writes of other names leave the policies alone. -/
theorem PolicyStore.foldl_write_other {α : Type} (xs : List α) (pair : α → Name × Held)
    (h : ∀ x id, (pair x).1 ≠ .policy id) (store : PolicyStore) :
    (puts (xs.map pair)).foldl (write limits) store = store := by
  induction xs with
  | nil => rfl
  | cons x xs ih =>
    have hsame : write limits store (.put (pair x).1 (pair x).2) = store := by
      cases hname : (pair x).1 with
      | policy id => exact absurd hname (h x id)
      | flow => rfl
      | attempt => rfl
    change (puts (xs.map pair)).foldl (write limits) (write limits store _) = store
    rw [hsame, ih]

/-- Policies of different identities are restored in their order. -/
theorem PolicyStore.foldl_write_policies (ps : List PacingPolicy) (store : PolicyStore)
    (hvalid : ∀ p ∈ ps, (p.validate limits).isOk = true)
    (hnodup : (store.map key ++ ps.map (·.ref.id)).Nodup)
    (hlength : store.length + ps.length ≤ limits.maxPolicies.toNat) :
    (puts (ps.map fun p => (Name.policy p.ref.id, Held.policy p))).foldl (write limits) store =
      store ++ ps.map (⟨·, true⟩) := by
  induction ps generalizing store with
  | nil => exact (List.append_nil _).symm
  | cons p ps ih =>
    obtain ⟨hstore, hps, hapart⟩ := List.nodup_append.1 hnodup
    have hfresh : key ⟨p, true⟩ ∉ store.map key := fun hmem =>
      hapart _ hmem _ List.mem_cons_self rfl
    have hwrites : Writes key (·.live) store store.length ⟨p, true⟩ (store ++ [⟨p, true⟩]) :=
      .concat_of_fresh hfresh
    have hfill : fill key ⟨p, true⟩ store = store ++ [⟨p, true⟩] :=
      (hwrites.eq_fill (nodup_concat hstore hfresh)).symm
    rw [List.length_cons] at hlength
    have hrestore : write limits store (.put (.policy p.ref.id) (.policy p)) =
        store ++ [⟨p, true⟩] :=
      (restore_eq_fill hstore (hvalid p List.mem_cons_self) (.inr (by omega))).trans hfill
    change (puts (ps.map _)).foldl (write limits) (write limits store _) = _
    rw [hrestore, ih _ (fun q hq => hvalid q (List.mem_cons_of_mem _ hq)) ?_ ?_]
    · rw [List.append_assoc]
      rfl
    · rw [List.map_append, List.append_assoc]
      exact hnodup
    · rw [List.length_append, List.length_singleton]
      omega

/-- A compaction keeps the live policies in their order, and drops every dead slot. -/
theorem Fabric.filed_compacted (h : f.Tabled limits)
    (hlength : f.policies.length ≤ limits.maxPolicies.toNat)
    {describe : BackendPtr → BackendDescriptor} {cs : List Compacted}
    (hcs : f.compacted describe = .ok cs) :
    filed limits cs = f.policies.filter (·.live) := by
  have hlive : f.policies.livePolicies.map (fun p => (⟨p, true⟩ : PolicyEntry)) =
      f.policies.filter (·.live) := by
    rw [PolicyStore.livePolicies, List.map_map]
    refine (List.map_congr_left fun e he => ?_).trans (List.map_id _)
    have hlive : e.live = true := (List.mem_filter.1 he).2
    change (⟨e.policy, true⟩ : PolicyEntry) = e
    rw [← hlive]
  have hvalid : ∀ p ∈ f.policies.livePolicies, (p.validate limits).isOk = true := by
    intro p hp
    obtain ⟨e, he, rfl⟩ := List.mem_map.1 hp
    exact h.valid e (List.mem_of_mem_filter he)
  have hnodup : (f.policies.livePolicies.map (·.ref.id)).Nodup := by
    rw [PolicyStore.livePolicies, List.map_map]
    exact h.ids.sublist (List.filter_sublist.map _)
  have hfew : f.policies.livePolicies.length ≤ limits.maxPolicies.toNat := by
    rw [PolicyStore.livePolicies, List.length_map]
    exact Nat.le_trans (List.length_filter_le ..) hlength
  unfold filed
  rw [Fabric.entries_compacted h hcs, Fabric.pairs, puts, List.map_append, List.map_append,
    List.foldl_append, List.foldl_append]
  have hflows := @PolicyStore.foldl_write_other limits _ f.bindings.liveBindings
    (fun b => (Name.flow b.flow, Held.binding b)) (fun _ _ => by simp) []
  have hpolicies := @PolicyStore.foldl_write_policies limits f.policies.livePolicies []
    hvalid (by simpa using hnodup) (by simpa using hfew)
  have hattempts := @PolicyStore.foldl_write_other limits _
    (f.attempts.entries.filter (·.live))
    (fun e => (Name.attempt e.record.attempt, Held.attempt e.record.requested))
    (fun _ _ => by simp) (f.policies.filter (·.live))
  rw [List.nil_append, hlive] at hpolicies
  unfold puts at hflows hpolicies hattempts
  rw [hflows, hpolicies, hattempts]

theorem Fabric.Ordered.compacted (h : f.Tabled limits)
    (hlength : f.policies.length ≤ limits.maxPolicies.toNat)
    {describe : BackendPtr → BackendDescriptor} {cs : List Compacted}
    (hcs : f.compacted describe = .ok cs) : f.Ordered limits cs := by
  have hfiled := Fabric.filed_compacted h hlength hcs
  refine ⟨hfiled ▸ Thinned.live_slots _, fun id hid => ?_⟩
  rw [hfiled]
  rw [Fabric.entries_compacted h hcs, mem_written_puts] at hid
  obtain ⟨⟨k, v⟩, hmem, hk⟩ := List.mem_map.1 hid
  obtain rfl : k = Name.policy id := hk
  have hheld := h.mem_pairs.1 hmem
  obtain ⟨_, hp, -⟩ := Option.map_eq_some_iff.1 hheld
  obtain ⟨e, he, -⟩ := Option.map_eq_some_iff.1 hp
  obtain ⟨i, hi, hlive, rfl⟩ := (apart_of_nodup h.ids).lookup_eq_some_iff.1 he
  exact List.mem_map_of_mem (List.mem_filter.2 ⟨List.mem_of_getElem? hi, hlive⟩)

/-! ### Journaling -/

namespace Fabric.Journals
variable {c : Fabric.Compacted} {out : Status × Storage} {policy : PacingPolicy}
  {id : PolicyId}

/-- What a compaction starts from or writes keeps the order. -/
theorem ordered_base {base : List Fabric.Compacted} (h : f.Compacts a base)
    (htables : f.Tabled limits) (hlength : f.policies.length ≤ limits.maxPolicies.toNat)
    (hold : f.Ordered limits f.storage.disk.log) : f.Ordered limits base :=
  h.elim (fun hbase => hbase ▸ hold) (.compacted htables hlength)

/-- A record that stands for no write. -/
theorem ordered_skip (h : f.Journals limits a c out) (htables : f.Tabled limits)
    (hlength : f.policies.length ≤ limits.maxPolicies.toNat)
    (hold : f.Ordered limits f.storage.disk.log) (hentry : logEntry limits c = none) :
    f.Ordered limits out.2.disk.log := by
  obtain ⟨base, hbase, ⟨hlog, -⟩ | ⟨hlog, -⟩⟩ := h
  · exact hlog ▸ (ordered_base hbase htables hlength hold).skip hentry
  · exact hlog ▸ ordered_base hbase htables hlength hold

/-- A publication, journaled after the table has it. -/
theorem ordered_put (h : g.Journals limits a c out) (htables : g.Tabled limits)
    (hlength : g.policies.length ≤ limits.maxPolicies.toNat)
    (hold : f.Ordered limits g.storage.disk.log)
    (hentry : logEntry limits c = some (.put (.policy policy.ref.id) (.policy policy)))
    (hvalid : (policy.validate limits).isOk = true)
    (hnodup : (f.policies.map PolicyStore.key).Nodup)
    (hpolicies : g.policies = fill PolicyStore.key ⟨policy, true⟩ f.policies)
    (hkept : policy.ref.id ∈ f.policies.map PolicyStore.key →
      Name.policy policy.ref.id ∈ KeyedLog.written (entries limits g.storage.disk.log))
    (hok : out.1.isOk = true) (hopen : g.storage.durable ≠ none) :
    g.Ordered limits out.2.disk.log := by
  obtain ⟨base, hbase, ⟨hlog, -⟩ | ⟨-, hfailed | hclosed⟩⟩ := h
  · rw [hlog]
    rcases hbase with rfl | hcs
    · exact hold.put hentry hvalid hnodup hpolicies (fun hmem => hold.named _ (hkept hmem))
        hlength
    · -- the compaction has written the policy in its place already
      have hbase := Fabric.Ordered.compacted htables hlength hcs
      have hmem : (⟨policy, true⟩ : PolicyEntry) ∈ g.policies := hpolicies ▸ mem_fill
      refine hbase.put hentry hvalid htables.ids (fill_eq_self htables.ids hmem).symm
        (fun _ => ?_) hlength
      exact List.mem_map_of_mem (hbase.thinned.mem_of_live hmem rfl)
  · rw [hok] at hfailed
    cases hfailed
  · exact absurd hclosed hopen

/-- A removal, journaled after the table has it. -/
theorem ordered_delete (h : g.Journals limits a c out) (htables : g.Tabled limits)
    (hlength : g.policies.length ≤ limits.maxPolicies.toNat)
    (hold : f.Ordered limits g.storage.disk.log)
    (hentry : logEntry limits c = some (.delete (.policy id)))
    (hnodup : (f.policies.map PolicyStore.key).Nodup)
    (hpolicies : g.policies = PolicyStore.mark id f.policies)
    (hok : out.1.isOk = true) (hopen : g.storage.durable ≠ none) :
    g.Ordered limits out.2.disk.log := by
  obtain ⟨base, hbase, ⟨hlog, -⟩ | ⟨-, hfailed | hclosed⟩⟩ := h
  · rw [hlog]
    rcases hbase with rfl | hcs
    · exact hold.delete hentry hpolicies
    · have hbase := Fabric.Ordered.compacted htables hlength hcs
      refine hbase.delete hentry ?_
      rw [hpolicies, PolicyStore.mark_mark hnodup]
  · rw [hok] at hfailed
    cases hfailed
  · exact absurd hclosed hopen

/-- A record that was refused after a change that turned out to be none. -/
theorem ordered_refused (h : g.Journals limits a c out) (htables : g.Tabled limits)
    (hlength : g.policies.length ≤ limits.maxPolicies.toNat)
    (hold : f.Ordered limits g.storage.disk.log) (hsame : g.policies = f.policies)
    (hfailed : out.1.isOk = false) : g.Ordered limits out.2.disk.log := by
  obtain ⟨base, hbase, ⟨-, hdone, -⟩ | ⟨hlog, -⟩⟩ := h
  · rw [hfailed] at hdone
    cases hdone
  · exact hlog ▸ ordered_base hbase htables hlength (hold.congr hsame)

end Fabric.Journals

/-! ### Publishing and removing -/

namespace PolicyStore
variable {store : PolicyStore} {policy : PacingPolicy} {ref : PolicyRef}

theorem publish_id (hok : (publish limits store policy).1 = .ok ref) :
    ref.id = policy.ref.id := by
  have hpublishes := publish_publishes limits store policy
  generalize publish limits store policy = result at hpublishes hok
  cases hpublishes with
  | invalid | full | exhausted => cases hok
  | filled | appended =>
    obtain rfl := Except.ok.inj hok
    rfl

/-- A publication fills the slot of its policy with what `get` finds afterwards. -/
theorem publish_fill (h : (store.map key).Nodup)
    (hok : (publish limits store policy).1 = .ok ref) :
    ∃ stored, stored.ref = ref ∧ (publish limits store policy).2.get ref.id = .ok stored ∧
      (publish limits store policy).2 = fill key ⟨stored, true⟩ store := by
  obtain ⟨i, t, hw, hlive, href, hnodup, -⟩ := publish_writes h hok
  have hpublished := published_write h hw
  rw [hlive, if_pos rfl, href] at hpublished
  refine ⟨t.policy, href, ?_, ?_⟩
  · rw [get_eq, hpublished, Function.update_self]
  · rw [← hlive]
    exact hw.eq_fill hnodup

end PolicyStore

/-- A checkpoint and an append draw no record number that wraps. -/
def Storage.Roomy (limits : Limits) (s : Storage) : Prop :=
  s.sequence.toNat + 2 * (limits.maxCompactionBatch.toNat + 1) < 2 ^ 64

instance (s : Storage) : Decidable (s.Roomy limits) :=
  inferInstanceAs (Decidable (_ < _))

theorem Storage.Roomy.room {s s' : Storage} {n : ℕ} (h : s.Roomy limits)
    (hdraws : s.Draws limits n s') (hops : s'.disk.operations ≤ s.disk.operations + 2) :
    s.sequence.toNat + n < 2 ^ 64 := by
  refine Nat.lt_of_le_of_lt (Nat.add_le_add_left (Nat.le_trans hdraws.number ?_) _) h
  exact Nat.mul_le_mul_right _ (by omega)

theorem Fabric.maybeCheckpoint_operations (hfiles : a.files.Succeeds) :
    (f.maybeCheckpoint a).2.disk.operations ≤ f.storage.disk.operations + 1 := by
  unfold Fabric.maybeCheckpoint
  split
  · exact Nat.le_succ _
  split
  · exact Nat.le_succ _
  split
  · exact Nat.le_succ _
  dsimp only
  rw [hfiles.checkpoint]
  unfold DurableStore.checkpoint
  dsimp only
  split
  · exact Nat.le_refl _
  split
  all_goals exact Nat.le_refl _

/-- Journaling is two file operations at most. -/
theorem Fabric.journal_operations (hfiles : a.files.Succeeds) (type : DurableRecordType)
    (payload : Bytes) (ts : UInt64) :
    (f.journal a type payload ts).2.disk.operations ≤ f.storage.disk.operations + 2 := by
  have hready := Fabric.maybeCheckpoint_operations (f := f) hfiles
  unfold Fabric.journal
  generalize f.maybeCheckpoint a = checkpointed at hready ⊢
  obtain ⟨ready, storage⟩ := checkpointed
  dsimp only at hready ⊢
  split
  · exact Nat.le_succ_of_le hready
  split
  · exact Nat.le_succ_of_le hready
  · dsimp only
    rw [DurableStore.append_operations]
    exact Nat.succ_le_succ hready

/-- A publication that is journaled keeps the order, if a slot it fills again is one that the
log still names. -/
theorem Fabric.publishPolicy_ordered (hread : f.Readable limits old)
    (hwf : f.attempts.WellFormed) (hfiles : a.files.Succeeds) (now : Instant)
    (policy : PacingPolicy)
    (hroom : f.storage.Roomy limits)
    (h : f.Mirrored limits) (hordered : f.Ordered limits f.storage.disk.log)
    (hdone : (∃ ref, (f.publishPolicy a now policy).1 = .ok ref) ∨
      (f.publishPolicy a now policy).2.policies = f.policies)
    (hkept : policy.ref.id ∈ f.policies.map PolicyStore.key →
      Name.policy policy.ref.id ∈ written (entries limits f.storage.disk.log)) :
    (f.publishPolicy a now policy).2.Ordered limits
      (f.publishPolicy a now policy).2.storage.disk.log := by
  unfold Fabric.publishPolicy at hdone ⊢
  rw [hread.config] at hdone ⊢
  split
  · exact hordered
  rename_i hrun
  rw [if_neg hrun] at hdone
  dsimp only at hdone ⊢
  have hstamped : (if policy.publishedAt.ns == 0 then { policy with publishedAt := now }
      else policy).ref.id = policy.ref.id := by
    split <;> rfl
  generalize (if policy.publishedAt.ns == 0 then { policy with publishedAt := now }
    else policy) = stamped at hstamped hdone ⊢
  have hvalid := @PolicyStore.publish_valid _ _ stamped hread.policies
  have hwrites := fun ref hok => @PolicyStore.publish_writes limits _ stamped h.ids ref hok
  have hfilled := fun ref hok => @PolicyStore.publish_fill limits _ stamped ref h.ids hok
  have hid := fun ref hok => @PolicyStore.publish_id limits f.policies stamped ref hok
  generalize PolicyStore.publish limits f.policies stamped = published
    at hvalid hwrites hfilled hid hdone ⊢
  obtain ⟨result, policies⟩ := published
  dsimp only at hvalid hwrites hfilled hid hdone ⊢
  have hfailed : ∀ status : Status,
      ((∃ ref : PolicyRef, (Except.error status : StatusOr PolicyRef) = .ok ref) ∨
        policies = f.policies) →
      ({ f with policies := policies } : Fabric).Ordered limits f.storage.disk.log := by
    rintro status (⟨_, hok⟩ | hsame)
    · cases hok
    · exact hordered.congr hsame
  cases hok : result with
  | error status =>
    rw [hok] at hdone
    exact hfailed status hdone
  | ok ref =>
    rw [hok] at hdone
    dsimp only at hdone ⊢
    obtain ⟨stored, href, hget, hfill⟩ := hfilled ref hok
    obtain ⟨_, _, _, _, _, hids, hlength⟩ := hwrites ref hok
    rw [hget] at hdone ⊢
    dsimp only at hdone ⊢
    cases hpayload : (encodePolicy ⟨encodeCapacityBytes, [], none⟩ stored).finish with
    | error status =>
      rw [hpayload] at hdone
      exact hfailed status hdone
    | ok payload =>
      rw [hpayload] at hdone
      dsimp only at hdone ⊢
      have hstored := PolicyStore.get_valid hvalid hget
      have hkey : stored.ref.id = policy.ref.id := by rw [href, hid ref hok, hstamped]
      have hentry := logEntry_policy hstored hpayload
      have htables : ({ f with policies := policies } : Fabric).Tabled limits :=
        ⟨h.apart, hids, hwf, hread.bindings, hvalid, hread.attempts⟩
      obtain ⟨n, hdraws, -, hafter⟩ := ({ f with policies := policies } : Fabric).journal_sealed
        hread.config hfiles .policy payload now.ns
      obtain ⟨-, hjournals⟩ := hafter
        (hroom.room hdraws (Fabric.journal_operations hfiles ..)) h.sealed
      have hopen := h.durable_ne_none (by simpa using hrun)
      unfold Fabric.journalRecord at hdone ⊢
      dsimp only at hdone ⊢
      -- a record that misses the log is reported, so the store is as it was
      cases hdurable : (({ f with policies := policies } : Fabric).journal a .policy payload
          now.ns).1.isOk with
      | true =>
        exact (hjournals.ordered_put htables (hlength h.policies) hordered hentry hstored h.ids
          hfill (hkey ▸ hkept) hdurable hopen).congr rfl
      | false =>
        rw [hdurable] at hdone
        have hsame : policies = f.policies := hdone.resolve_left (by simp)
        exact (hjournals.ordered_refused htables (hlength h.policies) hordered hsame
          hdurable).congr rfl

/-- A removal that is journaled keeps the order. -/
theorem Fabric.removePolicy_ordered (hread : f.Readable limits old)
    (hwf : f.attempts.WellFormed) (hfiles : a.files.Succeeds) (now : Instant) (id : PolicyId)
    (hroom : f.storage.Roomy limits)
    (h : f.Mirrored limits) (hordered : f.Ordered limits f.storage.disk.log)
    (hdone : (f.removePolicy a now id).1.isOk = true ∨
      (f.removePolicy a now id).2.policies = f.policies) :
    (f.removePolicy a now id).2.Ordered limits
      (f.removePolicy a now id).2.storage.disk.log := by
  have hvalid := PolicyStore.remove_valid hread.policies id
  have hmark := PolicyStore.remove_eq_mark f.policies id
  unfold Fabric.removePolicy at hdone ⊢
  split
  · exact hordered
  rename_i hrun
  rw [if_neg hrun] at hdone
  generalize PolicyStore.remove f.policies id = removed at hvalid hmark hdone ⊢
  obtain ⟨status, policies⟩ := removed
  dsimp only at hvalid hmark hdone ⊢
  cases hok : status.isOk with
  | false =>
    simp only [hok, Bool.not_false, if_true] at hdone ⊢
    exact hordered.congr (hdone.resolve_left (by simp))
  | true =>
    simp only [hok, Bool.not_true, Bool.false_eq_true, if_false] at hdone ⊢
    cases hpayload : (encodeIdentityU64 ⟨64, [], none⟩ id.value).finish with
    | error status' =>
      have hrefused := ((ByteWriter.Roomy.fresh 64).u64v id.value).refused hpayload
      rw [hpayload] at hdone
      exact hordered.congr (hdone.resolve_left (by simp [hrefused]))
    | ok payload =>
      rw [hpayload] at hdone
      dsimp only at hdone ⊢
      have hentry := @logEntry_policyRemoved limits _ _ _ hpayload
      have hkeys : policies.map PolicyStore.key = f.policies.map PolicyStore.key := by
        rw [hmark, PolicyStore.map_key_mark]
      have hlength : policies.length = f.policies.length := by
        simpa using congrArg List.length hkeys
      have htables : ({ f with policies := policies } : Fabric).Tabled limits :=
        ⟨h.apart, hkeys ▸ h.ids, hwf, hread.bindings, hvalid, hread.attempts⟩
      obtain ⟨n, hdraws, -, hafter⟩ := ({ f with policies := policies } : Fabric).journal_sealed
        hread.config hfiles .policyRemoved payload now.ns
      obtain ⟨-, hjournals⟩ := hafter
        (hroom.room hdraws (Fabric.journal_operations hfiles ..)) h.sealed
      have hopen := h.durable_ne_none (by simpa using hrun)
      unfold Fabric.journalRecord at hdone ⊢
      dsimp only at hdone ⊢
      cases hdurable : (({ f with policies := policies } : Fabric).journal a .policyRemoved
          payload now.ns).1.isOk with
      | true =>
        exact (hjournals.ordered_delete htables (hlength ▸ h.policies) hordered hentry h.ids hmark
          hdurable hopen).congr rfl
      | false =>
        rw [hdurable] at hdone
        have hsame : policies = f.policies := hdone.resolve_left (by simp)
        exact (hjournals.ordered_refused htables (hlength ▸ h.policies) hordered hsame
          hdurable).congr rfl

/-! ### Runs -/

theorem Fabric.publishPolicy_operations (hfiles : a.files.Succeeds) (now : Instant)
    (policy : PacingPolicy) : (f.publishPolicy a now policy).2.storage.disk.operations ≤
      f.storage.disk.operations + 2 := by
  unfold Fabric.publishPolicy
  split
  · exact Nat.le_add_right ..
  dsimp only
  split
  · exact Nat.le_add_right ..
  split
  · exact Nat.le_add_right ..
  split
  · exact Nat.le_add_right ..
  · exact Fabric.journal_operations hfiles ..

theorem Fabric.removePolicy_operations (hfiles : a.files.Succeeds) (now : Instant)
    (id : PolicyId) : (f.removePolicy a now id).2.storage.disk.operations ≤
      f.storage.disk.operations + 2 := by
  unfold Fabric.removePolicy
  split
  · exact Nat.le_add_right ..
  dsimp only
  split
  · exact Nat.le_add_right ..
  split
  · exact Nat.le_add_right ..
  · exact Fabric.journal_operations hfiles ..

/-- What every publication and removal keeps. -/
structure Fabric.Governed (limits : Limits) (f : Fabric) : Prop where
  readable : f.Readable limits []
  wellFormed : f.attempts.WellFormed
  backends : f.backends = []
  mirrored : f.Mirrored limits
  ordered : f.Ordered limits f.storage.disk.log

theorem Fabric.Governed.described (h : f.Governed limits) : f.Described limits a := by
  intro backend hmem
  rw [h.backends] at hmem
  cases hmem

/-- The operations of the policy store. -/
def Request.governs : Request → Bool
  | .publishPolicy _ | .removePolicy _ => true
  | _ => false

/-- A call of the policy store. -/
def Call.Governs : Call → Prop
  | .enter r | .trust r | .sample r | .locked r _ => r.governs = true
  | .leave _ => True
  | _ => False

/-- Only policies are published and removed, and every durable write succeeds. -/
def publishesDurably (limits : Limits) (w : World) : Event Call Request Answers → Prop
  | .start _ r => r.governs = true
  | .move _ k a => a.files.Succeeds ∧ w.shared.storage.Roomy limits ∧
    match k with
    | .locked (.publishPolicy policy) now =>
      (∃ ref, (w.shared.publishPolicy a now policy).1 = .ok ref) ∨
        (w.shared.publishPolicy a now policy).2.policies = w.shared.policies
    | .locked (.removePolicy id) now =>
      (w.shared.removePolicy a now id).1.isOk = true ∨
        (w.shared.removePolicy a now id).2.policies = w.shared.policies
    | _ => True
  | .restart => False

/-- A publication that fills a slot again is of a policy that the records of the files still
name. -/
def fillsOnRecord (limits : Limits) (w : World) : Event Call Request Answers → Prop
  | .move _ (.locked (.publishPolicy policy) _) _ =>
    policy.ref.id ∈ w.shared.policies.map PolicyStore.key →
      Name.policy policy.ref.id ∈ written (entries limits w.shared.storage.disk.log)
  | _ => True

def publishesOnRecord (limits : Limits) (w : World) (e : Event Call Request Answers) : Prop :=
  publishesDurably limits w e ∧ fillsOnRecord limits w e

namespace Fabric.Governed

/-- Nothing of it depends on the clock or on the count of operations. -/
theorem of_same (h : f.Governed limits) (clock : ClockWatch) (active : UInt32) :
    ({ f with clock := clock, activeOperations := active } : Fabric).Governed limits :=
  ⟨⟨h.readable.config, h.readable.bindings, h.readable.policies, h.readable.envelopes,
      h.readable.attempts, h.readable.epoch, h.readable.records⟩,
    h.wellFormed, h.backends,
    ⟨h.mirrored.sealed, h.mirrored.stopped, h.mirrored.apart, h.mirrored.ids, h.mirrored.flows,
      h.mirrored.policies, h.mirrored.logged.congr rfl rfl rfl⟩,
    h.ordered.congr rfl⟩

theorem publishPolicy (h : f.Governed limits) (hfiles : a.files.Succeeds)
    (hroom : f.storage.Roomy limits) (now : Instant) (policy : PacingPolicy)
    (hdone : (∃ ref, (f.publishPolicy a now policy).1 = .ok ref) ∨
      (f.publishPolicy a now policy).2.policies = f.policies)
    (hkept : policy.ref.id ∈ f.policies.map PolicyStore.key →
      Name.policy policy.ref.id ∈ written (entries limits f.storage.disk.log)) :
    (f.publishPolicy a now policy).2.Governed limits := by
  obtain ⟨n, hdraws, hmirrored⟩ := f.publishPolicy_mirrored h.readable h.wellFormed hfiles now
    policy
  have hframe : (f.publishPolicy a now policy).2.attempts = f.attempts ∧
      (f.publishPolicy a now policy).2.backends = f.backends := by
    unfold Fabric.publishPolicy
    dsimp only
    repeat' split
    all_goals exact ⟨rfl, rfl⟩
  refine ⟨h.readable.publishPolicy h.described now policy, hframe.1 ▸ h.wellFormed,
    hframe.2.trans h.backends, ?_, ?_⟩
  · exact hmirrored (hroom.room hdraws (f.publishPolicy_operations hfiles now policy)) h.mirrored
      hdone
  · exact f.publishPolicy_ordered h.readable h.wellFormed hfiles now policy hroom h.mirrored
      h.ordered hdone hkept

theorem removePolicy (h : f.Governed limits) (hfiles : a.files.Succeeds)
    (hroom : f.storage.Roomy limits) (now : Instant) (id : PolicyId)
    (hdone : (f.removePolicy a now id).1.isOk = true ∨
      (f.removePolicy a now id).2.policies = f.policies) :
    (f.removePolicy a now id).2.Governed limits := by
  obtain ⟨n, hdraws, hmirrored⟩ := f.removePolicy_mirrored h.readable h.wellFormed hfiles now id
  have hframe : (f.removePolicy a now id).2.attempts = f.attempts ∧
      (f.removePolicy a now id).2.backends = f.backends := by
    unfold Fabric.removePolicy
    dsimp only
    repeat' split
    all_goals exact ⟨rfl, rfl⟩
  refine ⟨h.readable.removePolicy h.described now id, hframe.1 ▸ h.wellFormed,
    hframe.2.trans h.backends, ?_, ?_⟩
  · exact hmirrored (hroom.room hdraws (f.removePolicy_operations hfiles now id)) h.mirrored hdone
  · exact f.removePolicy_ordered h.readable h.wellFormed hfiles now id hroom h.mirrored h.ordered
      hdone

end Fabric.Governed

/-- Every step of a call of the policy store keeps what the calls rely on. -/
theorem Call.step_governed {w : World} {i : ℕ} {k : Call} (hk : k.Governs)
    (h : w.shared.Governed limits) (hok : publishesOnRecord limits w (.move i k a)) :
    (Call.step w.shared a k).1.Governed limits ∧
      ∀ k', (Call.step w.shared a k).2 = some k' → k'.Governs := by
  obtain ⟨⟨hfiles, hroom, hdone⟩, hkept⟩ := hok
  cases k with
  | enter request =>
    have hsame := h.of_same w.shared.clock (w.shared.activeOperations + 1)
    cases request with
    | publishPolicy policy =>
      exact ⟨hsame, fun k' hk' => Option.some.inj hk' ▸ rfl⟩
    | removePolicy id =>
      exact ⟨hsame, fun k' hk' => Option.some.inj hk' ▸ rfl⟩
    | _ => cases hk
  | trust request =>
    refine ⟨h, fun k' hk' => ?_⟩
    obtain rfl := Option.some.inj hk'
    split
    · exact hk
    · trivial
  | sample request =>
    refine ⟨h.of_same _ w.shared.activeOperations, fun k' hk' => ?_⟩
    obtain rfl := Option.some.inj hk'
    exact hk
  | locked request now =>
    cases request with
    | publishPolicy policy =>
      refine ⟨h.publishPolicy hfiles hroom now policy hdone hkept, fun k' hk' => ?_⟩
      obtain rfl := Option.some.inj hk'
      trivial
    | removePolicy id =>
      refine ⟨h.removePolicy hfiles hroom now id hdone, fun k' hk' => ?_⟩
      obtain rfl := Option.some.inj hk'
      trivial
    | _ => cases hk
  | leave reply =>
    exact ⟨h.of_same w.shared.clock (w.shared.activeOperations - 1), fun k' hk' => by cases hk'⟩
  | _ => cases hk

/-! ### Starting over no files -/

namespace Fabric.Governed

/-- Nothing is held, and the files say nothing. -/
theorem empty (hlimits : f.config.limits = limits) (hbindings : f.bindings = [])
    (hpolicies : f.policies = []) (henvelopes : f.envelopes.entries = [])
    (hattempts : f.attempts.entries = []) (hwf : f.attempts.WellFormed)
    (hbackends : f.backends = []) (hepoch : f.epoch.valid = true)
    (hsealed : f.storage.Sealed limits) (hrecords : f.storage.disk.records = [])
    (hopen : f.storage.durable ≠ none) : f.Governed limits := by
  have hlog : f.storage.disk.log = [] := by rw [Disk.log, hrecords, List.map_nil]
  have hnone : ∀ id, f.attempts.record id = none := by
    intro id
    cases hr : f.attempts.record id with
    | none => rfl
    | some r =>
      obtain ⟨i, e, he, -⟩ := hwf.record_eq_some_iff.1 hr
      rw [hattempts] at he
      simp at he
  refine ⟨⟨hlimits, by simp [hbindings], by simp [hpolicies], by simp [henvelopes],
      by simp [hattempts], .inr hepoch, by simp [hrecords]⟩, hwf, hbackends,
    ⟨hsealed, fun h => absurd h hopen, ?_, by simp [hpolicies], by simp [hbindings],
      by simp [hpolicies], ⟨?_, ?_⟩⟩, ⟨?_, ?_⟩⟩
  · rw [hbindings]
    exact fun i j s t hi => by simp at hi
  · rw [hlog]
    funext k
    cases k with
    | flow id => simp [entries, held, hbindings, BindingRegistry.bound, lookup]
    | policy id => simp [entries, held, hpolicies, PolicyStore.published, lookup]
    | attempt id => simp [entries, held, hnone]
  · rw [hlog]
    exact fun k hk => by simp [entries, written] at hk
  · rw [hlog, hpolicies]
    exact .nil
  · rw [hlog]
    exact fun id hid => by simp [entries, written] at hid

/-- A record that stands for no write is journaled. -/
theorem inert (h : f.Governed limits) (hfiles : a.files.Succeeds)
    (hroom : f.storage.Roomy limits) {type : DurableRecordType} {payload : Bytes} (ts : UInt64)
    (hinert : type.inert = true) (hlegible : ∀ sequence ts,
      DurableRecord.legible limits ⟨type, sequence, ts, payload⟩ = true) :
    (f.journalRecord a type payload ts).2.Governed limits := by
  have htables := h.mirrored.tabled h.readable h.wellFormed
  have hentry : logEntry limits (type, payload) = none := logEntry_inert hinert payload
  obtain ⟨n, hdraws, hmirrored⟩ := f.journal_mirrored h.readable.config hfiles type payload ts
  obtain ⟨m, hmore, -, hafter⟩ := f.journal_sealed h.readable.config hfiles type payload ts
  have hops := Fabric.journal_operations (f := f) hfiles type payload ts
  obtain ⟨-, hjournals⟩ := hafter (hroom.room hmore hops) h.mirrored.sealed
  refine ⟨h.readable.journalRecord h.described hlegible, h.wellFormed, h.backends, ?_, ?_⟩
  · exact hmirrored (hroom.room hdraws hops) h.mirrored.sealed h.mirrored.stopped
      h.mirrored.apart h.mirrored.ids h.mirrored.flows h.mirrored.policies fun hjournals =>
        hjournals.skip htables h.mirrored.logged hentry
  · exact (hjournals.ordered_skip htables h.mirrored.policies h.ordered hentry).congr rfl

theorem started (h : f.Governed limits) (hopen : f.storage.durable ≠ none) :
    ({ f with initialized := true, running := true } : Fabric).Governed limits :=
  ⟨⟨h.readable.config, h.readable.bindings, h.readable.policies, h.readable.envelopes,
      h.readable.attempts, h.readable.epoch, h.readable.records⟩,
    h.wellFormed, h.backends,
    ⟨h.mirrored.sealed, fun hnone => absurd hnone hopen, h.mirrored.apart, h.mirrored.ids,
      h.mirrored.flows, h.mirrored.policies, h.mirrored.logged.congr rfl rfl rfl⟩,
    h.ordered.congr rfl⟩

end Fabric.Governed

theorem Fabric.advanceIncarnation_valid : (f.advanceIncarnation a).1.isOk = true →
    (f.advanceIncarnation a).2.epoch.valid = true := by
  have hvalid := Epoch.valid_advanced (e := f.epoch)
  unfold Fabric.advanceIncarnation
  generalize f.epoch.advanced = advanced at hvalid ⊢
  obtain ⟨epoch, exhausted⟩ := advanced
  dsimp only at hvalid ⊢
  split
  · exact fun h => by cases h
  rename_i hroom
  split
  · exact fun h => by cases h
  · exact fun _ => hvalid (by simpa using hroom)

/-- The first start finds nothing, and journals its epoch. -/
theorem Fabric.initializeFabric_governed {config : FabricConfig}
    (hdurable : usesDirectory config = true) (hfiles : a.files.Succeeds)
    (hok : ((construct config {}).initializeFabric a).1.isOk = true) :
    ((construct config {}).initializeFabric a).2.Governed config.limits := by
  obtain ⟨store, disk', hopen⟩ := initializeFabric_opened a hdurable hok
  obtain ⟨hrecover, heq⟩ := initializeFabric_recover a hdurable hopen hok
  rw [hfiles.opening] at hopen
  have hsequences : ∀ r ∈ ({} : Disk).records, r.sequence ≤ 0 := fun r hr => by cases hr
  obtain ⟨hrecovered, hrecords, -, hsealed⟩ :=
    (Disk.sealed_empty config.limits).openStore hopen hsequences
  -- there is nothing to replay
  have hnil : store.recovered = [] := hrecovered
  rw [heq, hnil]
  rw [hnil] at hrecover
  unfold recover at hrecover ⊢
  dsimp only at hrecover ⊢
  have hvalid := advanceIncarnation_valid (a := a)
    (f := (((opened a config disk' store).beginRecovery a []).replay a []).fabric.countRestored)
  obtain ⟨epoch, boot, recovery, hadvance⟩ := advanceIncarnation_frame
    (f := (((opened a config disk' store).beginRecovery a []).replay a []).fabric.countRestored) a
  generalize ((((opened a config disk' store).beginRecovery a []).replay a
    []).fabric.countRestored).advanceIncarnation a = advanced
    at hrecover hvalid hadvance ⊢
  obtain ⟨status, g⟩ := advanced
  dsimp only at hrecover hvalid hadvance ⊢
  cases hstatus : status.isOk with
  | false =>
    simp [hstatus] at hrecover
  | true =>
    simp only [hstatus, Bool.not_true, Bool.false_eq_true, if_false] at hrecover ⊢
    have hgepoch := hvalid hstatus
    have hsettled : (g.settle a (((opened a config disk' store).beginRecovery a []).replay a
        [])).Governed config.limits ∧ (g.settle a (((opened a config disk' store).beginRecovery
          a []).replay a [])).storage = ⟨disk', some store, 0⟩ ∧
        (g.settle a (((opened a config disk' store).beginRecovery a []).replay a
          [])).epoch.valid = true := by
      subst hadvance
      refine ⟨.empty rfl rfl rfl rfl rfl ?_ rfl hgepoch hsealed hrecords
        (Option.some_ne_none store), rfl, hgepoch⟩
      exact AttemptLedger.wellFormed_empty
    obtain ⟨hgoverned, hstorage, hsepoch⟩ := hsettled
    generalize g.settle a _ = f at hgoverned hstorage hsepoch hrecover ⊢
    have hopened : f.storage.durable ≠ none := by
      rw [hstorage]
      exact Option.some_ne_none store
    unfold journalEpoch
    cases hpayload : encodeEpochPayload f.epoch f.boot with
    | error status' => exact hgoverned.started hopened
    | ok payload =>
      have hroom : f.storage.Roomy config.limits := by
        rw [hstorage]
        have hlt := UInt32.toNat_lt config.limits.maxCompactionBatch
        change (0 : UInt64).toNat + _ < _
        rw [UInt64.toNat_zero]
        omega
      have hitem : (LiveItem.epoch f.epoch f.boot).Legible config.limits := hsepoch
      obtain ⟨-, -, hdurable', -⟩ := f.journal_sealed hgoverned.readable.config hfiles
        .epochAdvance payload a.recoverNow.ns
      refine (hgoverned.inert hfiles hroom a.recoverNow.ns rfl (hitem.payload hpayload)).started ?_
      intro hnone
      have hnone : (f.journal a .epochAdvance payload a.recoverNow.ns).2.durable = none := hnone
      rw [hnone, hstorage] at hdurable'
      cases hdurable'

/-- In every run of publications and removals, whatever checkpoints fall in between, and
wherever it is cut off: the next start resolves every flow and resource as before. -/
theorem resolve_survives {config : FabricConfig} {a₀ : Answers}
    (hdurable : Fabric.usesDirectory config = true) (hfiles₀ : a₀.files.Succeeds)
    (hok₀ : ((Fabric.construct config {}).initializeFabric a₀).1.isOk = true)
    {w : World} {n : ℕ} (hrun : Run coordinator (publishesOnRecord config.limits)
      (.idle ((Fabric.construct config {}).initializeFabric a₀).2) n w)
    (hfiles : a.files.Succeeds)
    (hok : ((Fabric.construct config w.shared.storage.disk).initializeFabric a).1.isOk = true)
    (flow : FlowId) (resource : ResourceId) :
    ((Fabric.construct config w.shared.storage.disk).initializeFabric a).2.policies.resolve flow
        resource = w.shared.policies.resolve flow resource := by
  have hinv : w.shared.Governed config.limits ∧ ∀ i k, w.calls i = some k → k.Governs := by
    refine hrun.invariant (I := fun w => w.shared.Governed config.limits ∧
      ∀ i k, w.calls i = some k → k.Governs)
      ⟨Fabric.initializeFabric_governed hdurable hfiles₀ hok₀, fun _ _ h => by cases h⟩ ?_
    rintro w e w' ⟨hgoverned, hcalls⟩ hstep hs
    cases hs with
    | @start i r free =>
      refine ⟨hgoverned, fun j k hk => ?_⟩
      by_cases hj : j = i
      · subst hj
        obtain rfl : coordinator.begin r = k := by simpa using hk
        cases r with
        | publishPolicy | removePolicy => rfl
        | _ => cases hstep.1
      · exact hcalls j k (by simpa [Function.update_of_ne hj] using hk)
    | @move i k a here =>
      obtain ⟨hnext, hgoverns⟩ := Call.step_governed (hcalls i k here) hgoverned hstep
      refine ⟨hnext, fun j l hl => ?_⟩
      by_cases hj : j = i
      · subst hj
        have hl : (coordinator.step w.shared a k).2 = some l := by simpa using hl
        exact hgoverns l hl
      · exact hcalls j l (by simpa [Function.update_of_ne hj] using hl)
    | restart _ => exact absurd hstep.1 id
  obtain ⟨hgoverned, -⟩ := hinv
  rw [Fabric.initializeFabric_policies hgoverned.mirrored.sealed.disk hdurable hfiles hok]
  exact PolicyStore.resolve_of_thinned hgoverned.ordered.thinned flow resource

/-! ### A checkpoint between removal and publication -/

namespace Scenario

/-- A policy of the first flow. -/
def flowPolicy (id : UInt64) : PacingPolicy :=
  { policy with ref := ⟨⟨id⟩, ⟨1⟩⟩, layer := .flow, flow := ⟨1⟩ }

/-- A coordinator that writes a checkpoint every three records. -/
def governing : World := .idle ((Fabric.construct narrow {}).initializeFabric starting).2

/-- Two policies are published, which fills the journal. -/
def publishTwo : List (Action Request Answers) :=
  calls 0 (.publishPolicy (flowPolicy 1)) 4 ++ calls 0 (.publishPolicy (flowPolicy 2)) 4

/-- A checkpoint falls into the removal of the first, which is then published again. -/
def republishFirst : List (Action Request Answers) :=
  publishTwo ++ calls 0 (.removePolicy ⟨1⟩) 4 ++ calls 0 (.publishPolicy (flowPolicy 1)) 4

/-- A checkpoint falls into the removal of the first, and a third policy is published. -/
def replaceFirst : List (Action Request Answers) :=
  publishTwo ++ calls 0 (.removePolicy ⟨1⟩) 4 ++ calls 0 (.publishPolicy (flowPolicy 3)) 4

/-- The identity a resolution ends with. -/
def chosen : StatusOr PacingPolicy → Option PolicyId
  | .ok policy => some policy.ref.id
  | .error _ => none

/-- Every publication succeeds and fills a new slot, and every removal succeeds. -/
def publishesAnew (w : World) : Event Call Request Answers → Bool
  | .start _ r => r.governs
  | .move _ k a =>
    decide (w.shared.storage.Roomy narrow.limits) && match k with
    | .locked (.publishPolicy policy) now =>
      (match (w.shared.publishPolicy a now policy).1 with
        | .ok _ => true
        | .error _ => false) &&
      decide (policy.ref.id ∉ w.shared.policies.map PolicyStore.key)
    | .locked (.removePolicy id) now => (w.shared.removePolicy a now id).1.isOk
    | _ => true
  | .restart => false

theorem publishesOnRecord_of_publishesAnew (w : World) (e : Event Call Request Answers)
    (h : publishesAnew w e = true) (hfiles : ∀ i k a, e = .move i k a → a.files.Succeeds) :
    publishesOnRecord narrow.limits w e := by
  cases e with
  | start i r => exact ⟨h, trivial⟩
  | restart => cases h
  | move i k a =>
    unfold publishesAnew at h
    rw [Bool.and_eq_true, decide_eq_true_iff] at h
    obtain ⟨hroom, hk⟩ := h
    replace hfiles := hfiles i k a rfl
    cases k with
    | locked request now =>
      cases request with
      | publishPolicy policy =>
        obtain ⟨hok, hfresh⟩ := (Bool.and_eq_true _ _).mp hk
        refine ⟨⟨hfiles, hroom, .inl ?_⟩, fun hmem => absurd hmem (of_decide_eq_true hfresh)⟩
        generalize (w.shared.publishPolicy a now policy).1 = published at hok ⊢
        cases published with
        | ok ref => exact ⟨ref, rfl⟩
        | error status => cases hok
      | removePolicy id => exact ⟨⟨hfiles, hroom, .inl hk⟩, trivial⟩
      | _ => exact ⟨⟨hfiles, hroom, trivial⟩, trivial⟩
    | _ => exact ⟨⟨hfiles, hroom, trivial⟩, trivial⟩

/-- Every publication and every removal succeeds. -/
def publishesAgain (w : World) : Event Call Request Answers → Bool
  | .start _ r => r.governs
  | .move _ k a =>
    decide (w.shared.storage.Roomy narrow.limits) && match k with
    | .locked (.publishPolicy policy) now =>
      (match (w.shared.publishPolicy a now policy).1 with
        | .ok _ => true
        | .error _ => false)
    | .locked (.removePolicy id) now => (w.shared.removePolicy a now id).1.isOk
    | _ => true
  | .restart => false

theorem publishesDurably_of_publishesAgain (w : World) (e : Event Call Request Answers)
    (h : publishesAgain w e = true) (hfiles : ∀ i k a, e = .move i k a → a.files.Succeeds) :
    publishesDurably narrow.limits w e := by
  cases e with
  | start i r => exact h
  | restart => cases h
  | move i k a =>
    unfold publishesAgain at h
    rw [Bool.and_eq_true, decide_eq_true_iff] at h
    obtain ⟨hroom, hk⟩ := h
    refine ⟨hfiles i k a rfl, hroom, ?_⟩
    cases k with
    | locked request now =>
      cases request with
      | publishPolicy policy =>
        refine .inl ?_
        dsimp only at hk
        generalize (w.shared.publishPolicy a now policy).1 = published at hk ⊢
        cases published with
        | ok ref => exact ⟨ref, rfl⟩
        | error status => cases hk
      | removePolicy id => exact .inl hk
      | _ => trivial
    | _ => trivial

end Scenario

/-- Two publications, a removal that writes a checkpoint, one more publication and a start after
them: the flow is resolved to the second policy before and after. -/
theorem resolve_survives_replacement :
    Scenario.chosen ((coordinator.exec Scenario.governing
        Scenario.replaceFirst).shared.policies.resolve ⟨1⟩ ⟨1⟩) = some ⟨2⟩ ∧
      (coordinator.exec Scenario.governing
        Scenario.replaceFirst).shared.storage.disk.snapshot.isSome = true ∧
      ((Fabric.construct Scenario.narrow (coordinator.exec Scenario.governing
          Scenario.replaceFirst).shared.storage.disk).initializeFabric
            Scenario.starting).2.policies.resolve ⟨1⟩ ⟨1⟩ =
        (coordinator.exec Scenario.governing Scenario.replaceFirst).shared.policies.resolve
          ⟨1⟩ ⟨1⟩ := by
  obtain ⟨n, hn⟩ := @Program.run_of_tested _ _ _ _ coordinator _
    (fun a : Answers => a.files.Succeeds) _ Scenario.publishesOnRecord_of_publishesAnew
    Scenario.replaceFirst (fun i a hmem => by
      simp only [Scenario.replaceFirst, Scenario.publishTwo, List.mem_append] at hmem
      rcases hmem with ((hmem | hmem) | hmem) | hmem <;>
        exact Scenario.answers_calls hmem ▸ Scenario.succeeds_answers)
    Scenario.governing (by decide +kernel)
  have hok : ((Fabric.construct Scenario.narrow (coordinator.exec Scenario.governing
      Scenario.replaceFirst).shared.storage.disk).initializeFabric
        Scenario.starting).1.isOk = true := by decide +kernel
  refine ⟨by decide +kernel, by decide +kernel, ?_⟩
  generalize coordinator.exec Scenario.governing Scenario.replaceFirst = w at hn hok ⊢
  unfold Scenario.governing at hn
  exact @resolve_survives Scenario.starting Scenario.narrow Scenario.starting (by decide)
    Scenario.succeeds_answers
    (by decide +kernel) _ _ hn Scenario.succeeds_answers hok ⟨1⟩ ⟨1⟩

/-- A policy removed across a checkpoint and published again changes places with another
policy of its flow: the next start resolves the flow to the other one. -/
theorem resolve_swapped :
    ∃ n w, Run coordinator (publishesDurably Scenario.narrow.limits) Scenario.governing n w ∧
      ((Fabric.construct Scenario.narrow w.shared.storage.disk).initializeFabric
        Scenario.starting).1.isOk = true ∧
      ((Fabric.construct Scenario.narrow w.shared.storage.disk).initializeFabric
        Scenario.starting).2.policies.resolve ⟨1⟩ ⟨1⟩ ≠ w.shared.policies.resolve ⟨1⟩ ⟨1⟩ := by
  obtain ⟨n, hn⟩ := @Program.run_of_tested _ _ _ _ coordinator _
    (fun a : Answers => a.files.Succeeds) _ Scenario.publishesDurably_of_publishesAgain
    Scenario.republishFirst (fun i a hmem => by
      simp only [Scenario.republishFirst, Scenario.publishTwo, List.mem_append] at hmem
      rcases hmem with ((hmem | hmem) | hmem) | hmem <;>
        exact Scenario.answers_calls hmem ▸ Scenario.succeeds_answers)
    Scenario.governing (by decide +kernel)
  refine ⟨n, _, hn, by decide +kernel, fun hsame => ?_⟩
  exact absurd (congrArg Scenario.chosen hsame) (by decide +kernel)

end Pacing
