import PacingFabric.Storage.KeyedLog
import PacingFabric.Theorems.Refusals
import PacingFabric.Theorems.Registries

/-!
# What the files stand for

The records of the files stand for a finite map: the binding of each flow, the policy of
each identity, and what each attempt was asked for. As long as every durable write of a
registry operation succeeds, this map is what the coordinator holds, whether a compaction
came in between or not.

## Main definitions

* `Name`, `Held`: what a restart restores, as one map `Fabric.held`.
* `logEntry`: the write a record stands for.
* `Fabric.Mirrored`: the files stand for what the coordinator holds.

## Main results

* `Fabric.compacted_logged`: a compacted set stands for what it was made from.
* `Fabric.publishPolicy_mirrored`, `Fabric.removePolicy_mirrored`: publications and removals keep
  the files in step.
-/

namespace Pacing

open KeyedLog SlotTable

variable {limits : Limits} {old : List DurableRecord} {f g : Fabric} {a : Answers}

/-- What an attempt was asked for. -/
structure Requested where
  envelope : EnvelopeRef
  flow : FlowId
  resource : ResourceId
  authority : AuthorityVector
  desired : Cadence
  backend : BackendRef
  deriving DecidableEq

def ApplicationRecord.requested (r : ApplicationRecord) : Requested :=
  ⟨r.envelope, r.flow, r.resource, r.authority, r.desired, r.backend⟩

/-- The names under which a restart restores something. -/
inductive Name
  | flow (id : FlowId)
  | policy (id : PolicyId)
  | attempt (id : AttemptId)
  deriving DecidableEq

/-- What a name stands for. -/
inductive Held
  | binding (binding : FlowBinding)
  | policy (policy : PacingPolicy)
  | attempt (requested : Requested)
  deriving DecidableEq

namespace Fabric

/-- Everything a restart restores. -/
def held (f : Fabric) : Name → Option Held
  | .flow id => (f.bindings.bound id).map .binding
  | .policy id => (f.policies.published id).map .policy
  | .attempt id => (f.attempts.record id).map (.attempt ·.requested)

/-- The names with a slot, whatever its mark. -/
def Names (f : Fabric) : Name → Prop
  | .flow id => id ∈ f.bindings.map BindingRegistry.key
  | .policy id => id ∈ f.policies.map PolicyStore.key
  | .attempt _ => True

end Fabric

/-- The write a record stands for. Replay validates a policy again. -/
def logEntry (limits : Limits) (c : Fabric.Compacted) : Option (Entry Name Held) :=
  match c.1 with
  | .flowBinding =>
    (decodePayload (decodeBinding limits) c.2).map fun b => .put (.flow b.flow) (.binding b)
  | .policy =>
    (decodePayload (decodePolicy limits) c.2).bind fun p =>
      if (p.validate limits).isOk then some (.put (.policy p.ref.id) (.policy p)) else none
  | .attempt =>
    (decodePayload (decodeAttempt limits) c.2).map fun r =>
      .put (.attempt r.attempt) (.attempt r.requested)
  | .flowUnbound =>
    (decodePayload decodeIdentityU64 c.2).map fun flow => .delete (.flow ⟨flow⟩)
  | .policyRemoved =>
    (decodePayload decodeIdentityU64 c.2).map fun id => .delete (.policy ⟨id⟩)
  | _ => none

/-- The writes a log stands for. -/
def entries (limits : Limits) (log : List Fabric.Compacted) : List (Entry Name Held) :=
  log.filterMap (logEntry limits)

/-- The log stands for what the coordinator holds. -/
structure Fabric.Logged (limits : Limits) (f : Fabric) (log : List Fabric.Compacted) : Prop where
  held : KeyedLog.replay (entries limits log) = f.held
  names : ∀ k ∈ written (entries limits log), f.Names k

/-! ### Names that change -/

theorem Fabric.held_policies {policies : PolicyStore} {id : PolicyId}
    {value : Option PacingPolicy}
    (h : policies.published = Function.update f.policies.published id value) :
    ({ f with policies := policies } : Fabric).held =
      Function.update f.held (.policy id) (value.map .policy) := by
  funext k
  cases k with
  | flow flow => rw [Function.update_of_ne (by simp)]; rfl
  | policy id' =>
    change (policies.published id').map _ = _
    rw [h]
    by_cases hid : id' = id
    · subst hid
      rw [Function.update_self, Function.update_self]
    · rw [Function.update_of_ne hid, Function.update_of_ne (by simpa using hid)]
      rfl
  | attempt attempt => rw [Function.update_of_ne (by simp)]; rfl

/-! ### Extending a log -/

namespace Fabric.Logged
variable {base : List Fabric.Compacted} {c : Fabric.Compacted} {e : Entry Name Held}

theorem of_held (h : f.Logged limits base) (hheld : g.held = f.held)
    (hbindings : g.bindings = f.bindings) (hpolicies : g.policies = f.policies) :
    g.Logged limits base := by
  refine ⟨h.held.trans hheld.symm, fun k hk => ?_⟩
  have hname := h.names k hk
  cases k with
  | flow id =>
    rw [Fabric.Names, hbindings]
    exact hname
  | policy id =>
    rw [Fabric.Names, hpolicies]
    exact hname
  | attempt id => trivial

/-- What a log stands for depends on the registries and the ledger only. -/
theorem congr (h : f.Logged limits base) (hbindings : g.bindings = f.bindings)
    (hpolicies : g.policies = f.policies) (hattempts : g.attempts.record = f.attempts.record) :
    g.Logged limits base := by
  refine h.of_held (funext fun k => ?_) hbindings hpolicies
  cases k <;> simp only [Fabric.held, hbindings, hpolicies, hattempts]

/-- A record that stands for no write. -/
theorem skip (h : f.Logged limits base) (hentry : logEntry limits c = none) :
    f.Logged limits (base ++ [c]) := by
  have hentries : entries limits (base ++ [c]) = entries limits base := by
    rw [entries, List.filterMap_append, List.filterMap_cons_none hentry, List.filterMap_nil,
      List.append_nil, entries]
  exact ⟨hentries ▸ h.held, hentries ▸ h.names⟩

/-- A record that stands for the change from `f` to `g`. -/
theorem concat (h : f.Logged limits base) (hentry : logEntry limits c = some e)
    (happly : e.apply f.held = g.held) (hnames : ∀ k, f.Names k → g.Names k)
    (hkey : g.Names e.key) : g.Logged limits (base ++ [c]) := by
  have hentries : entries limits (base ++ [c]) = entries limits base ++ [e] := by
    rw [entries, List.filterMap_append, List.filterMap_cons_some hentry, List.filterMap_nil,
      entries]
  refine ⟨?_, fun k hk => ?_⟩
  · rw [hentries, replay_concat, h.held, happly]
  · rw [hentries, written_append, Finset.mem_union] at hk
    rcases hk with hk | hk
    · exact hnames k (h.names k hk)
    · cases e with
      | put key value =>
        rw [written_put, Finset.mem_singleton] at hk
        exact hk ▸ hkey
      | delete key => simp at hk

end Fabric.Logged

/-! ### Compaction -/

/-- The write an item stands for. -/
def LiveItem.entry : LiveItem → Option (Entry Name Held)
  | .binding b => some (.put (.flow b.flow) (.binding b))
  | .policy p => some (.put (.policy p.ref.id) (.policy p))
  | .attempt r => some (.put (.attempt r.attempt) (.attempt r.requested))
  | _ => none

/-- Tables whose live slots are told apart by their keys, and can be read back. -/
structure Fabric.Tabled (limits : Limits) (f : Fabric) : Prop where
  apart : f.bindings.Apart
  ids : (f.policies.map PolicyStore.key).Nodup
  attempts : f.attempts.WellFormed
  legible : ∀ e ∈ f.bindings, e.binding.Legible limits
  valid : ∀ e ∈ f.policies, (e.policy.validate limits).isOk = true
  recorded : ∀ e ∈ f.attempts.entries, e.record.Legible limits

/-- The pairs a compaction writes. -/
def Fabric.pairs (f : Fabric) : List (Name × Held) :=
  f.bindings.liveBindings.map (fun b => (.flow b.flow, .binding b)) ++
    f.policies.livePolicies.map (fun p => (.policy p.ref.id, .policy p)) ++
    (f.attempts.entries.filter (·.live)).map
      fun e => (.attempt e.record.attempt, .attempt e.record.requested)

/-- The items of a compaction stand for the pairs. -/
theorem Fabric.entry_liveItems (f : Fabric) (describe : BackendPtr → BackendDescriptor) :
    (f.liveItems describe).filterMap LiveItem.entry = puts f.pairs := by
  -- envelopes and backends are journaled, but no restart restores them as they were
  have henvelope : ∀ e : EnvelopeEntry, e.items.filterMap LiveItem.entry = [] := by
    intro e
    unfold EnvelopeEntry.items
    split <;> rfl
  have hnone : ∀ es : List EnvelopeEntry,
      (es.flatMap EnvelopeEntry.items).filterMap LiveItem.entry = [] := by
    intro es
    induction es with
    | nil => rfl
    | cons e es ih => rw [List.flatMap_cons, List.filterMap_append, henvelope, ih, List.append_nil]
  have hbackends : ∀ backends : List (BackendId × BackendPtr),
      (backends.map fun backend => LiveItem.backend (describe backend.2)).filterMap
        LiveItem.entry = [] := by
    intro backends
    rw [List.filterMap_map]
    exact List.filterMap_eq_nil_iff.2 fun _ _ => rfl
  have hmap : ∀ {α : Type} (xs : List α) (item : α → LiveItem) (pair : α → Name × Held),
      (∀ x, (item x).entry = some (.put (pair x).1 (pair x).2)) →
      (xs.map item).filterMap LiveItem.entry = puts (xs.map pair) := by
    intro α xs item pair hpair
    rw [List.filterMap_map, puts, List.map_map]
    exact List.filterMap_eq_map_iff_forall_eq_some.2 fun x _ => hpair x
  unfold Fabric.liveItems Fabric.pairs
  simp only [List.filterMap_append, hnone, hbackends]
  rw [hmap _ _ (fun b => (Name.flow b.flow, Held.binding b)) fun _ => rfl,
    hmap _ _ (fun p => (Name.policy p.ref.id, Held.policy p)) fun _ => rfl,
    hmap _ _ (fun e : AttemptEntry =>
      (Name.attempt e.record.attempt, Held.attempt e.record.requested)) fun _ => rfl]
  simp [puts, LiveItem.entry]

/-- The record of an item that can be read back. -/
theorem LiveItem.logEntry {item : LiveItem} {c : Fabric.Compacted} (hc : item.compact = .ok c)
    (h : ∀ e, item.entry = some e → item.Legible limits) :
    Pacing.logEntry limits c = item.entry := by
  obtain ⟨htype, hpayload⟩ := Fabric.compact_eq_ok_iff.1 hc
  unfold Pacing.logEntry
  rw [htype]
  cases item with
  | binding b =>
    have hlegible : b.Legible limits := h _ rfl
    change (decodePayload (decodeBinding limits) c.2).map _ = _
    rw [accepts_binding hlegible hpayload]
    rfl
  | policy p =>
    have hvalid : (p.validate limits).isOk = true := h _ rfl
    change (decodePayload (decodePolicy limits) c.2).bind _ = _
    rw [accepts_policy hvalid hpayload, Option.bind_some, if_pos hvalid]
    rfl
  | attempt r =>
    have hlegible : r.Legible limits := h _ rfl
    change (decodePayload (decodeAttempt limits) c.2).map _ = _
    rw [accepts_attempt hlegible hpayload]
    rfl
  | envelope | revocation | backend | epoch => rfl

namespace Fabric.Tabled

/-- Items that stand for a write are read back. -/
theorem legible_of_entry (h : f.Tabled limits) {describe : BackendPtr → BackendDescriptor}
    {item : LiveItem} (hitem : item ∈ f.liveItems describe) {e : Entry Name Held}
    (he : item.entry = some e) : item.Legible limits := by
  simp only [Fabric.liveItems, List.mem_append, List.mem_map, List.mem_flatMap,
    List.mem_filter, List.mem_singleton, BindingRegistry.liveBindings,
    PolicyStore.livePolicies] at hitem
  rcases hitem with ((((⟨_, ⟨x, hx, rfl⟩, rfl⟩ | ⟨_, ⟨x, hx, rfl⟩, rfl⟩) | ⟨x, -, hx⟩) |
    ⟨x, hx, rfl⟩) | ⟨backend, -, rfl⟩) | rfl
  · exact h.legible x hx.1
  · exact h.valid x hx.1
  · unfold EnvelopeEntry.items at hx
    rcases List.mem_cons.1 hx with rfl | hx
    · cases he
    · split at hx
      · obtain rfl := List.mem_singleton.1 hx
        cases he
      · cases hx
  · exact h.recorded x hx.1
  · cases he
  · cases he

theorem apart_attempts (h : f.Tabled limits) :
    SlotTable.Apart (fun e : AttemptEntry => e.record.attempt) (·.live) f.attempts.entries :=
  fun _ _ _ _ hi hj _ _ hkey => h.attempts.slot_unique hi hj hkey

/-- The pairs have different names. -/
theorem nodup_pairs (h : f.Tabled limits) : (f.pairs.map Prod.fst).Nodup := by
  have hflows : (f.bindings.liveBindings.map fun b => Name.flow b.flow).Nodup := by
    have hnodup := h.apart.nodup.map (f := Name.flow) fun _ _ => Name.flow.inj
    rw [List.map_map] at hnodup
    rw [BindingRegistry.liveBindings, List.map_map]
    exact hnodup
  have hpolicies : (f.policies.livePolicies.map fun p => Name.policy p.ref.id).Nodup := by
    have hnodup := (apart_of_nodup h.ids : Apart _ (·.live) _).nodup.map (f := Name.policy)
      fun _ _ => Name.policy.inj
    rw [List.map_map] at hnodup
    rw [PolicyStore.livePolicies, List.map_map]
    exact hnodup
  have hattempts : ((f.attempts.entries.filter (·.live)).map
      fun e => Name.attempt e.record.attempt).Nodup := by
    have hnodup := h.apart_attempts.nodup.map (f := Name.attempt) fun _ _ => Name.attempt.inj
    rw [List.map_map] at hnodup
    exact hnodup
  unfold Fabric.pairs
  rw [List.map_append, List.map_append, List.map_map, List.map_map, List.map_map,
    List.nodup_append, List.nodup_append]
  -- names of different kinds differ by their constructor
  refine ⟨⟨hflows, hpolicies, ?_⟩, hattempts, ?_⟩
  · intro k hk k' hk'
    obtain ⟨b, -, rfl⟩ := List.mem_map.1 hk
    obtain ⟨p, -, rfl⟩ := List.mem_map.1 hk'
    simp
  · intro k hk k' hk'
    obtain ⟨e, -, rfl⟩ := List.mem_map.1 hk'
    rcases List.mem_append.1 hk with hk | hk
    · obtain ⟨b, -, rfl⟩ := List.mem_map.1 hk
      simp
    · obtain ⟨p, -, rfl⟩ := List.mem_map.1 hk
      simp

/-- The pairs are what the coordinator holds. -/
theorem mem_pairs (h : f.Tabled limits) {k : Name} {v : Held} :
    (k, v) ∈ f.pairs ↔ f.held k = some v := by
  have hpolicies : SlotTable.Apart PolicyStore.key (·.live) f.policies := apart_of_nodup h.ids
  unfold Fabric.pairs
  simp only [List.mem_append, List.mem_map, Prod.mk.injEq, BindingRegistry.liveBindings,
    PolicyStore.livePolicies, List.mem_filter]
  cases k with
  | flow id =>
    simp only [Fabric.held, BindingRegistry.bound, Option.map_eq_some_iff, Name.flow.injEq,
      reduceCtorEq, false_and, and_false, exists_false, or_false]
    constructor
    · rintro ⟨_, ⟨e, ⟨he, hlive⟩, rfl⟩, rfl, rfl⟩
      obtain ⟨i, hi⟩ := List.mem_iff_getElem?.1 he
      exact ⟨_, ⟨e, h.apart.lookup_eq_some_iff.2 ⟨i, hi, hlive, rfl⟩, rfl⟩, rfl⟩
    · rintro ⟨_, ⟨e, he, rfl⟩, rfl⟩
      obtain ⟨i, hi, hlive, rfl⟩ := h.apart.lookup_eq_some_iff.1 he
      exact ⟨_, ⟨e, ⟨List.mem_of_getElem? hi, hlive⟩, rfl⟩, rfl, rfl⟩
  | policy id =>
    simp only [Fabric.held, PolicyStore.published, Option.map_eq_some_iff, Name.policy.injEq,
      reduceCtorEq, false_and, and_false, exists_false, or_false, false_or]
    constructor
    · rintro ⟨_, ⟨e, ⟨he, hlive⟩, rfl⟩, rfl, rfl⟩
      obtain ⟨i, hi⟩ := List.mem_iff_getElem?.1 he
      exact ⟨_, ⟨e, hpolicies.lookup_eq_some_iff.2 ⟨i, hi, hlive, rfl⟩, rfl⟩, rfl⟩
    · rintro ⟨_, ⟨e, he, rfl⟩, rfl⟩
      obtain ⟨i, hi, hlive, rfl⟩ := hpolicies.lookup_eq_some_iff.1 he
      exact ⟨_, ⟨e, ⟨List.mem_of_getElem? hi, hlive⟩, rfl⟩, rfl, rfl⟩
  | attempt id =>
    simp only [Fabric.held, Option.map_eq_some_iff, Name.attempt.injEq, reduceCtorEq, false_and,
      and_false, exists_false, false_or]
    constructor
    · rintro ⟨e, ⟨he, -⟩, rfl, rfl⟩
      obtain ⟨i, hi⟩ := List.mem_iff_getElem?.1 he
      exact ⟨_, h.attempts.record_of_getElem? hi, rfl⟩
    · rintro ⟨r, hr, rfl⟩
      obtain ⟨i, e, he, rfl, hid⟩ := h.attempts.record_eq_some_iff.1 hr
      have hmem := List.mem_of_getElem? he
      exact ⟨e, ⟨hmem, h.attempts.live e hmem⟩, hid, rfl⟩

/-- What is held has a slot. -/
theorem names_of_held (h : f.Tabled limits) {k : Name} {v : Held} (hv : f.held k = some v) :
    f.Names k := by
  cases k with
  | flow id =>
    obtain ⟨_, hb, -⟩ := Option.map_eq_some_iff.1 hv
    obtain ⟨e, he, -⟩ := Option.map_eq_some_iff.1 hb
    obtain ⟨i, hi, -, rfl⟩ := h.apart.lookup_eq_some_iff.1 he
    exact List.mem_map_of_mem (List.mem_of_getElem? hi)
  | policy id =>
    obtain ⟨_, hp, -⟩ := Option.map_eq_some_iff.1 hv
    obtain ⟨e, he, -⟩ := Option.map_eq_some_iff.1 hp
    obtain ⟨i, hi, -, rfl⟩ := (apart_of_nodup h.ids).lookup_eq_some_iff.1 he
    exact List.mem_map_of_mem (List.mem_of_getElem? hi)
  | attempt id => trivial

end Fabric.Tabled

/-- A compacted set stands for the pairs it was made from. -/
theorem Fabric.entries_compacted (h : f.Tabled limits)
    {describe : BackendPtr → BackendDescriptor} {cs : List Compacted}
    (hcs : f.compacted describe = .ok cs) : entries limits cs = puts f.pairs := by
  rw [← Fabric.entry_liveItems f describe]
  have hall : ∀ item ∈ f.liveItems describe, ∀ e, item.entry = some e → item.Legible limits :=
    fun item hitem e he => h.legible_of_entry hitem he
  have hforall := Fabric.compacted_eq_ok_iff.1 hcs
  generalize f.liveItems describe = items at hall hforall
  clear hcs
  -- item by item: what was compacted is the entry of the item
  induction hforall with
  | nil => rfl
  | @cons item c items cs hc _ ih =>
    have hentry := LiveItem.logEntry hc (hall item List.mem_cons_self)
    have hrest := ih fun item hitem => hall item (List.mem_cons_of_mem _ hitem)
    simp only [entries, List.filterMap_cons, hentry] at hrest ⊢
    rw [hrest]

/-- A compacted set stands for what it was made from. -/
theorem Fabric.compacted_logged (h : f.Tabled limits) {describe : BackendPtr → BackendDescriptor}
    {cs : List Compacted} (hcs : f.compacted describe = .ok cs) : f.Logged limits cs := by
  have hentries := Fabric.entries_compacted h hcs
  refine ⟨?_, fun k hk => ?_⟩
  · funext k
    rw [hentries]
    ext v
    rw [replay_puts h.nodup_pairs, h.mem_pairs]
  · rw [hentries, mem_written_puts] at hk
    obtain ⟨⟨k', v⟩, hmem, rfl⟩ := List.mem_map.1 hk
    exact h.names_of_held (h.mem_pairs.1 hmem)

/-! ### Journaling -/

namespace Fabric.Journals
variable {c : Fabric.Compacted} {out : Status × Storage}

/-- What a compaction starts from stands for what is held, as does what it writes. -/
theorem logged_base {base : List Fabric.Compacted} (h : f.Compacts a base)
    (htables : f.Tabled limits) (hold : f.Logged limits f.storage.disk.log) :
    f.Logged limits base :=
  h.elim (fun hbase => hbase ▸ hold) (Fabric.compacted_logged htables)

/-- A record that stands for no write. -/
theorem skip (h : f.Journals limits a c out) (htables : f.Tabled limits)
    (hold : f.Logged limits f.storage.disk.log) (hentry : logEntry limits c = none) :
    f.Logged limits out.2.disk.log := by
  obtain ⟨base, hbase, ⟨hlog, -⟩ | ⟨hlog, -⟩⟩ := h
  · exact hlog ▸ (logged_base hbase htables hold).skip hentry
  · exact hlog ▸ logged_base hbase htables hold

/-- The record of a write the coordinator has just made: a compaction in between has
already written what the record says again. -/
theorem written (h : f.Journals limits a c out) (htables : f.Tabled limits)
    (hold : g.Logged limits f.storage.disk.log) {e : Entry Name Held}
    (hentry : logEntry limits c = some e) (happly : e.apply g.held = f.held)
    (hnames : ∀ k, g.Names k → f.Names k) (hkey : f.Names e.key) (hok : out.1.isOk = true)
    (hopen : f.storage.durable ≠ none) : f.Logged limits out.2.disk.log := by
  obtain ⟨base, hbase, ⟨hlog, -⟩ | ⟨-, hfailed | hclosed⟩⟩ := h
  · rw [hlog]
    rcases hbase with rfl | hcs
    · exact hold.concat hentry happly hnames hkey
    · have hagain : e.apply f.held = f.held := by
        rw [← happly, Entry.apply_apply]
      exact (Fabric.compacted_logged htables hcs).concat hentry hagain (fun _ hk => hk) hkey
  · rw [hok] at hfailed
    cases hfailed
  · exact absurd hclosed hopen

end Fabric.Journals

/-- The files stand for what the coordinator holds. -/
structure Fabric.Mirrored (limits : Limits) (f : Fabric) : Prop where
  sealed : f.storage.Sealed limits
  stopped : f.storage.durable = none → f.running = false
  apart : f.bindings.Apart
  ids : (f.policies.map PolicyStore.key).Nodup
  flows : f.bindings.length ≤ limits.maxFlows.toNat
  policies : f.policies.length ≤ limits.maxPolicies.toNat
  logged : f.Logged limits f.storage.disk.log

theorem Fabric.Mirrored.tabled (h : f.Mirrored limits) (hread : f.Readable limits old)
    (hwf : f.attempts.WellFormed) : f.Tabled limits :=
  ⟨h.apart, h.ids, hwf, hread.bindings, hread.policies, hread.attempts⟩

namespace Fabric.Mirrored

/-- A coordinator that runs has its store open. -/
theorem durable_ne_none (h : f.Mirrored limits) (hrun : f.running = true) :
    f.storage.durable ≠ none := by
  intro hnone
  have hstopped := h.stopped hnone
  rw [hrun] at hstopped
  cases hstopped

theorem of_policies_eq (h : f.Mirrored limits) {policies : PolicyStore}
    (hsame : policies = f.policies) :
    ({ f with policies := policies } : Fabric).Mirrored limits := by
  subst hsame
  exact h

end Fabric.Mirrored

/-- Journaling keeps the files in step, if what they say afterwards is right. -/
theorem Fabric.journal_mirrored (hlimits : f.config.limits = limits) (hfiles : a.files.Succeeds)
    (type : DurableRecordType) (payload : Bytes) (ts : UInt64) :
    ∃ n, f.storage.Draws limits n (f.journal a type payload ts).2 ∧
      (f.storage.sequence.toNat + n < 2 ^ 64 → f.storage.Sealed limits →
        (f.storage.durable = none → f.running = false) → f.bindings.Apart →
        (f.policies.map PolicyStore.key).Nodup →
        f.bindings.length ≤ limits.maxFlows.toNat →
        f.policies.length ≤ limits.maxPolicies.toNat →
        (f.Journals limits a (type, payload) (f.journal a type payload ts) →
          f.Logged limits (f.journal a type payload ts).2.disk.log) →
        ({ f with storage := (f.journal a type payload ts).2 } : Fabric).Mirrored limits) := by
  obtain ⟨n, hdraws, hdurable, hafter⟩ := f.journal_sealed hlimits hfiles type payload ts
  refine ⟨n, hdraws, fun hroom hsealed hstopped hapart hids hflows hpolicies hlogged => ?_⟩
  obtain ⟨hstorage, hjournals⟩ := hafter hroom hsealed
  refine ⟨hstorage, fun hnone => hstopped ?_, hapart, hids, hflows, hpolicies,
    (hlogged hjournals).congr rfl rfl rfl⟩
  have hclosed : (f.journal a type payload ts).2.durable = none := hnone
  rw [hclosed, Option.isSome_none] at hdurable
  exact Option.isNone_iff_eq_none.1 (by simpa using hdurable.symm)

/-- A record of one of the inert types stands for no write. -/
theorem logEntry_inert {type : DurableRecordType} (h : type.inert = true) (payload : Bytes) :
    logEntry limits (type, payload) = none := by
  cases type with
  | envelope | envelopeRevocation | epochAdvance | backendRegistration => rfl
  | _ => cases h

/-! ### Changes -/

/-- The record of a policy that passes its checks stands for the policy. -/
theorem logEntry_policy {policy : PacingPolicy} {capacity : ℕ} {payload : Bytes}
    (hvalid : (policy.validate limits).isOk = true)
    (hpayload : (encodePolicy ⟨capacity, [], none⟩ policy).finish = .ok payload) :
    logEntry limits (.policy, payload) = some (.put (.policy policy.ref.id) (.policy policy)) := by
  simp only [logEntry]
  rw [accepts_policy hvalid hpayload, Option.bind_some, if_pos hvalid]

/-- The record of a removal stands for the deletion of its name. -/
theorem logEntry_policyRemoved {id : PolicyId} {capacity : ℕ} {payload : Bytes}
    (hpayload : (encodeIdentityU64 ⟨capacity, [], none⟩ id.value).finish = .ok payload) :
    logEntry limits (.policyRemoved, payload) = some (.delete (.policy id)) := by
  simp only [logEntry]
  rw [accepts_identity hpayload, Option.map_some]

/-! ### Registry operations -/

/-- Journaling what a registry operation has changed. -/
theorem Fabric.register_mirrored {type : DurableRecordType} {payload : Bytes} (ts : UInt64)
    (hlimits : g.config.limits = limits) (hfiles : a.files.Succeeds) :
    ∃ n, g.storage.Draws limits n (g.journal a type payload ts).2 ∧
      ∀ e : Entry Name Held, logEntry limits (type, payload) = some e →
        g.storage.sequence.toNat + n < 2 ^ 64 → f.Mirrored limits → g.storage = f.storage →
        f.running = true → g.Tabled limits → e.apply f.held = g.held →
        (∀ k, f.Names k → g.Names k) → g.Names e.key →
        g.bindings.length ≤ limits.maxFlows.toNat →
        g.policies.length ≤ limits.maxPolicies.toNat →
        ((g.journal a type payload ts).1.isOk = true ∨ g.Logged limits f.storage.disk.log) →
        ({ g with storage := (g.journal a type payload ts).2 } : Fabric).Mirrored limits := by
  obtain ⟨n, hdraws, hmirrored⟩ := g.journal_mirrored hlimits hfiles type payload ts
  refine ⟨n, hdraws, fun e hentry hroom h hstorage hrun htables happly hnames hkey hflows
    hpolicies hdone => ?_⟩
  have hopen : g.storage.durable ≠ none := hstorage ▸ h.durable_ne_none hrun
  refine hmirrored hroom (hstorage ▸ h.sealed) (fun hnone => absurd hnone hopen) htables.apart
    htables.ids hflows hpolicies fun hjournals => ?_
  cases hok : (g.journal a type payload ts).1.isOk with
  | true =>
    exact hjournals.written htables (hstorage ▸ h.logged) hentry happly hnames hkey hok hopen
  | false =>
    have hsame : g.Logged limits f.storage.disk.log := hdone.resolve_left (by simp [hok])
    obtain ⟨base, hbase, ⟨-, hdone, -⟩ | ⟨hlog, -⟩⟩ := hjournals
    · exact absurd hdone (by simp [hok])
    · exact hlog ▸ Journals.logged_base hbase htables (hstorage ▸ hsame)

/-- The status of a failed encoding is a refusal. -/
theorem ByteWriter.Roomy.refused {w : ByteWriter} (h : w.Roomy) {s : Status}
    (hs : w.finish = .error s) : s.isOk = false := by
  rw [Status.isOk, h.finish hs]
  rfl

/-- A publication whose record was journaled, or that changed nothing. -/
theorem Fabric.publishPolicy_mirrored (hread : f.Readable limits old)
    (hwf : f.attempts.WellFormed) (hfiles : a.files.Succeeds) (now : Instant)
    (policy : PacingPolicy) :
    ∃ n, f.storage.Draws limits n (f.publishPolicy a now policy).2.storage ∧
      (f.storage.sequence.toNat + n < 2 ^ 64 → f.Mirrored limits →
        ((∃ ref, (f.publishPolicy a now policy).1 = .ok ref) ∨
          (f.publishPolicy a now policy).2.policies = f.policies) →
        (f.publishPolicy a now policy).2.Mirrored limits) := by
  unfold Fabric.publishPolicy
  rw [hread.config]
  split
  · exact ⟨0, .refl .., fun _ h _ => h⟩
  rename_i hrun
  dsimp only
  generalize (if policy.publishedAt.ns == 0 then { policy with publishedAt := now }
    else policy) = stamped
  have hvalid := @PolicyStore.publish_valid _ _ stamped hread.policies
  have hwrites : (f.policies.map PolicyStore.key).Nodup → ∀ ref, _ →  _ :=
    fun h ref hok => @PolicyStore.publish_writes limits _ stamped h ref hok
  have hpublished : (f.policies.map PolicyStore.key).Nodup → ∀ ref, _ → _ :=
    fun h ref hok => @PolicyStore.publish_published limits _ stamped h ref hok
  generalize PolicyStore.publish limits f.policies stamped = published
    at hvalid hwrites hpublished ⊢
  obtain ⟨result, policies⟩ := published
  dsimp only at hvalid hwrites hpublished ⊢
  have hfailed : ∀ status : Status, ∃ n, f.storage.Draws limits n f.storage ∧
      (f.storage.sequence.toNat + n < 2 ^ 64 → f.Mirrored limits →
        ((∃ ref : PolicyRef, (Except.error status : StatusOr PolicyRef) = .ok ref) ∨
          policies = f.policies) → ({ f with policies := policies } : Fabric).Mirrored limits) := by
    refine fun status => ⟨0, .refl .., fun _ h hdone => ?_⟩
    rcases hdone with ⟨_, hok⟩ | hsame
    · cases hok
    · exact h.of_policies_eq hsame
  cases hok : result with
  | error status => exact hfailed status
  | ok ref =>
    dsimp only
    cases hget : policies.get ref.id with
    | error status => exact hfailed status
    | ok stored =>
      dsimp only
      cases hpayload : (encodePolicy ⟨encodeCapacityBytes, [], none⟩ stored).finish with
      | error status => exact hfailed status
      | ok payload =>
        have hstored := PolicyStore.get_valid hvalid hget
        obtain ⟨n, hdraws, hmirrored⟩ := @Fabric.register_mirrored limits f
          { f with policies := policies } a .policy payload now.ns hread.config hfiles
        refine ⟨n, hdraws, fun hroom h hdone => ?_⟩
        obtain ⟨i, t, hw, hlive, href, hids, hlength⟩ := hwrites h.ids ref hok
        obtain ⟨stored', href', hget', hheld⟩ := hpublished h.ids ref hok
        obtain rfl := Except.ok.inj (hget.symm.trans hget')
        have hentry : logEntry limits (.policy, payload) =
            some (.put (.policy ref.id) (.policy stored)) :=
          href' ▸ logEntry_policy hstored hpayload
        refine hmirrored _ hentry hroom h rfl (by simpa using hrun)
          ⟨h.apart, hids, hwf, hread.bindings, hvalid, hread.attempts⟩
          (f.held_policies hheld).symm (fun k hk => ?_) ?_ h.flows (hlength h.policies) ?_
        · cases k with
          | policy id => exact hw.mem_keys hk
          | flow | attempt => exact hk
        · exact href ▸ hw.key_mem
        · rcases hdone with ⟨_, hdone⟩ | hsame
          · left
            dsimp only at hdone
            split at hdone
            · assumption
            · cases hdone
          · exact .inr (h.logged.congr rfl hsame rfl)

/-- A removal whose record was journaled, or that changed nothing. -/
theorem Fabric.removePolicy_mirrored (hread : f.Readable limits old)
    (hwf : f.attempts.WellFormed) (hfiles : a.files.Succeeds) (now : Instant) (id : PolicyId) :
    ∃ n, f.storage.Draws limits n (f.removePolicy a now id).2.storage ∧
      (f.storage.sequence.toNat + n < 2 ^ 64 → f.Mirrored limits →
        ((f.removePolicy a now id).1.isOk = true ∨
          (f.removePolicy a now id).2.policies = f.policies) →
        (f.removePolicy a now id).2.Mirrored limits) := by
  have hvalid := PolicyStore.remove_valid hread.policies id
  have hwrites : (f.policies.map PolicyStore.key).Nodup → _ :=
    fun h => @PolicyStore.remove_writes _ id h
  have hpublished : (f.policies.map PolicyStore.key).Nodup → _ :=
    fun h => PolicyStore.remove_published h id
  unfold Fabric.removePolicy
  split
  · exact ⟨0, .refl .., fun _ h _ => h⟩
  rename_i hrun
  generalize PolicyStore.remove f.policies id = removed at hvalid hwrites hpublished ⊢
  obtain ⟨status, policies⟩ := removed
  dsimp only at hvalid hwrites hpublished ⊢
  cases hok : status.isOk with
  | false =>
    simp only [Bool.not_false, if_true]
    exact ⟨0, .refl .., fun _ h hdone => h.of_policies_eq (hdone.resolve_left (by simp [hok]))⟩
  | true =>
    simp only [Bool.not_true, Bool.false_eq_true, if_false]
    cases hpayload : (encodeIdentityU64 ⟨64, [], none⟩ id.value).finish with
    | error status' =>
      have hrefused := ((ByteWriter.Roomy.fresh 64).u64v id.value).refused hpayload
      exact ⟨0, .refl .., fun _ h hdone =>
        h.of_policies_eq (hdone.resolve_left (by simp [hrefused]))⟩
    | ok payload =>
      obtain ⟨n, hdraws, hmirrored⟩ := @Fabric.register_mirrored limits f
        { f with policies := policies } a .policyRemoved payload now.ns hread.config hfiles
      refine ⟨n, hdraws, fun hroom h hdone => ?_⟩
      obtain ⟨i, t, hw, hlive, hid, -⟩ := hwrites h.ids hok
      obtain ⟨hkeys, hheld⟩ := hpublished h.ids
      have hlength : policies.length = f.policies.length := by
        simpa using congrArg List.length hkeys
      refine hmirrored _ (logEntry_policyRemoved hpayload) hroom h rfl (by simpa using hrun)
        ⟨h.apart, hkeys ▸ h.ids, hwf, hread.bindings, hvalid, hread.attempts⟩
        (f.held_policies hheld).symm (fun k hk => ?_) ?_ h.flows (hlength ▸ h.policies)
        (hdone.imp_right fun hsame => ?_)
      · cases k with
        | policy id => exact hw.mem_keys hk
        | flow | attempt => exact hk
      · exact hid ▸ hw.key_mem
      · exact h.logged.congr rfl hsame rfl

end Pacing
