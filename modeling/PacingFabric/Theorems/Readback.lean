import PacingFabric.Theorems.Changes
import PacingFabric.Theorems.Duplicates
import PacingFabric.Theorems.Compaction

/-!
# Everything written can be read back

Writers and readers bound strings in different places. A revocation is written with room
for 512 bytes and read with a bound of 256, a detail of a backend is written as long as it
comes and read with the bound of explanations, and `register_backend` checks a descriptor
that a compaction asks for again. Under the bounds of the readers everything is legible.

## Main definitions

* `Disk.records`: the complete records of the files.
* `Fabric.Readable`: the coordinator holds nothing its decoders would refuse.
* `underLimits`: incarnations that share their limits.

## Main results

* `Change.readable`: every change keeps the coordinator readable.
* `Fabric.replay_rejected`: replay rejects exactly the records that are not legible.
* `written_legible`: what is written within the readers' bounds is never rejected.
* `revocation_unreadable`: a revocation that recovery rejects.
-/

namespace Pacing

open Interleaving

/-- The complete records of both files, wherever an unfinished write stands. -/
def Disk.records (disk : Disk) : List DurableRecord :=
  (disk.snapshot.map Snapshot.records).getD [] ++
    ((disk.journal.map Journal.items).getD []).filterMap fun
      | .record r => some r
      | .torn _ => none

variable {limits : Limits} {old : List DurableRecord} {f g : Fabric} {a : Answers}

/-! ### The store -/

theorem Disk.mem_records {disk : Disk} {r : DurableRecord} :
    r ∈ disk.records ↔ (∃ s, disk.snapshot = some s ∧ r ∈ s.records) ∨
      ∃ j, disk.journal = some j ∧ .record r ∈ j.items := by
  have hitem : ∀ item : JournalItem, (match item with
      | .record r => some r
      | .torn _ => none) = some r ↔ item = .record r := by
    intro item
    cases item <;> simp
  unfold records
  rw [List.mem_append, List.mem_filterMap]
  refine or_congr ?_ ?_
  · cases disk.snapshot <;> simp
  · cases disk.journal <;> simp [hitem]

namespace DurableStore
variable {store : DurableStore} {disk : Disk} {record : DurableRecord}

/-- What is left of a write holds the record when the whole of it reached the journal file. -/
theorem mem_records_leave_iff {left : Leftover} {r : DurableRecord} :
    r ∈ (leave disk record left).records ↔
      r ∈ disk.records ∨ r = record ∧ left = .record ∧ disk.journal.isSome = true := by
  unfold Disk.records
  cases hj : disk.journal with
  | none => cases left <;> simp [leave, hj]
  | some j => cases left <;> simp [leave, hj, or_assoc]

theorem mem_records_leave {left : Leftover} {r : DurableRecord}
    (h : r ∈ (leave disk record left).records) : r ∈ disk.records ∨ r = record :=
  (mem_records_leave_iff.1 h).imp_right And.left

theorem mem_records_append {outcome : AppendOutcome} {r : DurableRecord}
    (h : r ∈ (append limits store disk record outcome).2.2.records) :
    r ∈ disk.records ∨ r = record := by
  unfold append at h
  split at h
  · exact .inl h
  split at h
  · exact .inl h
  split at h
  · exact .inl h
  dsimp only at h
  split at h
  · exact .inl h
  cases outcome <;> exact mem_records_leave h

theorem mem_records_checkpoint {compacted : List DurableRecord} {outcome : CheckpointOutcome}
    {r : DurableRecord} (h : r ∈ (checkpoint limits store disk compacted outcome).2.2.records) :
    r ∈ disk.records ∨ r ∈ compacted := by
  unfold checkpoint at h
  dsimp only at h
  split at h
  · exact .inl h
  split at h
  · exact .inl h
  rw [Disk.mem_records] at h ⊢
  cases outcome with
  | notReplaced detail => exact .inl h
  | notTruncated =>
    rcases h with ⟨s, hs, hr⟩ | hjournal
    · obtain rfl := Option.some.inj hs
      exact .inr hr
    · exact .inl (.inr hjournal)
  | ok | headerTorn | notReopened =>
    rcases h with ⟨s, hs, hr⟩ | ⟨j, hj, hr⟩
    · obtain rfl := Option.some.inj hs
      exact .inr hr
    · obtain rfl := Option.some.inj hj
      cases hr

end DurableStore

/-! ### Items that can be read back -/

/-- What the decoder of its type asks of an item. -/
def LiveItem.Legible (limits : Limits) : LiveItem → Prop
  | .binding b => b.Legible limits
  | .policy p => (p.validate limits).isOk = true
  | .envelope e => e.Legible
  | .revocation ref reason => ref.id.valid = true ∧ reason.length ≤ revocationReasonBytes
  | .attempt r => r.Legible limits
  | .backend desc => (Fabric.checkDescriptor limits desc).isOk = true
  | .epoch e _ => e.valid = true

theorem LiveItem.Legible.payload {item : LiveItem} (h : item.Legible limits) {payload : Bytes}
    (hp : item.payload = .ok payload) (sequence ts : UInt64) :
    DurableRecord.legible limits ⟨item.type, sequence, ts, payload⟩ = true := by
  cases item with
  | binding b =>
    change (decodePayload (decodeBinding limits) payload).isSome = true
    rw [accepts_binding h hp]
    rfl
  | policy p =>
    change (decodePayload (decodePolicy limits) payload).isSome = true
    rw [accepts_policy h hp]
    rfl
  | envelope e =>
    obtain ⟨deadline, hdecode⟩ := accepts_envelope h hp
    change (decodePayload decodeEnvelope payload).isSome = true
    rw [hdecode]
    rfl
  | revocation ref reason =>
    change (decodePayload decodeRevocation payload).isSome = true
    rw [accepts_revocation h.1 h.2 hp]
    rfl
  | attempt r =>
    change (decodePayload (decodeAttempt limits) payload).isSome = true
    rw [accepts_attempt h hp]
    rfl
  | backend desc =>
    change (decodePayload (decodeBackendDescriptor limits) payload).isSome = true
    rw [accepts_backendDescriptor h hp]
    rfl
  | epoch epoch boot =>
    change (decodePayload decodeEpoch payload).isSome = true
    rw [accepts_epoch h hp]
    rfl

/-- A numbered record carries the type and the payload of an element of the set. -/
theorem Fabric.mem_numbered {now : Instant} {r : DurableRecord} {cs : List Compacted}
    {sequence : UInt64} (h : r ∈ numbered now sequence cs) : (r.type, r.payload) ∈ cs := by
  induction cs generalizing sequence with
  | nil => cases h
  | cons c cs ih =>
    rcases List.mem_cons.1 h with rfl | h
    · exact List.mem_cons_self
    · exact List.mem_cons_of_mem _ (ih h)

/-- The coordinator holds nothing its decoders would refuse, and its files hold nothing else
beyond the records in `old`. -/
structure Fabric.Readable (limits : Limits) (old : List DurableRecord) (f : Fabric) : Prop where
  config : f.config.limits = limits
  bindings : ∀ e ∈ f.bindings, e.binding.Legible limits
  policies : ∀ e ∈ f.policies, (e.policy.validate limits).isOk = true
  envelopes : ∀ e ∈ f.envelopes.entries, e.Legible
  attempts : ∀ e ∈ f.attempts.entries, e.record.Legible limits
  epoch : f.storage.durable = none ∨ f.epoch.valid = true
  records : ∀ r ∈ f.storage.disk.records, r ∈ old ∨ r.legible limits = true

/-- Every descriptor a checkpoint asks for is one `register_backend` accepts. -/
def Fabric.Described (limits : Limits) (f : Fabric) (a : Answers) : Prop :=
  ∀ backend ∈ f.backends, a.describes limits backend.2 = true

/-- Without a store a record is dropped. -/
theorem Fabric.journal_of_none (h : f.storage.durable = none) (type : DurableRecordType)
    (payload : Bytes) (ts : UInt64) : f.journal a type payload ts = (.success, f.storage) := by
  simp [journal, maybeCheckpoint, h, Status.isOk, Status.success]

namespace Fabric.Readable

theorem liveItems (h : f.Readable limits old) (hdescribe : f.Described limits a)
    (hepoch : f.epoch.valid = true) :
    ∀ item ∈ f.liveItems a.checkpointDescribe, item.Legible limits := by
  intro item hitem
  simp only [Fabric.liveItems, List.mem_append, List.mem_map, List.mem_flatMap,
    List.mem_filter, List.mem_singleton, BindingRegistry.liveBindings,
    PolicyStore.livePolicies] at hitem
  rcases hitem with ((((⟨_, ⟨e, he, rfl⟩, rfl⟩ | ⟨_, ⟨e, he, rfl⟩, rfl⟩) | ⟨e, ⟨he, hlive⟩,
    hitem⟩) | ⟨e, he, rfl⟩) | ⟨backend, hbackend, rfl⟩) | rfl
  · exact h.bindings e he.1
  · exact h.policies e he.1
  · obtain ⟨henvelope, hreason⟩ := h.envelopes e he hlive
    unfold EnvelopeEntry.items at hitem
    rcases List.mem_cons.1 hitem with rfl | hitem
    · exact henvelope
    · split at hitem
      · rename_i hrevoked
        obtain rfl := List.mem_singleton.1 hitem
        exact ⟨henvelope.id, hreason hrevoked⟩
      · cases hitem
  · exact h.attempts e he.1
  · exact hdescribe backend hbackend
  · exact hepoch

/-- A compaction writes legible records. -/
theorem maybeCheckpoint (h : f.Readable limits old) (hdescribe : f.Described limits a) :
    ∀ r ∈ (f.maybeCheckpoint a).2.disk.records, r ∈ old ∨ r.legible limits = true := by
  intro r hr
  unfold Fabric.maybeCheckpoint at hr
  split at hr
  · exact h.records r hr
  rename_i hstore
  have hepoch := h.epoch.resolve_left (by simp [hstore])
  split at hr
  · exact h.records r hr
  split at hr
  · exact h.records r hr
  rename_i cs hcs
  rcases DurableStore.mem_records_checkpoint hr with hr | hr
  · exact h.records r hr
  · obtain ⟨item, hitem, hcompact⟩ :=
      exists_of_forall₂_right (Fabric.compacted_eq_ok_iff.1 hcs) (Fabric.mem_numbered hr)
    obtain ⟨htype, hpayload⟩ := Fabric.compact_eq_ok_iff.1 hcompact
    obtain ⟨type, sequence, ts, payload⟩ := r
    obtain rfl : type = item.type := htype
    exact .inr ((h.liveItems hdescribe hepoch item hitem).payload hpayload sequence ts)

/-- Journaling a legible record. -/
theorem journal (h : f.Readable limits old) (hdescribe : f.Described limits a)
    {type : DurableRecordType} {payload : Bytes} {ts : UInt64}
    (hlegible : ∀ sequence ts,
      DurableRecord.legible limits ⟨type, sequence, ts, payload⟩ = true) :
    ∀ r ∈ (f.journal a type payload ts).2.disk.records, r ∈ old ∨ r.legible limits = true := by
  intro r hr
  have hcheckpoint := h.maybeCheckpoint hdescribe
  unfold Fabric.journal at hr
  dsimp only at hr
  split at hr
  · exact hcheckpoint r hr
  split at hr
  · exact hcheckpoint r hr
  rcases DurableStore.mem_records_append hr with hr | rfl
  · exact hcheckpoint r hr
  · exact .inr (hlegible _ _)

theorem journalRecord (h : f.Readable limits old) (hdescribe : f.Described limits a)
    {type : DurableRecordType} {payload : Bytes} {ts : UInt64}
    (hlegible : ∀ sequence ts,
      DurableRecord.legible limits ⟨type, sequence, ts, payload⟩ = true) :
    (f.journalRecord a type payload ts).2.Readable limits old := by
  have hepoch : (f.journal a type payload ts).2.durable = none ∨ f.epoch.valid = true :=
    h.epoch.imp_left fun hnone => by rw [Fabric.journal_of_none hnone, hnone]
  exact { h with epoch := hepoch, records := h.journal hdescribe hlegible }

theorem journalAttempt (h : f.Readable limits old) (hdescribe : f.Described limits a)
    {r : ApplicationRecord} (hr : r.Legible limits) (now : Instant) :
    (f.journalAttempt a r now).Readable limits old := by
  have hitem : (LiveItem.attempt r).Legible limits := hr
  unfold Fabric.journalAttempt
  cases hpayload : Fabric.encodeAttemptPayload r with
  | ok payload => exact h.journalRecord hdescribe (hitem.payload hpayload)
  | error status => exact h

end Fabric.Readable

/-! ### Registries -/

section
variable {α : Type} {p : α → Prop} {xs : List α}

theorem forall_mem_set (h : ∀ x ∈ xs, p x) {i : ℕ} {x : α} (hx : p x) :
    ∀ y ∈ xs.set i x, p y := by
  intro y hy
  rcases List.mem_or_eq_of_mem_set hy with hy | rfl
  · exact h y hy
  · exact hx

theorem forall_mem_concat (h : ∀ x ∈ xs, p x) {x : α} (hx : p x) : ∀ y ∈ xs ++ [x], p y :=
  List.forall_mem_append.2 ⟨h, List.forall_mem_singleton.2 hx⟩

theorem forall_mem_modify (h : ∀ x ∈ xs, p x) {i : ℕ} {k : α → α} (hk : ∀ x, p x → p (k x)) :
    ∀ y ∈ xs.modify i k, p y := by
  intro y hy
  obtain ⟨j, hj, rfl⟩ := List.getElem_of_mem hy
  rw [List.getElem_modify]
  split
  · exact hk _ (h _ (List.getElem_mem _))
  · exact h _ (List.getElem_mem _)

end

namespace BindingRegistry
variable {registry : BindingRegistry} {binding : FlowBinding}

theorem of_check (h : (check limits binding).isOk = true) :
    (defaulted binding).Legible limits := by
  unfold check at h
  obtain ⟨hflow, h⟩ := isOk_ite h nofun
  obtain ⟨-, h⟩ := isOk_ite h nofun
  obtain ⟨-, h⟩ := isOk_ite h nofun
  obtain ⟨hbytes, h⟩ := isOk_ite h nofun
  obtain ⟨hpackets, -⟩ := isOk_ite h nofun
  have hflow : binding.flow.valid = true := by simpa using hflow
  unfold defaulted
  split
  · exact ⟨hflow, rfl, UInt64.not_lt.1 hbytes, UInt64.not_lt.1 hpackets⟩
  · rename_i hknown
    exact ⟨hflow, by simpa using hknown, UInt64.not_lt.1 hbytes, UInt64.not_lt.1 hpackets⟩

theorem bind_legible (h : ∀ e ∈ registry, e.binding.Legible limits) :
    ∀ e ∈ (bind limits registry binding).2, e.binding.Legible limits := by
  unfold bind
  dsimp only
  split
  · exact h
  rename_i hvalid
  have hnew := @of_check limits binding (by simpa using hvalid)
  generalize defaulted binding = new at hnew ⊢
  split
  · split
    · exact h
    rename_i entry _
    split
    · split
      · exact h
      · rename_i hroom
        exact forall_mem_set h ⟨hnew.flow, Generation.known_next (by simpa using hroom),
          hnew.burstBytes, hnew.burstPackets⟩
    · exact forall_mem_set h hnew
  · split
    · exact h
    · exact forall_mem_concat h hnew

theorem restore_legible (h : ∀ e ∈ registry, e.binding.Legible limits)
    (hbinding : binding.Legible limits) :
    ∀ e ∈ (restore limits registry binding).2, e.binding.Legible limits := by
  unfold restore
  split
  · exact h
  split
  · exact forall_mem_set h hbinding
  · split
    · exact h
    · exact forall_mem_concat h hbinding

theorem unbind_legible (h : ∀ e ∈ registry, e.binding.Legible limits) (flow : FlowId) :
    ∀ e ∈ (unbind registry flow).2, e.binding.Legible limits := by
  unfold unbind
  split
  · exact forall_mem_modify h fun _ he => he
  · exact h

theorem get_legible (h : ∀ e ∈ registry, e.binding.Legible limits) {flow : FlowId}
    (hget : registry.get flow = .ok binding) : binding.Legible limits := by
  unfold get at hget
  split at hget
  · rename_i entry hentry
    obtain rfl := Except.ok.inj hget
    exact h entry (List.mem_of_find?_eq_some hentry)
  · cases hget

end BindingRegistry

/-- Validation looks at a generation only to see that there is one. -/
theorem PacingPolicy.validate_generation {p : PacingPolicy}
    (h : (p.validate limits).isOk = true) {generation : Generation}
    (hknown : generation.known = true) :
    (({ p with ref := { p.ref with generation := generation } } : PacingPolicy).validate
      limits).isOk = true := by
  unfold validate at h ⊢
  obtain ⟨hid, h⟩ := isOk_ite h nofun
  obtain ⟨-, h⟩ := isOk_ite h nofun
  rw [if_neg hid, if_neg (by simp [hknown])]
  exact h

namespace PolicyStore
variable {store : PolicyStore} {policy : PacingPolicy}

theorem publish_valid (h : ∀ e ∈ store, (e.policy.validate limits).isOk = true) :
    ∀ e ∈ (publish limits store policy).2, (e.policy.validate limits).isOk = true := by
  unfold publish
  dsimp only
  generalize defaulted policy = new
  split
  · exact h
  rename_i hvalid
  have hnew : (new.validate limits).isOk = true := by simpa using hvalid
  split
  · unfold republish
    split
    · exact h
    split
    · dsimp only
      split
      · exact h
      · rename_i hroom
        exact forall_mem_set h (PacingPolicy.validate_generation hnew
          (Generation.known_next (by simpa using hroom)))
    · exact forall_mem_set h hnew
  · split
    · exact h
    · exact forall_mem_concat h hnew

theorem restore_valid (h : ∀ e ∈ store, (e.policy.validate limits).isOk = true) :
    ∀ e ∈ (restore limits store policy).2, (e.policy.validate limits).isOk = true := by
  unfold restore
  dsimp only
  split
  · exact h
  rename_i hvalid
  have hnew : (policy.validate limits).isOk = true := by simpa using hvalid
  split
  · exact forall_mem_set h hnew
  · split
    · exact h
    · exact forall_mem_concat h hnew

theorem remove_valid (h : ∀ e ∈ store, (e.policy.validate limits).isOk = true) (id : PolicyId) :
    ∀ e ∈ (remove store id).2, (e.policy.validate limits).isOk = true := by
  unfold remove
  split
  · exact forall_mem_modify h fun _ he => he
  · exact h

theorem get_valid (h : ∀ e ∈ store, (e.policy.validate limits).isOk = true) {id : PolicyId}
    (hget : store.get id = .ok policy) : (policy.validate limits).isOk = true := by
  unfold get at hget
  split at hget
  · rename_i entry hentry
    obtain rfl := Except.ok.inj hget
    exact h entry (List.mem_of_find?_eq_some hentry)
  · cases hget

end PolicyStore

/-! ### Changes keep the coordinator readable -/

/-- A registry operation: the registry first, then its journal record. -/
theorem Fabric.Readable.bindFlow (h : f.Readable limits old) (hdescribe : f.Described limits a)
    (now : Instant) (binding : FlowBinding) :
    (f.bindFlow a now binding).2.Readable limits old := by
  have hbindings := @BindingRegistry.bind_legible _ _ binding h.bindings
  rw [← h.config] at hbindings
  unfold Fabric.bindFlow
  dsimp only
  split
  · exact h
  generalize BindingRegistry.bind f.config.limits f.bindings binding = bound at hbindings ⊢
  obtain ⟨status, bindings⟩ := bound
  have hset : ({ f with bindings := bindings } : Fabric).Readable limits old :=
    { h with bindings := h.config ▸ hbindings }
  dsimp only
  split
  · exact hset
  split
  · exact hset
  rename_i stored hstored
  split
  · exact hset
  rename_i payload hpayload
  refine hset.journalRecord hdescribe fun sequence ts => ?_
  change (decodePayload (decodeBinding limits) payload).isSome = true
  rw [accepts_binding (BindingRegistry.get_legible hset.bindings hstored) hpayload]
  rfl

theorem Fabric.Readable.unbindFlow (h : f.Readable limits old) (hdescribe : f.Described limits a)
    (now : Instant) (flow : FlowId) : (f.unbindFlow a now flow).2.Readable limits old := by
  have hset : ({ f with bindings := (BindingRegistry.unbind f.bindings flow).2 } :
      Fabric).Readable limits old :=
    { h with bindings := BindingRegistry.unbind_legible h.bindings flow }
  unfold Fabric.unbindFlow
  dsimp only
  split
  · exact h
  split
  · exact hset
  split
  · exact hset
  rename_i payload hpayload
  refine hset.journalRecord hdescribe fun sequence ts => ?_
  change (decodePayload decodeIdentityU64 payload).isSome = true
  rw [accepts_identity hpayload]
  rfl

theorem Fabric.Readable.publishPolicy (h : f.Readable limits old)
    (hdescribe : f.Described limits a) (now : Instant) (policy : PacingPolicy) :
    (f.publishPolicy a now policy).2.Readable limits old := by
  unfold Fabric.publishPolicy
  dsimp only
  split
  · exact h
  generalize (if policy.publishedAt.ns == 0 then { policy with publishedAt := now }
    else policy) = stamped
  have hpolicies := @PolicyStore.publish_valid _ _ stamped h.policies
  rw [← h.config] at hpolicies
  generalize PolicyStore.publish f.config.limits f.policies stamped = published at hpolicies ⊢
  obtain ⟨result, policies⟩ := published
  have hset : ({ f with policies := policies } : Fabric).Readable limits old :=
    { h with policies := h.config ▸ hpolicies }
  dsimp only
  split
  · exact hset
  split
  · exact hset
  rename_i stored hstored
  split
  · exact hset
  rename_i payload hpayload
  refine hset.journalRecord hdescribe fun sequence ts => ?_
  change (decodePayload (decodePolicy limits) payload).isSome = true
  rw [accepts_policy (PolicyStore.get_valid hset.policies hstored) hpayload]
  rfl

theorem Fabric.Readable.removePolicy (h : f.Readable limits old)
    (hdescribe : f.Described limits a) (now : Instant) (id : PolicyId) :
    (f.removePolicy a now id).2.Readable limits old := by
  have hset : ({ f with policies := (PolicyStore.remove f.policies id).2 } :
      Fabric).Readable limits old :=
    { h with policies := PolicyStore.remove_valid h.policies id }
  unfold Fabric.removePolicy
  dsimp only
  split
  · exact h
  split
  · exact hset
  split
  · exact hset
  rename_i payload hpayload
  refine hset.journalRecord hdescribe fun sequence ts => ?_
  change (decodePayload decodeIdentityU64 payload).isSome = true
  rw [accepts_identity hpayload]
  rfl

theorem Fabric.Readable.insertAttempt (h : f.Readable limits old)
    (hdescribe : f.Described limits a) (now : Instant) {record : ApplicationRecord}
    (hrecord : record.Legible limits) (request : ApplyRequest) :
    (f.insertAttempt a now record request).2.Readable limits old := by
  unfold Fabric.insertAttempt
  split
  · exact h
  rename_i payload hpayload
  have hitem : (LiveItem.attempt record).Legible limits := hrecord
  have hjournal := @Fabric.Readable.journalRecord _ _ _ a h hdescribe _ _ now.ns
    (hitem.payload hpayload)
  dsimp only
  split
  · exact hjournal
  · have hsubmitted : ({ record with state := .submitted } : ApplicationRecord).Legible limits :=
      ⟨hrecord.id, hrecord.authority, hrecord.detail⟩
    exact { hjournal with attempts := forall_mem_concat hjournal.attempts hsubmitted }

/-- Every change keeps the coordinator readable. -/
theorem Change.readable (h : f.Readable limits old) (hdescribe : f.Described limits a)
    (hchange : Change limits a f g) : g.Readable limits old := by
  cases hchange with
  | quiet same _ =>
    obtain ⟨hconfig, -, hepoch, hbindings, hpolicies, henvelopes, hattempts, hstorage⟩ := same
    refine ⟨by rw [hconfig, h.config], by rw [hbindings]; exact h.bindings,
      by rw [hpolicies]; exact h.policies, by rw [henvelopes]; exact h.envelopes, ?_,
      by rw [hstorage, hepoch]; exact h.epoch, by rw [hstorage]; exact h.records⟩
    rw [hattempts]
    exact h.attempts
  | detach stopped => exact { h with epoch := .inl rfl }
  | epoch epoch valid => exact { h with epoch := .inr valid }
  | envelopes t legible => exact { h with envelopes := legible h.envelopes }
  | inert type payload ts _ legible => exact h.journalRecord hdescribe legible
  | @commit i e r pending now found same detail =>
    have hold := h.attempts e (List.mem_of_getElem? found)
    have hnew : r.Legible limits := by
      refine ⟨?_, ?_, ?_⟩
      · rw [same.work.attempt]
        exact hold.id
      · rw [same.work.authority]
        exact hold.authority
      · rcases detail with hle | heq
        · exact hle
        · rw [heq]
          exact hold.detail
    have hset : ({ f with attempts := { f.attempts.overwrite i e r with pending := pending } } :
        Fabric).Readable limits old :=
      { h with attempts := forall_mem_set h.attempts hnew }
    exact hset.journalAttempt hdescribe hnew now
  | insert now record request _ _ legible => exact h.insertAttempt hdescribe now legible request

/-- No change brings a backend a checkpoint could not describe. -/
theorem Change.described (h : f.Described limits a) (hchange : Change limits a f g) :
    g.Described limits a := by
  cases hchange with
  | quiet same backends => exact fun b hb => (backends b hb).elim (h b) id
  | insert now record request running =>
    obtain ⟨_, _, hframe⟩ := f.insertAttempt_frame a now record request
    rw [hframe]
    exact h
  | _ => exact h

theorem Changes.readable (h : f.Readable limits old) (hdescribe : f.Described limits a)
    (hchanges : Changes limits a f g) : g.Readable limits old := by
  have hboth : g.Readable limits old ∧ g.Described limits a := by
    induction hchanges with
    | refl => exact ⟨h, hdescribe⟩
    | tail _ hchange ih => exact ⟨hchange.readable ih.1 ih.2, hchange.described ih.2⟩
  exact hboth.1

/-- Every step keeps the coordinator readable. -/
theorem Call.step_readable (hown : ownTextBytes ≤ limits.maxExplanationBytes.toNat)
    (h : f.Readable limits old) (hwf : f.attempts.WellFormed) {k : Call}
    (hknows : k.Knows limits f) (hfit : k.Fits limits f a) :
    (Call.step f a k).1.Readable limits old := by
  cases hk : k.writesBindings || k.writesPolicies with
  | false =>
    exact (Call.step_changes hown hwf h.config hk hknows hfit).readable h hfit.descriptors
  | true =>
    obtain ⟨now, ⟨binding, rfl⟩ | ⟨flow, rfl⟩ | ⟨policy, rfl⟩ | ⟨id, rfl⟩⟩ :=
      Call.registry_cases hk
    · exact h.bindFlow hfit.descriptors now binding
    · exact h.unbindFlow hfit.descriptors now flow
    · exact h.publishPolicy hfit.descriptors now policy
    · exact h.removePolicy hfit.descriptors now id

/-! ### Replay -/

namespace Replay
variable {s : Replay} {nonce : UInt64}

/-- Replay keeps the coordinator readable, whatever the record. -/
theorem record_readable (h : s.fabric.Readable limits old) (record : DurableRecord) :
    (Replay.record nonce s record).fabric.Readable limits old := by
  have hlimits := h.config
  -- a record that does not decode is counted, and changes no table
  have hreject : ∀ recovery, ({ s.fabric with recovery := recovery, storage := { s.fabric.storage
      with sequence := max s.fabric.storage.sequence record.sequence } } : Fabric).Readable limits
        old := fun recovery => { h with }
  unfold Replay.record
  dsimp only
  rw [hlimits]
  cases record.type with
  | flowBinding =>
    dsimp only
    split
    · exact hreject _
    · rename_i binding hdecode
      have hlegible := (ensures_binding limits).of_decodePayload hdecode
      exact { h with bindings := BindingRegistry.restore_legible h.bindings hlegible }
  | policy =>
    dsimp only
    split
    · exact hreject _
    · exact { h with policies := PolicyStore.restore_valid h.policies }
  | envelope =>
    dsimp only
    split
    · exact hreject _
    · rename_i e hdecode
      have hlegible := ensures_envelope.of_decodePayload hdecode
      unfold Replay.envelope
      dsimp only
      split
      · -- a known envelope is overwritten and keeps its revocation mark
        rename_i j entry hentry
        obtain ⟨hget, hlive⟩ := EnvelopeTable.getElem?_of_find hentry
        refine { h with envelopes := forall_mem_set h.envelopes fun _ => ⟨hlegible, ?_⟩ }
        exact (h.envelopes entry (List.mem_of_getElem? hget) hlive).2
      · exact { h with envelopes := forall_mem_concat h.envelopes fun _ => ⟨hlegible, nofun⟩ }
  | attempt =>
    dsimp only
    split
    · exact hreject _
    · rename_i r hdecode
      have hlegible := (ensures_attempt limits).of_decodePayload hdecode
      unfold Replay.attempt
      dsimp only
      split
      · exact { h with attempts := forall_mem_set h.attempts hlegible }
      · exact { h with attempts := forall_mem_concat h.attempts hlegible }
  | envelopeRevocation =>
    dsimp only
    split
    · exact hreject _
    · rename_i ref reason hdecode
      obtain ⟨-, hreason⟩ := ensures_revocation.of_decodePayload hdecode
      unfold Replay.revocation
      dsimp only
      split
      · rename_i j entry hentry
        obtain ⟨hget, hlive⟩ := EnvelopeTable.getElem?_of_find hentry
        have hold := (h.envelopes entry (List.mem_of_getElem? hget) hlive).1
        exact { h with envelopes := forall_mem_set h.envelopes fun _ => ⟨hold, fun _ => hreason⟩ }
      · exact { h with }
  | epochAdvance =>
    dsimp only
    split
    · exact hreject _
    · rename_i persisted boot hdecode
      unfold Replay.epochAdvance
      dsimp only
      have hepoch : s.fabric.epoch.valid = true → (if persisted.value > s.fabric.epoch.value
          then persisted else s.fabric.epoch).valid = true := by
        intro hvalid
        split
        · rename_i hgt
          refine bne_iff_ne.2 fun hzero => ?_
          rw [hzero] at hgt
          exact absurd hgt (UInt64.not_lt.2 (UInt64.zero_le ..))
        · exact hvalid
      exact { h with epoch := h.epoch.imp_right hepoch }
  | backendRegistration =>
    dsimp only
    split <;> exact hreject _
  | flowUnbound =>
    dsimp only
    split
    · exact hreject _
    · exact { h with bindings := BindingRegistry.unbind_legible h.bindings _ }
  | policyRemoved =>
    dsimp only
    split
    · exact hreject _
    · exact { h with policies := PolicyStore.remove_valid h.policies _ }
  | metaRecord | unlisted => exact hreject _

/-- One turn of the loop rejects the record exactly when it is not legible. -/
theorem record_rejected (record : DurableRecord) :
    (Replay.record nonce s record).fabric.recovery.recordsRejected =
      s.fabric.recovery.recordsRejected +
        if record.legible s.fabric.config.limits then 0 else 1 := by
  obtain ⟨type, sequence, ts, payload⟩ := record
  unfold Replay.record DurableRecord.legible
  cases type with
  | envelope =>
    dsimp only
    cases decodePayload decodeEnvelope payload with
    | none => rfl
    | some e =>
      unfold Replay.envelope
      dsimp only
      split <;> rfl
  | attempt =>
    dsimp only
    cases decodePayload (decodeAttempt s.fabric.config.limits) payload with
    | none => rfl
    | some r =>
      unfold Replay.attempt
      dsimp only
      split <;> rfl
  | envelopeRevocation =>
    dsimp only
    cases decodePayload decodeRevocation payload with
    | none => rfl
    | some out =>
      unfold Replay.revocation
      dsimp only
      split <;> rfl
  | flowBinding =>
    dsimp only
    cases decodePayload (decodeBinding s.fabric.config.limits) payload <;> rfl
  | policy =>
    dsimp only
    cases decodePayload (decodePolicy s.fabric.config.limits) payload <;> rfl
  | epochAdvance =>
    dsimp only
    cases decodePayload decodeEpoch payload <;> rfl
  | backendRegistration =>
    dsimp only
    cases decodePayload (decodeBackendDescriptor s.fabric.config.limits) payload <;> rfl
  | flowUnbound | policyRemoved =>
    dsimp only
    cases decodePayload decodeIdentityU64 payload <;> rfl
  | metaRecord | unlisted => rfl

end Replay

theorem Fabric.replay_readable (h : f.Readable limits old) (records : List DurableRecord) :
    (f.replay a records).fabric.Readable limits old := by
  induction records using List.reverseRecOn with
  | nil => exact h
  | append_singleton records record ih =>
    rw [replay_append]
    exact Replay.record_readable ih record

/-- Replay rejects exactly the records that are not legible. -/
theorem Fabric.replay_rejected (h : f.attempts.WellFormed) (records : List DurableRecord) :
    (f.replay a records).fabric.recovery.recordsRejected =
      f.recovery.recordsRejected +
        records.countP fun record => !record.legible f.config.limits := by
  induction records using List.reverseRecOn with
  | nil => rfl
  | append_singleton records record ih =>
    obtain ⟨-, hconfig, -⟩ := replay_keeps a h records
    rw [replay_append, Replay.record_rejected, ih, hconfig, List.countP_append,
      List.countP_singleton, Nat.add_assoc]
    cases record.legible f.config.limits <;> rfl

/-! ### Recovery is a chain of changes -/

section
variable (hown : ownTextBytes ≤ limits.maxExplanationBytes.toNat)
include hown

/-- What recovery says of an attempt is short, or what was recorded. -/
theorem ApplicationRecord.recovered_detail (r : ApplicationRecord) :
    r.recovered.detail.length ≤ limits.maxExplanationBytes.toNat ∨
      r.recovered.detail = r.detail := by
  have hflight : (Bytes.ofString
      "coordinator restart during an in-flight application attempt").length ≤ ownTextBytes := by
    decide +kernel
  have heffect : (Bytes.ofString
      "coordinator restart: effect not restored without revalidation").length ≤ ownTextBytes := by
    decide +kernel
  unfold recovered
  split
  · exact .inl (Nat.le_trans hflight hown)
  split
  · exact .inl (Nat.le_trans heffect hown)
  · exact .inr rfl

omit hown in
theorem ApplicationRecord.recovered_sameRequest (r : ApplicationRecord) :
    r.SameRequest r.recovered := by
  unfold recovered
  split
  · exact ⟨⟨rfl, rfl, rfl, rfl, rfl, rfl⟩, rfl, rfl⟩
  split <;> exact ⟨⟨rfl, rfl, rfl, rfl, rfl, rfl⟩, rfl, rfl⟩

theorem changes_recoverAttempts (f : Fabric) : Changes limits a f (f.recoverAttempts a) := by
  refine List.foldlRecOn (List.range f.attempts.entries.length) (Fabric.recoverAttempt a)
    (motive := fun g => Changes limits a f g) .refl ?_
  intro g hg i _
  unfold Fabric.recoverAttempt
  cases he : g.attempts.entries[i]? with
  | none => exact hg
  | some e =>
    dsimp only
    split
    · exact hg
    · have hcount : Changes limits a g { g with recovery := { g.recovery with
          attemptsAmbiguous := g.recovery.attemptsAmbiguous +
            if e.record.state.isTerminal then 0 else 1
          attemptsRequiringRevalidation := g.recovery.attemptsRequiringRevalidation + 1 } } :=
        .quiet ⟨rfl, id, rfl, rfl, rfl, rfl, rfl, rfl⟩ (List.Subset.refl _)
      exact (hg.trans hcount).tail (.commit g.attempts.pending a.recoverNow he
        e.record.recovered_sameRequest (e.record.recovered_detail hown))

/-- Settling the replayed state and journaling its epoch. -/
theorem changes_settle (hepoch : f.epoch.valid = true) (replay : Replay) :
    Changes limits a f ((f.settle a replay).journalEpoch a a.recoverNow).2 := by
  have hmark : (Bytes.ofString "coordinator restart: prior epoch authority fenced").length ≤
      revocationReasonBytes := by decide +kernel
  have hcount : Changes limits a f { f with recovery := f.invalidateEnvelopes.recovery } :=
    .quiet ⟨rfl, id, rfl, rfl, rfl, rfl, rfl, rfl⟩ (List.Subset.refl _)
  have hinvalidate : Changes limits a f f.invalidateEnvelopes := by
    refine hcount.tail (.envelopes f.invalidateEnvelopes.envelopes fun h e he => ?_)
    obtain ⟨e₀, he₀, rfl⟩ := List.mem_map.1 he
    split
    · exact fun hlive => ⟨(h e₀ he₀ hlive).1, fun _ => hmark⟩
    · exact h e₀ he₀
  have hsettle : Changes limits a f (f.settle a replay) :=
    (hinvalidate.trans (changes_recoverAttempts hown _)).trans
      (Changes.quiet ⟨rfl, id, rfl, rfl, rfl, rfl, rfl, rfl⟩ (List.Subset.refl _))
  unfold Fabric.journalEpoch
  split
  · exact hsettle
  · rename_i payload hpayload
    refine hsettle.tail (.inert .epochAdvance payload a.recoverNow.ns rfl fun sequence ts => ?_)
    obtain ⟨_, _, _, _, _, _, hframe⟩ := Fabric.settle_frame (f := f) a replay
    rw [hframe] at hpayload
    change (decodePayload decodeEpoch payload).isSome = true
    rw [accepts_epoch hepoch hpayload]
    rfl

/-! ### Starts -/

omit hown in
/-- The advance of epoch and boot. -/
theorem Fabric.advance_readable (h : f.Readable limits old) :
    (f.advanceIncarnation a).2.Readable limits old ∧
      (f.advanceIncarnation a).2.backends = f.backends ∧
      ((f.advanceIncarnation a).1.isOk = true →
        (f.advanceIncarnation a).2.epoch.valid = true) := by
  have hvalid := Epoch.valid_advanced (e := f.epoch)
  unfold Fabric.advanceIncarnation
  generalize f.epoch.advanced = advanced at hvalid ⊢
  obtain ⟨epoch, exhausted⟩ := advanced
  dsimp only at hvalid ⊢
  split
  · exact ⟨h, rfl, fun h => by cases h⟩
  rename_i hroom
  replace hvalid := hvalid (by simpa using hroom)
  split
  · exact ⟨{ h with epoch := .inr hvalid }, rfl, fun h => by cases h⟩
  · exact ⟨{ h with epoch := .inr hvalid }, rfl, fun _ => hvalid⟩

/-- A recovery keeps the coordinator readable. -/
theorem Fabric.recover_readable (h : f.Readable limits old) (hnone : f.backends = [])
    (hempty : f.attempts = {}) (records : List DurableRecord) :
    (f.recover a records).2.Readable limits old := by
  have hbegin : (f.beginRecovery a records).Readable limits old := { h with }
  have hreplay := Fabric.replay_readable (a := a) hbegin records
  obtain ⟨-, -, hbackends⟩ := replay_keeps a (f := f.beginRecovery a records)
    (show f.attempts.WellFormed from hempty ▸ AttemptLedger.wellFormed_empty) records
  rw [show (f.beginRecovery a records).backends = [] from hnone] at hbackends
  unfold Fabric.recover
  dsimp only
  generalize (f.beginRecovery a records).replay a records = replay at hreplay hbackends ⊢
  have hcount : replay.fabric.countRestored.Readable limits old := { hreplay with }
  have hadvance := advance_readable (a := a) hcount
  generalize replay.fabric.countRestored.advanceIncarnation a = advanced at hadvance ⊢
  obtain ⟨hadvanced, hsame, hvalid⟩ := hadvance
  split
  · exact hadvanced
  · rename_i hok
    have hdescribed : advanced.2.Described limits a := by
      rw [Fabric.Described, hsame, show replay.fabric.countRestored.backends = [] from hbackends]
      exact fun _ h => by cases h
    exact (changes_settle hown (hvalid (by simpa using hok)) replay).readable hadvanced hdescribed

omit hown in
theorem openStore_records {disk disk' : Disk} {outcome : OpenOutcome}
    {result : StatusOr DurableStore}
    (h : DurableStore.openStore limits disk outcome = (result, disk')) :
    ∀ r ∈ disk'.records, r ∈ disk.records := by
  intro r hr
  have hcreated : ∀ headerBytes,
      r ∈ ({ disk with journal := some { headerBytes := headerBytes } } : Disk).records →
      r ∈ disk.records := by
    intro headerBytes hr
    rw [Disk.mem_records] at hr ⊢
    refine hr.imp_right ?_
    rintro ⟨j, hj, hmem⟩
    obtain rfl := Option.some.inj hj
    cases hmem
  unfold DurableStore.openStore at h
  split at h
  · exact (Prod.mk.inj h).2 ▸ hr
  split at h
  · exact (Prod.mk.inj h).2 ▸ hr
  split at h
  · exact (Prod.mk.inj h).2 ▸ hr
  split at h
  · exact hcreated _ ((Prod.mk.inj h).2 ▸ hr)
  · exact hcreated _ ((Prod.mk.inj h).2 ▸ hr)
  · exact (Prod.mk.inj h).2 ▸ hr

/-- A start is readable, whatever it makes of its files. -/
theorem Fabric.initializeFabric_readable {config : FabricConfig} (hlimits : config.limits = limits)
    {disk : Disk} (hdisk : ∀ r ∈ disk.records, r ∈ old ∨ r.legible limits = true) :
    ((construct config disk).initializeFabric a).2.Readable limits old := by
  have hempty : ∀ f : Fabric, f.config = config → f.bindings = [] → f.policies = [] →
      f.envelopes = {} → f.attempts = {} →
      (f.storage.durable = none ∨ f.epoch.valid = true) →
      (∀ r ∈ f.storage.disk.records, r ∈ disk.records) → f.Readable limits old := by
    intro f hconfig hbindings hpolicies henvelopes hattempts hepoch hrecords
    exact ⟨by rw [hconfig, hlimits], by simp [hbindings], by simp [hpolicies],
      by simp [henvelopes], by simp [hattempts], hepoch, fun r hr => hdisk r (hrecords r hr)⟩
  have hopened : ((begun a config disk).openDurable a).2.Readable limits old := by
    unfold openDurable
    split
    · cases hopen : DurableStore.openStore (begun a config disk).config.limits
          (begun a config disk).storage.disk a.files.opening with
      | mk result disk' =>
        have hrecords : ∀ r ∈ disk'.records, r ∈ disk.records := openStore_records hopen
        cases result with
        | error status => exact hempty _ rfl rfl rfl rfl rfl (.inl rfl) hrecords
        | ok store =>
          have hstart := hempty (opened a config disk' store) rfl rfl rfl rfl rfl (.inr rfl)
            hrecords
          have hrecover := recover_readable (a := a) hown hstart rfl rfl store.recovered
          dsimp only
          split
          · exact hrecover
          · exact { hrecover with }
    · exact hempty _ rfl rfl rfl rfl rfl (.inl rfl) fun _ => id
  have hsampled := hempty ((construct config disk).sample a.now) rfl rfl rfl rfl rfl (.inl rfl)
    fun _ => id
  unfold initializeFabric initializeLocked
  dsimp only
  split
  · exact hsampled
  split
  · exact hsampled
  · dsimp only
    split
    · exact { hopened with }
    · exact hopened

omit hown

theorem Journal.mem_readable {items : List JournalItem} {r : DurableRecord}
    (h : r ∈ Journal.readable items) : .record r ∈ items := by
  induction items with
  | nil => cases h
  | cons item rest ih =>
    cases item with
    | record first =>
      rcases List.mem_cons.1 h with rfl | h
      · exact List.mem_cons_self
      · exact List.mem_cons_of_mem _ (ih h)
    | torn bytes => cases h

/-- Only records of the files are recovered. -/
theorem openStore_recovered {disk disk' : Disk} {outcome : OpenOutcome} {store : DurableStore}
    (h : DurableStore.openStore limits disk outcome = (.ok store, disk')) :
    ∀ r ∈ store.recovered, r ∈ disk.records := by
  intro r hr
  have hbase : ∀ base barrier, DurableStore.loadSnapshot limits disk.snapshot =
      .ok (base, barrier) → r ∈ base → r ∈ disk.records := by
    intro base barrier hload hmem
    unfold DurableStore.loadSnapshot at hload
    split at hload
    · obtain ⟨rfl, -⟩ := Prod.mk.inj (Except.ok.inj hload)
      cases hmem
    · rename_i snapshot hsnapshot
      split at hload
      · cases hload
      split at hload
      · cases hload
      · obtain ⟨rfl, -⟩ := Prod.mk.inj (Except.ok.inj hload)
        exact Disk.mem_records.2 (.inl ⟨snapshot, hsnapshot, hmem⟩)
  have htail : ∀ barrier tail, DurableStore.loadJournal limits barrier disk.journal = .ok tail →
      r ∈ tail → r ∈ disk.records := by
    intro barrier tail hload hmem
    unfold DurableStore.loadJournal at hload
    split at hload
    · obtain rfl := Except.ok.inj hload
      cases hmem
    rename_i journal hjournal
    split at hload
    · cases hload
    split at hload
    · obtain rfl := Except.ok.inj hload
      cases hmem
    split at hload
    · cases hload
    split at hload
    · cases hload
    split at hload
    · obtain rfl := Except.ok.inj hload
      cases hmem
    · obtain rfl := Except.ok.inj hload
      have hread := (List.takeWhile_subset _) (List.mem_of_mem_filter hmem)
      exact Disk.mem_records.2 (.inr ⟨journal, hjournal, Journal.mem_readable hread⟩)
  unfold DurableStore.openStore at h
  split at h
  · cases h
  split at h
  · cases h
  rename_i base barrier hsnapshot
  split at h
  · cases h
  rename_i tail hjournal
  have hrecovered : r ∈ base ++ tail := by
    split at h
    · cases h
    · obtain ⟨hstore, -⟩ := Prod.mk.inj h
      obtain rfl := Except.ok.inj hstore
      exact hr
    · obtain ⟨hstore, -⟩ := Prod.mk.inj h
      obtain rfl := Except.ok.inj hstore
      exact hr
  rcases List.mem_append.1 hrecovered with hmem | hmem
  · exact hbase base barrier hsnapshot hmem
  · exact htail barrier tail hjournal hmem

/-- What follows replay rejects nothing. -/
theorem Fabric.settle_rejected (f : Fabric) (replay : Replay) :
    (f.settle a replay).recovery.recordsRejected = f.recovery.recordsRejected := by
  change (f.invalidateEnvelopes.recoverAttempts a).recovery.recordsRejected = _
  refine List.foldlRecOn (List.range f.invalidateEnvelopes.attempts.entries.length)
    (Fabric.recoverAttempt a)
    (motive := fun g => g.recovery.recordsRejected = f.recovery.recordsRejected)
    (show f.invalidateEnvelopes.recovery.recordsRejected = _ from rfl) ?_
  intro g hg i _
  unfold Fabric.recoverAttempt
  split
  · exact hg
  · split <;> exact hg

/-- Recovery counts the records that are not legible. -/
theorem Fabric.recover_rejected (hempty : f.attempts = {}) (records : List DurableRecord)
    (hlegible : ∀ r ∈ records, r.legible f.config.limits = true) :
    (f.recover a records).2.recovery.recordsRejected = f.recovery.recordsRejected := by
  have hreplay := replay_rejected (a := a) (f := f.beginRecovery a records)
    (show f.attempts.WellFormed from hempty ▸ AttemptLedger.wellFormed_empty) records
  have hnone : (records.countP fun record =>
      !record.legible (f.beginRecovery a records).config.limits) = 0 :=
    List.countP_eq_zero.2 fun r hr => by
      have hr' : r.legible (f.beginRecovery a records).config.limits = true := hlegible r hr
      simp [hr']
  rw [hnone, Nat.add_zero] at hreplay
  have hrecovers := recover_recovers a f records
  generalize f.recover a records = result at hrecovers ⊢
  generalize (f.beginRecovery a records).replay a records = replay at hreplay hrecovers
  cases hrecovers with
  | exhausted => exact hreplay
  | settled => exact (Fabric.settle_rejected _ replay).trans hreplay

/-- A start leaves a well-formed ledger, also when it fails. -/
theorem Fabric.initializeFabric_wellFormed (config : FabricConfig) (disk : Disk) :
    ((construct config disk).initializeFabric a).2.attempts.WellFormed := by
  have hrecover : ∀ f : Fabric, f.attempts = {} → ∀ records,
      (f.recover a records).2.attempts.WellFormed := by
    intro f hempty records
    obtain ⟨hreplay, -, -⟩ := replay_keeps a (f := f.beginRecovery a records)
      (show f.attempts.WellFormed from hempty ▸ AttemptLedger.wellFormed_empty) records
    have hrecovers := recover_recovers a f records
    generalize f.recover a records = result at hrecovers ⊢
    generalize (f.beginRecovery a records).replay a records = replay at hreplay hrecovers
    cases hrecovers with
    | exhausted => exact hreplay
    | settled =>
      generalize hgo : ({ replay.fabric.countRestored with
        epoch := _, boot := _, recovery := _ } : Fabric) = go
      exact (settle_ledgerRecovered a (f := go) (hgo ▸ hreplay) replay _).wellFormed
  have hopened : ((begun a config disk).openDurable a).2.attempts.WellFormed := by
    unfold openDurable
    split
    · split
      · exact AttemptLedger.wellFormed_empty
      · dsimp only
        split <;> exact hrecover _ rfl _
    · exact AttemptLedger.wellFormed_empty
  unfold initializeFabric initializeLocked
  dsimp only
  split
  · exact AttemptLedger.wellFormed_empty
  split
  · exact AttemptLedger.wellFormed_empty
  · dsimp only
    split <;> exact hopened

/-- A start over legible files rejects nothing. -/
theorem Fabric.initializeFabric_rejected {config : FabricConfig} {disk : Disk}
    (hlegible : ∀ r ∈ disk.records, r.legible config.limits = true) :
    ((construct config disk).initializeFabric a).2.recovery.recordsRejected = 0 := by
  have hopened : ((begun a config disk).openDurable a).2.recovery.recordsRejected = 0 := by
    unfold openDurable
    split
    · cases hopen : DurableStore.openStore (begun a config disk).config.limits
          (begun a config disk).storage.disk a.files.opening with
      | mk result disk' =>
        cases result with
        | error status => rfl
        | ok store =>
          have hrecover := recover_rejected (a := a) (f := opened a config disk' store) rfl
            store.recovered fun r hr => hlegible r (openStore_recovered hopen r hr)
          dsimp only
          split
          · exact hrecover
          · exact hrecover
    · rfl
  unfold initializeFabric initializeLocked
  dsimp only
  split
  · rfl
  split
  · rfl
  · dsimp only
    split
    · exact hopened
    · exact hopened

end

/-! ### Runs -/

/-- Incarnations that share their limits. -/
def underLimits (limits : Limits) : Program Fabric Call Request Answers where
  begin := Call.begin
  step := Call.step
  restarts f f' := ∃ config a, config.limits = limits ∧
    f' = ((Fabric.construct config f.storage.disk).initializeFabric a).2

/-- Every step writes within the bounds of the readers. -/
def writesFit (limits : Limits) (c : World) : Event Call Request Answers → Prop
  | .move _ k a => k.Fits limits c.shared a
  | _ => True

/-- What the fabric wrote beyond `old` can be read back. -/
structure ReadBack (limits : Limits) (old : List DurableRecord) (disk : Disk) : Prop where
  /-- The decoder of its type accepts the payload of every record written. -/
  accepted : ∀ r ∈ disk.records, r ∈ old ∨ r.legible limits = true
  /-- Recovery rejects none, when the records it began with were legible. -/
  rejected : (∀ r ∈ old, r.legible limits = true) → ∀ config a, config.limits = limits →
    ((Fabric.construct config disk).initializeFabric a).2.recovery.recordsRejected = 0

/-- The coordinator is readable, and each call knows what it has checked. -/
def readable (limits : Limits) (old : List DurableRecord) : Outline Fabric Call where
  shared f := f.Readable limits old ∧ f.attempts.WellFormed
  assertion f k := k.Knows limits f
  apart _ _ := True

theorem readable_stable (hown : ownTextBytes ≤ limits.maxExplanationBytes.toNat) :
    (readable limits old).Stable (underLimits limits) (writesFit limits) where
  begins c i r _ _ _ := by
    refine ⟨?_, fun _ _ _ => ⟨trivial, trivial⟩⟩
    change (Call.begin r).Knows limits c.shared
    cases r <;> trivial
  locally c i k a hc hok here := by
    obtain ⟨hreadable, hwf⟩ := hc.shared
    have hknows : k.Knows limits c.shared := hc.assertion i k here
    refine ⟨⟨Call.step_readable hown hreadable hwf hknows hok,
      (Call.step_moves hwf a k).wellFormed⟩, fun k' hnext => ?_⟩
    exact Call.step_knows hreadable.envelopes hreadable.config hknows hnext
  interference c i k a j l hc hok here _ hl := by
    obtain ⟨hreadable, hwf⟩ := hc.shared
    have hrun := Call.step_running hown hwf hreadable.config (hc.assertion i k here) hok
    have hknows : l.Knows limits c.shared := hc.assertion j l hl
    refine ⟨hknows.mono fun hstopped => ?_, fun _ _ => ⟨trivial, trivial⟩⟩
    exact Bool.eq_false_iff.2 fun h => by simp [hrun h] at hstopped
  restarts c s hc _ hs := by
    obtain ⟨hreadable, -⟩ := hc.shared
    obtain ⟨config, b, hlimits, rfl⟩ := hs
    exact ⟨Fabric.initializeFabric_readable hown hlimits hreadable.records,
      Fabric.initializeFabric_wellFormed ..⟩

/-- In every run, over any number of incarnations that share their limits, whose steps all
write within the bounds of the readers, everything written can be read back and recovery
rejects none of it. -/
theorem written_legible (hown : ownTextBytes ≤ limits.maxExplanationBytes.toNat)
    {config : FabricConfig} (hlimits : config.limits = limits) {disk : Disk} {w : World} {n : ℕ}
    (hrun : Run (underLimits limits) (writesFit limits)
      (.idle ((Fabric.construct config disk).initializeFabric a).2) n w) :
    ReadBack limits disk.records w.shared.storage.disk := by
  have hstart : ((Fabric.construct config disk).initializeFabric a).2.Readable limits
      disk.records := Fabric.initializeFabric_readable hown hlimits fun _ => .inl
  have hholds : (readable limits disk.records).Holds w := (readable_stable hown).holds
    (Outline.holds_idle ⟨hstart, Fabric.initializeFabric_wellFormed ..⟩) hrun
  have hrecords := hholds.shared.1.records
  refine ⟨hrecords, fun hold config' b hconfig => ?_⟩
  refine Fabric.initializeFabric_rejected fun r hr => ?_
  rw [hconfig]
  exact (hrecords r hr).elim (hold r) id

namespace Scenario

/-- A policy, a binding, an envelope, and its revocation for `reason`. -/
def revokeFor (reason : Bytes) : List (Action Request Answers) :=
  calls 0 (.publishPolicy policy) 4 ++ calls 0 (.bindFlow binding) 4 ++
    calls 0 (.deriveEnvelope ⟨1⟩) 11 ++ calls 0 (.revokeEnvelope ⟨⟨1⟩, ⟨1⟩⟩ reason) 5

def revoked (reason : Bytes) : World :=
  (underLimits journaling.limits).exec journalingStarted (revokeFor reason)

/-- Reasons fit, minters have room, and there is neither an acknowledgement nor a backend. -/
def writesShort (w : World) : Event Call Request Answers → Bool
  | .move _ (.locked (.revokeEnvelope _ reason) _) _ =>
    decide (reason.length ≤ revocationReasonBytes) && w.shared.backends.isEmpty
  | .move _ (.derive _ _) _ =>
    decide (w.shared.envelopeIds.counter ≠ Checked.u64Max) && w.shared.backends.isEmpty
  | .move _ (.acknowledge _ _ _) _ | .move _ (.reserve _) _ | .move _ (.register _ _ _) _ => false
  | .move _ _ _ => w.shared.backends.isEmpty
  | _ => true

theorem writesFit_of_writesShort (w : World) (e : Event Call Request Answers)
    (h : writesShort w e = true) : writesFit limits w e := by
  cases e with
  | start _ _ => trivial
  | restart => trivial
  | move i k a =>
    have hbackends : w.shared.backends = [] := by
      unfold writesShort at h
      split at h <;> simp_all
    have hdescriptors : ∀ backend ∈ w.shared.backends, a.describes limits backend.2 = true := by
      rw [hbackends]
      exact fun _ hmem => by cases hmem
    refine ⟨?_, ?_, ?_, ?_, ?_, hdescriptors, ?_⟩
    · rintro ref reason now j entry rfl - - - -
      simp only [writesShort, Bool.and_eq_true, decide_eq_true_eq] at h
      exact h.1
    · rintro j status ack r rfl
      cases h
    · rintro j status ack r rfl
      cases h
    · rintro inputs now rfl
      simp only [writesShort, Bool.and_eq_true, decide_eq_true_eq] at h
      exact h.1
    · rintro p rfl
      cases h
    · rintro now backend desc rfl
      cases h

end Scenario

/-- A revocation for a reason of 256 bytes is read back. -/
theorem written_legible_revoked :
    ReadBack Scenario.journaling.limits []
      (Scenario.revoked (List.replicate 256 97)).shared.storage.disk := by
  obtain ⟨n, hn⟩ := Program.run_of_allows (P := underLimits Scenario.journaling.limits)
    Scenario.writesFit_of_writesShort (Scenario.revokeFor (List.replicate 256 97))
    (c := Scenario.journalingStarted) (by decide +kernel)
  exact @written_legible Scenario.journaling.limits
    { Scenario.answers with recoverNow := Scenario.answers.now } (by decide) Scenario.journaling
    rfl {} _ n hn

/-- One byte more, and recovery rejects the revocation. -/
theorem revocation_unreadable :
    ∃ (config : FabricConfig) (a : Answers) (w : World) (n : ℕ), config.limits.coherent = true ∧
      ((Fabric.construct config {}).initializeFabric a).1.isOk = true ∧
      Run (underLimits config.limits) anyStep
        (.idle ((Fabric.construct config {}).initializeFabric a).2) n w ∧
      ¬ ReadBack config.limits [] w.shared.storage.disk ∧
      ((Fabric.construct config w.shared.storage.disk).initializeFabric
        a).2.recovery.recordsRejected = 1 := by
  obtain ⟨n, hn⟩ := @Program.run_of_answers _ _ _ _
    (underLimits Scenario.journaling.limits) anyStep (Scenario.revokeFor (List.replicate 257 97))
    (fun _ _ _ => trivial) (fun _ _ _ _ _ => trivial) Scenario.journalingStarted
  have hrejected : ((Fabric.construct Scenario.journaling
      (Scenario.revoked (List.replicate 257 97)).shared.storage.disk).initializeFabric
        { Scenario.answers with recoverNow := Scenario.answers.now }).2.recovery.recordsRejected =
          1 := by decide +kernel
  refine ⟨Scenario.journaling, { Scenario.answers with recoverNow := Scenario.answers.now },
    Scenario.revoked (List.replicate 257 97), n, by decide, by decide +kernel, hn, fun h => ?_,
    hrejected⟩
  have hnone := h.rejected (fun _ hr => by cases hr) Scenario.journaling
    { Scenario.answers with recoverNow := Scenario.answers.now } rfl
  exact absurd (hrejected.symm.trans hnone) (by decide)

end Pacing
