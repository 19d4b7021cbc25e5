import PacingFabric.Theorems.Eviction
import PacingFabric.Theorems.InFlight
import PacingFabric.Theorems.Readback

/-!
# What a refused derivation leaves behind

A derivation journals its envelope before the table admits it, and looks at the length of the
table after eviction has marked a slot dead. A derivation refused there leaves a record of an
envelope that was never issued, and takes one that was.

## Main definitions

* `Fabric.usable`: the live, unrevoked envelopes.
* `Fabric.Deposits`: journaling leaves the whole record in the journal file.

## Main results

* `refused_unseen_iff`: a refused derivation is seen neither in the table nor in the files
  exactly when no record of it is deposited and eviction takes no unrevoked envelope.
-/

namespace Pacing

open Interleaving

variable {f : Fabric} {a : Answers} {limits : Limits}

/-- Replacing a slot by one that is not kept drops it from the slots that are. -/
theorem filter_set {σ : Type*} {p : σ → Bool} {xs : List σ} {i : ℕ} {x y : σ}
    (hx : xs[i]? = some x) (hy : p y = false) :
    xs.filter p = ((xs.set i y).filter p).take ((xs.take i).filter p).length ++
      ([x].filter p ++ ((xs.set i y).filter p).drop ((xs.take i).filter p).length) := by
  obtain ⟨hi, rfl⟩ := List.getElem?_eq_some_iff.1 hx
  have hset : (xs.set i y).filter p = (xs.take i).filter p ++ (xs.drop (i + 1)).filter p := by
    rw [List.set_eq_take_append_cons_drop, if_pos hi, List.filter_append,
      List.filter_cons_of_neg (by simp [hy])]
  rw [hset, List.take_left, List.drop_left, ← List.filter_append, ← List.filter_append,
    List.singleton_append, List.cons_getElem_drop_succ, List.take_append_drop]

/-! ### Records of the journal file -/

/-- The answer leaves the whole record in the file. -/
def AppendOutcome.whole : AppendOutcome → Bool
  | .ok | .headerFailed .record | .payloadFailed .record | .flushFailed .record => true
  | _ => false

namespace DurableStore
variable {store : DurableStore} {disk : Disk} {record r : DurableRecord}

/-- An append adds the record when its checks pass and the file keeps the whole of it. -/
theorem mem_records_append_iff {outcome : AppendOutcome} :
    r ∈ (append limits store disk record outcome).2.2.records ↔ r ∈ disk.records ∨
      r = record ∧ (DurableFile.checkAppend limits store record).isOk = true ∧
        outcome.whole = true ∧ disk.journal.isSome = true := by
  unfold append DurableFile.checkAppend
  split
  · simp [Status.of, Status.isOk]
  split
  · simp [Status.of, Status.isOk]
  cases Checked.narrowU32 record.payload.length with
  | none => simp [Status.of, Status.isOk]
  | some payloadLen =>
    dsimp only
    split
    · simp [Status.of, Status.isOk]
    · cases outcome with
      | ok => simp [mem_records_leave_iff, AppendOutcome.whole]
      | headerFailed left | payloadFailed left | flushFailed left =>
        cases left <;> simp [mem_records_leave_iff, AppendOutcome.whole]

end DurableStore

/-- The payload is that of an `Envelope` record of the files, or of a live envelope. -/
def Fabric.Known (f : Fabric) (payload : Bytes) : Prop :=
  (∃ r ∈ f.storage.disk.records, r.type = .envelope ∧ r.payload = payload) ∨
    ∃ e ∈ f.envelopes.entries, e.live = true ∧ Fabric.encodeEnvelopePayload e.envelope = .ok payload

/-- The store reached after the checkpoint that is due writes the record of an envelope, and the
journal file keeps the whole of it. -/
def Fabric.Deposits (f : Fabric) (a : Answers) (now : Instant) (payload : Bytes) : Prop :=
  (f.maybeCheckpoint a).1.isOk = true ∧
    ∃ store, (f.maybeCheckpoint a).2.durable = some store ∧
      (DurableFile.checkAppend f.config.limits store
        ⟨.envelope, (f.maybeCheckpoint a).2.sequence + 1, now.ns, payload⟩).isOk = true ∧
      (a.files.append (f.maybeCheckpoint a).2.disk.operations).whole = true ∧
      (f.maybeCheckpoint a).2.disk.journal.isSome = true

/-- A compaction writes the envelopes that are live. -/
theorem Fabric.mem_compacted_envelope {describe : BackendPtr → BackendDescriptor}
    {cs : List Compacted} (h : f.compacted describe = .ok cs) {payload : Bytes}
    (hmem : (DurableRecordType.envelope, payload) ∈ cs) :
    ∃ e ∈ f.envelopes.entries, e.live = true ∧ encodeEnvelopePayload e.envelope = .ok payload := by
  obtain ⟨item, hitem, hcompact⟩ := exists_of_forall₂_right (compacted_eq_ok_iff.1 h) hmem
  obtain ⟨htype, hpayload⟩ := compact_eq_ok_iff.1 hcompact
  simp only [liveItems, List.mem_append, List.mem_map, List.mem_flatMap, List.mem_filter,
    List.mem_singleton] at hitem
  rcases hitem with ((((⟨_, -, rfl⟩ | ⟨_, -, rfl⟩) | ⟨e, ⟨he, hlive⟩, hitem⟩) | ⟨_, -, rfl⟩) |
    ⟨_, -, rfl⟩) | rfl
  case inl.inl.inl.inr =>
    unfold EnvelopeEntry.items at hitem
    rcases List.mem_cons.1 hitem with rfl | hitem
    · exact ⟨e, he, hlive, hpayload⟩
    · split at hitem
      · obtain rfl := List.mem_singleton.1 hitem
        cases htype
      · cases hitem
  all_goals cases htype

theorem Fabric.checkpoint_known {r : DurableRecord}
    (hr : r ∈ (f.maybeCheckpoint a).2.disk.records) (htype : r.type = .envelope) :
    f.Known r.payload := by
  unfold maybeCheckpoint at hr
  split at hr
  · exact .inl ⟨r, hr, htype, rfl⟩
  split at hr
  · exact .inl ⟨r, hr, htype, rfl⟩
  split at hr
  · exact .inl ⟨r, hr, htype, rfl⟩
  rename_i cs hcs
  -- a record was there before, or the compaction wrote it for a live envelope
  rcases DurableStore.mem_records_checkpoint hr with hr | hr
  · exact .inl ⟨r, hr, htype, rfl⟩
  · refine .inr (mem_compacted_envelope hcs ?_)
    rw [← htype]
    exact mem_numbered hr

/-- Journaling an envelope leaves no other new `Envelope` record. -/
theorem Fabric.journal_known {now : Instant} {payload : Bytes} {r : DurableRecord}
    (hr : r ∈ (f.journal a .envelope payload now.ns).2.disk.records) (htype : r.type = .envelope) :
    f.Known r.payload ∨ r.payload = payload ∧ f.Deposits a now payload := by
  have hknown := @checkpoint_known f a r
  unfold Deposits
  unfold journal at hr
  generalize f.maybeCheckpoint a = ready at hr hknown ⊢
  obtain ⟨status, storage⟩ := ready
  dsimp only at hr hknown ⊢
  cases hok : status.isOk with
  | false =>
    rw [hok] at hr
    exact .inl (hknown hr htype)
  | true =>
    rw [hok] at hr
    cases hstore : storage.durable with
    | none =>
      rw [hstore] at hr
      exact .inl (hknown hr htype)
    | some store =>
      rw [hstore] at hr
      rcases DurableStore.mem_records_append_iff.1 hr with hr | ⟨rfl, hdeposits⟩
      · exact .inl (hknown hr htype)
      · exact .inr ⟨rfl, rfl, store, rfl, hdeposits⟩

theorem Fabric.Deposits.mem {now : Instant} {payload : Bytes} (h : f.Deposits a now payload) :
    ∃ r ∈ (f.journal a .envelope payload now.ns).2.disk.records,
      r.type = .envelope ∧ r.payload = payload := by
  obtain ⟨hok, store, hstore, hdeposits⟩ := h
  unfold journal
  generalize f.maybeCheckpoint a = ready at hok hstore hdeposits ⊢
  obtain ⟨status, storage⟩ := ready
  dsimp only at hok hstore hdeposits ⊢
  rw [hok, hstore]
  exact ⟨_, DurableStore.mem_records_append_iff.2 (.inr ⟨rfl, hdeposits⟩), rfl, rfl⟩

/-- The `Envelope` records are known as before, unless one that is not known is deposited. -/
theorem Fabric.journal_known_iff {now : Instant} {payload : Bytes} :
    (∀ r ∈ (f.journal a .envelope payload now.ns).2.disk.records,
      r.type = .envelope → f.Known r.payload) ↔ (f.Deposits a now payload → f.Known payload) := by
  constructor
  · intro h hdeposits
    obtain ⟨r, hr, htype, rfl⟩ := hdeposits.mem
    exact h r hr htype
  · intro h r hr htype
    rcases journal_known hr htype with hknown | ⟨rfl, hdeposits⟩
    · exact hknown
    · exact h hdeposits

/-! ### The envelopes a caller can use -/

namespace Fabric

/-- The live, unrevoked envelopes, in the order of their slots. -/
def usable (f : Fabric) : List PacingEnvelope :=
  (f.envelopes.entries.filter fun e => e.live && !e.revoked).map (·.envelope)

theorem usable_compactTables : f.compactTables.usable = f.usable := by
  unfold usable compactTables
  dsimp only
  split
  · simp only [EnvelopeTable.compact, List.filter_filter]
    congr 2
    funext e
    cases e.live <;> simp
  · rfl

/-- Eviction takes a slot, or only moves the hint of the scan. -/
theorem evictAndCompact_entries (f : Fabric) :
    f.evictAndCompact.envelopes.entries = match f.victim with
      | some (i, e) => (f.compactTables.envelopes.evict i e).entries
      | none => f.compactTables.envelopes.entries := by
  unfold victim evictAndCompact
  have hconfig : f.compactTables.config = f.config := rfl
  dsimp only
  rw [hconfig]
  split
  · rfl
  · unfold evictOne
    dsimp only
    cases f.compactTables.evictionVictim <;> rfl

/-- Eviction takes an envelope away unless the one it takes was revoked. -/
theorem usable_evictAndCompact_iff :
    f.evictAndCompact.usable = f.usable ↔ ∀ i e, f.victim = some (i, e) → e.revoked = true := by
  rw [← usable_compactTables (f := f)]
  unfold usable
  rw [evictAndCompact_entries]
  cases hvictim : f.victim with
  | none => exact iff_of_true rfl fun _ _ h => by cases h
  | some slot =>
    obtain ⟨i, e⟩ := slot
    obtain ⟨hi, hevictable⟩ := victim_some hvictim
    have hlive : e.live = true := (Bool.and_eq_true_iff.1 hevictable).1
    dsimp only [EnvelopeTable.evict]
    -- the slot it marks dead drops out of the list, unless it was not in it
    rw [filter_set hi (y := { e with
      live := false, revokeReason := "evicted: envelope table at capacity" }) (by simp)]
    generalize (f.compactTables.envelopes.entries.set i _).filter _ = kept
    generalize ((f.compactTables.envelopes.entries.take i).filter _).length = n
    cases hrevoked : e.revoked with
    | true =>
      refine iff_of_true ?_ ?_
      · simp [hrevoked]
      · rintro _ _ ⟨⟩
        exact hrevoked
    | false =>
      refine iff_of_false (fun h => ?_) fun h => ?_
      · -- the two lists differ in length by the slot
        have hlength := congrArg List.length h
        simp [hlive, hrevoked] at hlength
        omega
      · rw [h i e rfl] at hrevoked
        cases hrevoked

end Fabric

/-! ### The steps before the last section -/

namespace Call

/-- The calls of `derive_envelope`. -/
def issuing : Call → Bool
  | .enter (.deriveEnvelope _) | .trust (.deriveEnvelope _) | .sample (.deriveEnvelope _) => true
  | .locked (.deriveEnvelope _) _ | .fetch (.derive _) _ _ => true
  | .derive .. | .leave (.envelope _) => true
  | _ => false

/-- Only the last section of a derivation changes the table or the files. -/
theorem issuing_kept {k : Call} (h : k.issuing = true)
    (hk : ∀ inputs now, k ≠ .derive inputs now) :
    (step f a k).1.envelopes = f.envelopes ∧ (step f a k).1.storage = f.storage := by
  have hframe := step_frame f a k
  cases k with
  | derive inputs now => exact absurd rfl (hk inputs now)
  | locked request now =>
    cases request with
    | deriveEnvelope flow => exact ⟨rfl, rfl⟩
    | _ => cases h
  | enter | trust | sample | fetch | leave => exact ⟨hframe.envelopes rfl, hframe.storage rfl⟩
  | _ => cases h

end Call

/-! ### How a derivation ends -/

namespace Fabric

variable {inputs : AuthorityInputs} {now : Instant} {payload : Bytes}

/-- The record that the derivation hands to the journal: it gets past its own checks. -/
def Offers (f : Fabric) (a : Answers) (inputs : AuthorityInputs) (now : Instant)
    (payload : Bytes) : Prop :=
  f.running = true ∧ ∃ outcome expiry,
    deriveCadence (derivationInput inputs) f.config.limits = .ok outcome ∧
    expiryNs f.config inputs.grant now = .ok expiry ∧
    encodeEnvelopePayload (f.nextEnvelope a inputs now outcome expiry) = .ok payload

theorem Offers.unique {payload' : Bytes} (h : f.Offers a inputs now payload)
    (h' : f.Offers a inputs now payload') : payload = payload' := by
  obtain ⟨-, outcome, expiry, houtcome, hexpiry, hpayload⟩ := h
  obtain ⟨-, outcome', expiry', houtcome', hexpiry', hpayload'⟩ := h'
  obtain rfl := Except.ok.inj (houtcome.symm.trans houtcome')
  obtain rfl := Except.ok.inj (hexpiry.symm.trans hexpiry')
  exact Except.ok.inj (hpayload.symm.trans hpayload')

/-- How a derivation ends: before the journal, at the journal, at the table, or issued. -/
inductive Derives (f : Fabric) (a : Answers) (inputs : AuthorityInputs) (now : Instant) :
    StatusOr PacingEnvelope × Fabric → Prop
  | refused {status g} (unoffered : ∀ payload, ¬ f.Offers a inputs now payload)
      (envelopes : g.envelopes = f.envelopes) (storage : g.storage = f.storage) :
      Derives f a inputs now (.error status, g)
  | unjournaled {payload status g} (offers : f.Offers a inputs now payload)
      (refused : (f.journal a .envelope payload now.ns).1.isOk = false)
      (envelopes : g.envelopes = f.envelopes)
      (storage : g.storage = (f.journal a .envelope payload now.ns).2) :
      Derives f a inputs now (.error status, g)
  | unadmitted {payload status g} (offers : f.Offers a inputs now payload)
      (journaled : (f.journal a .envelope payload now.ns).1.isOk = true) (full : f.tableFull)
      (envelopes : g.envelopes = f.evictAndCompact.envelopes)
      (storage : g.storage = (f.journal a .envelope payload now.ns).2) :
      Derives f a inputs now (.error status, g)
  | issued {payload envelope g} (offers : f.Offers a inputs now payload)
      (journaled : (f.journal a .envelope payload now.ns).1.isOk = true) (room : ¬ f.tableFull)
      (envelopes : g.envelopes = f.evictAndCompact.envelopes.insert envelope) :
      Derives f a inputs now (.ok envelope, g)

theorem admitEnvelope_derives {g : Fabric} (offers : f.Offers a inputs now payload)
    (journaled : (f.journal a .envelope payload now.ns).1.isOk = true) (envelope : PacingEnvelope)
    (hconfig : g.config = f.config) (henvelopes : g.envelopes = f.envelopes)
    (hattempts : g.attempts = f.attempts)
    (hstorage : g.storage = (f.journal a .envelope payload now.ns).2) :
    Derives f a inputs now (g.admitEnvelope envelope) := by
  have hevicted := evictAndCompact_congr hconfig henvelopes hattempts
  obtain ⟨_, hframe⟩ := g.evictAndCompact_frame
  have hfull : f.tableFull ↔ f.config.limits.maxEnvelopes.toNat ≤
      g.evictAndCompact.envelopes.entries.length := by
    rw [hevicted, length_evictAndCompact, length_compactTables]
    rfl
  have hlimits : g.evictAndCompact.config = f.config := by rw [hframe, ← hconfig]
  unfold admitEnvelope
  dsimp only
  rw [hlimits]
  split
  · rename_i hlength
    refine .unadmitted offers journaled (hfull.2 hlength) hevicted ?_
    rw [hframe, ← hstorage]
  · rename_i hlength
    exact .issued offers journaled (hfull.not.2 hlength) (by rw [← hevicted])

theorem deriveEnvelope_derives (f : Fabric) (a : Answers) (inputs : AuthorityInputs)
    (now : Instant) : Derives f a inputs now (f.deriveEnvelope a inputs now) := by
  unfold deriveEnvelope
  cases hrun : f.running with
  | false =>
    refine .refused (fun _ h => ?_) rfl rfl
    rw [h.1] at hrun
    cases hrun
  | true =>
    simp only [Bool.not_true, Bool.false_eq_true, if_false]
    unfold deriveEnvelopeInternal
    cases houtcome : deriveCadence (derivationInput inputs) f.config.limits with
    | error status =>
      refine .refused (fun _ h => ?_) rfl rfl
      obtain ⟨-, _, _, h, -⟩ := h
      rw [houtcome] at h
      cases h
    | ok outcome =>
      cases hexpiry : expiryNs f.config inputs.grant now with
      | error status =>
        refine .refused (fun _ h => ?_) rfl rfl
        obtain ⟨-, _, _, -, h, -⟩ := h
        rw [hexpiry] at h
        cases h
      | ok expiry =>
        dsimp only
        -- the identities minted first are read by nothing that follows
        change Derives f a inputs now (issueEnvelope { f with
          envelopeIds := f.envelopeIds.next.2, provenanceIds := f.provenanceIds.next.2 } a now
          (f.nextEnvelope a inputs now outcome expiry))
        unfold issueEnvelope
        cases hpayload : encodeEnvelopePayload (f.nextEnvelope a inputs now outcome expiry) with
        | error status =>
          refine .refused (fun _ h => ?_) rfl rfl
          obtain ⟨-, _, _, ho, he, h⟩ := h
          obtain rfl := Except.ok.inj (houtcome.symm.trans ho)
          obtain rfl := Except.ok.inj (hexpiry.symm.trans he)
          rw [hpayload] at h
          cases h
        | ok payload =>
          have hoffers : f.Offers a inputs now payload :=
            ⟨hrun, outcome, expiry, houtcome, hexpiry, hpayload⟩
          have hjournal : journal { f with
              envelopeIds := f.envelopeIds.next.2, provenanceIds := f.provenanceIds.next.2 }
              a .envelope payload now.ns = f.journal a .envelope payload now.ns := rfl
          dsimp only
          rw [journalRecord_fst, journalRecord_snd, hjournal]
          cases hok : (f.journal a .envelope payload now.ns).1.isOk with
          | false => exact .unjournaled hoffers hok rfl rfl
          | true => exact admitEnvelope_derives hoffers hok _ rfl rfl rfl rfl

/-- For every state and every failure: the earlier sections of a derivation change neither the
table nor the files. A derivation that its last section refuses changes neither the envelopes a
caller can use nor the `Envelope` records of the files, exactly when the record it offers is not
deposited by a store that refuses it or for a full table, and the table takes no envelope that
is not revoked. -/
theorem refused_unseen_iff (f : Fabric) (a : Answers) (inputs : AuthorityInputs) (now : Instant) :
    (∀ k : Call, k.issuing = true → (∀ inputs now, k ≠ .derive inputs now) →
      (Call.step f a k).1.envelopes = f.envelopes ∧ (Call.step f a k).1.storage = f.storage) ∧
    (((∃ status, (f.deriveEnvelope a inputs now).1 = .error status) →
      (f.deriveEnvelope a inputs now).2.usable = f.usable ∧
      ∀ r ∈ (f.deriveEnvelope a inputs now).2.storage.disk.records,
        r.type = .envelope → f.Known r.payload) ↔
    ∀ payload, f.Offers a inputs now payload →
      ((f.journal a .envelope payload now.ns).1.isOk = false →
        f.Deposits a now payload → f.Known payload) ∧
      ((f.journal a .envelope payload now.ns).1.isOk = true → f.tableFull →
        (f.Deposits a now payload → f.Known payload) ∧
          ∀ i e, f.victim = some (i, e) → e.revoked = true)) := by
  refine ⟨fun k => Call.issuing_kept, ?_⟩
  have hderives := f.deriveEnvelope_derives a inputs now
  generalize f.deriveEnvelope a inputs now = result at hderives ⊢
  have husable : ∀ {g : Fabric}, g.envelopes = f.envelopes → g.usable = f.usable := by
    intro g hg
    rw [usable, usable, hg]
  -- a payload offered is the one the derivation journaled, so each end meets its own condition
  cases hderives with
  | refused unoffered envelopes storage =>
    refine iff_of_true (fun _ => ⟨husable envelopes, ?_⟩) fun payload h => absurd h (unoffered _)
    intro r hr htype
    rw [storage] at hr
    exact .inl ⟨r, hr, htype, rfl⟩
  | @unjournaled payload status g offers refused envelopes storage =>
    dsimp only
    rw [storage, journal_known_iff]
    constructor
    · intro h payload' offers'
      obtain rfl := offers.unique offers'
      refine ⟨fun _ => (h ⟨_, rfl⟩).2, fun hok => ?_⟩
      rw [refused] at hok
      cases hok
    · intro h _
      exact ⟨husable envelopes, (h payload offers).1 refused⟩
  | @unadmitted payload status g offers journaled full envelopes storage =>
    have hevicted : g.usable = f.evictAndCompact.usable := by rw [usable, usable, envelopes]
    dsimp only
    rw [storage, journal_known_iff, hevicted, usable_evictAndCompact_iff]
    constructor
    · intro h payload' offers'
      obtain rfl := offers.unique offers'
      refine ⟨fun hrefused => ?_, fun _ _ => (h ⟨_, rfl⟩).symm⟩
      rw [journaled] at hrefused
      cases hrefused
    · intro h _
      exact ((h payload offers).2 journaled full).symm
  | issued offers journaled room envelopes =>
    refine iff_of_true (fun h => ?_) fun payload' offers' => ?_
    · obtain ⟨_, h⟩ := h
      cases h
    · obtain rfl := offers.unique offers'
      refine ⟨fun hrefused => ?_, fun _ full => absurd full room⟩
      rw [journaled] at hrefused
      cases hrefused

end Fabric

namespace Scenario

/-- A coordinator that journals, with room for one envelope. -/
def oneSlotJournaling : FabricConfig := { journaling with limits := { maxEnvelopes := 1 } }

def oneSlotStarted : World :=
  .idle ((Fabric.construct oneSlotJournaling {}).initializeFabric
    { answers with recoverNow := answers.now }).2

/-- The one envelope is issued; a second derivation is about to be journaled. -/
def secondJournaled : World :=
  coordinator.exec oneSlotStarted (setup ++ calls 0 (.deriveEnvelope ⟨1⟩) 9)

/-- The envelopes a caller can use before and after the derivation of thread `0` is refused, and
the envelopes of the `Envelope` records after it. -/
def refusedDerivation (w : World) :
    Option (List EnvelopeId × List EnvelopeId × List (Option EnvelopeId)) :=
  match w.calls 0 with
  | some (.derive inputs now) =>
    match w.shared.deriveEnvelope answers inputs now with
    | (.error _, f) => some (w.shared.usable.map (·.ref.id), f.usable.map (·.ref.id),
        (f.storage.disk.records.filter fun r => decide (r.type = .envelope)).map fun r =>
          (decodePayload decodeEnvelope r.payload).map (·.ref.id))
    | _ => none
  | _ => none

end Scenario

/-- With room for one envelope a second derivation is refused: the first envelope is gone, and
the second, which was never issued, is in the journal. -/
theorem refused_seen : Scenario.secondJournaled.Reachable ∧
    Scenario.refusedDerivation Scenario.secondJournaled =
      some ([⟨1⟩], [], [some ⟨1⟩, some ⟨2⟩]) := by
  have hstart : Step coordinator World.initial .restart Scenario.oneSlotStarted :=
    .restart ⟨_, _, rfl⟩
  obtain ⟨n, hn⟩ := Program.run_exec (P := coordinator) Scenario.oneSlotStarted
    (Scenario.setup ++ Scenario.calls 0 (.deriveEnvelope ⟨1⟩) 9)
  exact ⟨⟨_, (Run.zero.succ trivial hstart).trans (hn.mono fun _ _ _ => trivial)⟩,
    by decide +kernel⟩

end Pacing
