import PacingFabric.Theorems.Currency
import PacingFabric.Theorems.Readback

/-!
# Shutdown and the journal

`shutdown` refuses new work, waits until the operation guards are released and moves the
durable store away. Every operation that journals either tests `running` in the same
locked section or holds a guard it took before the wait ended, so the store is in place.

## Main definitions

* `Storage.Journaled`: storage that only journaling has changed.
* `Storage.Starts`: storage that a start has changed.
* `Call.Journals`: the next step of a call would journal a record.
* `Draining`: what is left of the calls once the store is on its way out.

## Main results

* `Call.step_journaled`: no step but the last of `shutdown` changes storage otherwise.
* `Draining.move`: each step of a call keeps the coordinator draining, and
  `Draining.start_object` says when `initialize` does.
-/

namespace Pacing

open Interleaving

variable {f : Fabric} {a : Answers} {now : Instant}

/-! ### Storage changes by journaling only -/

/-- Storage that changed by journaling, with any tables to compact. -/
def Storage.Journaled (a : Answers) : Storage → Storage → Prop :=
  Relation.ReflTransGen fun s s' => ∃ (f : Fabric) (type : DurableRecordType)
    (payload : Bytes) (ts : UInt64), f.storage = s ∧ s' = (f.journal a type payload ts).2

namespace Fabric

theorem journaled_refl (f : Fabric) (a : Answers) : f.storage.Journaled a f.storage := .refl

theorem journal_journaled {s : Storage} (hs : f.storage = s) (type : DurableRecordType)
    (payload : Bytes) (ts : UInt64) : s.Journaled a (f.journal a type payload ts).2 :=
  .single ⟨f, type, payload, ts, hs, rfl⟩

theorem journalRecord_journaled {s : Storage} (hs : f.storage = s) (type : DurableRecordType)
    (payload : Bytes) (ts : UInt64) : s.Journaled a (f.journalRecord a type payload ts).2.storage :=
  journal_journaled hs ..

theorem commitRecord_journaled (i : ℕ) (entry : AttemptEntry) (record : ApplicationRecord) :
    f.storage.Journaled a (f.commitRecord a i entry record now).storage := by
  unfold commitRecord journalAttempt
  cases encodeAttemptPayload record with
  | error status => exact .refl
  | ok payload =>
    exact journal_journaled (f := { f with attempts := f.attempts.write i entry record }) rfl ..

theorem bindFlow_journaled (binding : FlowBinding) :
    f.storage.Journaled a (f.bindFlow a now binding).2.storage := by
  unfold bindFlow
  dsimp only
  repeat' split
  all_goals first
    | exact journaled_refl ..
    | exact journalRecord_journaled (by rfl) ..

theorem unbindFlow_journaled (flow : FlowId) :
    f.storage.Journaled a (f.unbindFlow a now flow).2.storage := by
  unfold unbindFlow
  dsimp only
  repeat' split
  all_goals first
    | exact journaled_refl ..
    | exact journalRecord_journaled (by rfl) ..

theorem registerBackend_journaled (backend : BackendPtr) (desc : BackendDescriptor) :
    f.storage.Journaled a (f.registerBackend a now backend desc).2.storage := by
  unfold registerBackend
  dsimp only
  repeat' split
  all_goals first
    | exact journaled_refl ..
    | exact journalRecord_journaled (by rfl) ..

theorem publishPolicy_journaled (policy : PacingPolicy) :
    f.storage.Journaled a (f.publishPolicy a now policy).2.storage := by
  unfold publishPolicy
  dsimp only
  repeat' split
  all_goals first
    | exact journaled_refl ..
    | exact journalRecord_journaled (by rfl) ..

theorem removePolicy_journaled (id : PolicyId) :
    f.storage.Journaled a (f.removePolicy a now id).2.storage := by
  unfold removePolicy
  dsimp only
  repeat' split
  all_goals first
    | exact journaled_refl ..
    | exact journalRecord_journaled (by rfl) ..

theorem issueEnvelope_journaled (envelope : PacingEnvelope) :
    f.storage.Journaled a (f.issueEnvelope a now envelope).2.storage := by
  unfold issueEnvelope
  split
  · exact journaled_refl ..
  · dsimp only
    split
    · exact journalRecord_journaled (by rfl) ..
    · rw [(admitEnvelope_frame _ envelope).choose_spec]
      exact journalRecord_journaled (by rfl) ..

theorem deriveEnvelope_journaled (inputs : AuthorityInputs) :
    f.storage.Journaled a (f.deriveEnvelope a inputs now).2.storage := by
  unfold deriveEnvelope
  split
  · exact journaled_refl ..
  · unfold deriveEnvelopeInternal
    generalize deriveCadence (derivationInput inputs) f.config.limits = derived
    generalize expiryNs f.config inputs.grant now = expiry
    cases derived with
    | error status => exact journaled_refl ..
    | ok outcome =>
      cases expiry with
      | error status => exact journaled_refl ..
      | ok expiry =>
        dsimp only
        exact issueEnvelope_journaled (f := { f with
          envelopeIds := f.envelopeIds.next.2, provenanceIds := f.provenanceIds.next.2 }) _

theorem insertAttempt_journaled (record : ApplicationRecord) (request : ApplyRequest) :
    f.storage.Journaled a (f.insertAttempt a now record request).2.storage := by
  unfold insertAttempt
  split
  · exact journaled_refl ..
  · dsimp only
    split
    all_goals exact journalRecord_journaled (by rfl) ..

theorem reserveFresh_journaled (ref : EnvelopeRef) (requested : AttemptId)
    (envelope : PacingEnvelope) (backend : BackendPtr) :
    f.storage.Journaled a (f.reserveFresh a now ref requested envelope backend).2.storage := by
  unfold reserveFresh
  dsimp only
  split
  · exact journaled_refl ..
  · exact insertAttempt_journaled (f := { f with
      attemptIds := (f.attemptIdentity requested).2.setFloor
        (f.attemptIdentity requested).1.value }) ..

theorem reserveAttempt_journaled (ref : EnvelopeRef) (backendId : BackendId)
    (requested : AttemptId) (envelope : PacingEnvelope) (backend : BackendPtr) :
    f.storage.Journaled a
      (f.reserveAttempt a now ref backendId requested envelope backend).2.storage := by
  unfold reserveAttempt
  split
  · exact journaled_refl ..
  split
  · exact journaled_refl ..
  split
  · exact journaled_refl ..
  cases f.findDuplicate ref backendId requested with
  | some reservation => exact journaled_refl ..
  | none =>
    dsimp only
    obtain ⟨envelopes, h⟩ := f.evictAndCompact_frame
    rw [h]
    split
    · exact journaled_refl ..
    split
    · exact journaled_refl ..
    · exact reserveFresh_journaled (f := { f with
        envelopes := envelopes, attempts := f.compactTables.attempts }) ..

theorem acknowledgeAttempt_journaled (attempt : AttemptId) (status : Status) (ack : ApplyAck) :
    f.storage.Journaled a (f.acknowledgeAttempt a now attempt status ack).2.storage := by
  unfold acknowledgeAttempt
  dsimp only
  have hcommit : ∀ i entry record, f.storage.Journaled a
      (f.commitRecord a i entry record now).storage := commitRecord_journaled
  generalize f.commitRecord a = commit at hcommit ⊢
  repeat' split
  all_goals first
    | exact hcommit ..
    | exact journaled_refl ..

theorem commitUnverified_journaled (attempt : AttemptId) (drift : AuthorityDrift)
    (code : ErrorCode) :
    f.storage.Journaled a (f.commitUnverified a now attempt drift code).2.storage := by
  unfold commitUnverified
  dsimp only
  have hcommit : ∀ i entry record, f.storage.Journaled a
      (f.commitRecord a i entry record now).storage := commitRecord_journaled
  generalize f.commitRecord a = commit at hcommit ⊢
  repeat' split
  all_goals first
    | exact hcommit ..
    | exact journaled_refl ..

theorem commitVerified_journaled (attempt : AttemptId) (envelope : PacingEnvelope)
    (status : Status) (evidence : ReadbackEvidence) (drift : AuthorityDrift)
    (code : ErrorCode) :
    f.storage.Journaled a
      (f.commitVerified a now attempt envelope status evidence drift code).2.storage := by
  unfold commitVerified
  dsimp only
  have hcommit : ∀ i entry record, f.storage.Journaled a
      (f.commitRecord a i entry record now).storage := commitRecord_journaled
  generalize f.commitRecord a = commit at hcommit ⊢
  repeat' split
  all_goals first
    | exact hcommit ..
    | exact journaled_refl ..

theorem cancelAttempt_journaled (id : AttemptId) (reason : Bytes) :
    f.storage.Journaled a (f.cancelAttempt a now id reason).2.2.storage := by
  unfold cancelAttempt
  dsimp only
  have hcommit : ∀ i entry record, f.storage.Journaled a
      (f.commitRecord a i entry record now).storage := commitRecord_journaled
  generalize f.commitRecord a = commit at hcommit ⊢
  repeat' split
  all_goals first
    | exact hcommit ..
    | exact journaled_refl ..

theorem staleVerify_journaled (id : AttemptId) (drift : AuthorityDrift) :
    f.storage.Journaled a (f.staleVerify a now id drift).storage := by
  unfold staleVerify
  split
  · exact journaled_refl ..
  · exact commitRecord_journaled _ _ _

theorem staleRevalidate_journaled (id : AttemptId) (drift : AuthorityDrift) :
    f.storage.Journaled a (f.staleRevalidate a now id drift).storage := by
  unfold staleRevalidate
  split
  · exact journaled_refl ..
  · exact commitRecord_journaled _ _ _

theorem finalizeVerify_journaled (id : AttemptId) (envelope : PacingEnvelope) (status : Status)
    (evidence : ReadbackEvidence) :
    f.storage.Journaled a (f.finalizeVerify a now id envelope status evidence).2.storage := by
  unfold finalizeVerify
  split
  · exact journaled_refl ..
  · dsimp only
    exact commitRecord_journaled _ _ _

theorem noEvidence_journaled (id : AttemptId) :
    f.storage.Journaled a (f.noEvidence a now id).storage := by
  unfold noEvidence
  split
  · exact journaled_refl ..
  · exact commitRecord_journaled _ _ _

theorem finalizeRevalidate_journaled (id : AttemptId) (envelope : PacingEnvelope)
    (evidence : ReadbackEvidence) :
    f.storage.Journaled a (f.finalizeRevalidate a now id envelope evidence).2.storage := by
  unfold finalizeRevalidate
  split
  · exact journaled_refl ..
  · dsimp only
    exact commitRecord_journaled _ _ _

theorem revokeAttempts_journaled (envelope : EnvelopeId) (cadence : Cadence) (reason : Bytes) :
    f.storage.Journaled a (f.revokeAttempts a now envelope cadence reason).2.storage := by
  unfold revokeAttempts
  refine List.foldlRecOn (f.attempts.byEnvelope envelope.value)
    (revokeAttempt a now cadence reason)
    (motive := fun acc : List Withdrawal × Fabric => f.storage.Journaled a acc.2.storage)
    (journaled_refl ..) ?_
  rintro ⟨todo, g⟩ hg id -
  refine Relation.ReflTransGen.trans hg ?_
  unfold revokeAttempt
  dsimp only
  have hcommit : ∀ i entry record, g.storage.Journaled a
      (g.commitRecord a i entry record now).storage := commitRecord_journaled
  generalize g.commitRecord a = commit at hcommit ⊢
  repeat' split
  all_goals first
    | exact hcommit ..
    | exact journaled_refl ..

theorem revokeEnvelope_journaled (ref : EnvelopeRef) (reason : Bytes) :
    f.storage.Journaled a (f.revokeEnvelope a now ref reason).2.2.storage := by
  unfold revokeEnvelope
  split
  · exact journaled_refl ..
  split
  · exact journaled_refl ..
  split
  · exact journaled_refl ..
  split
  · exact revokeAttempts_journaled ..
  · dsimp only
    split
    · exact journaled_refl ..
    split
    · exact journalRecord_journaled (by rfl) ..
    · exact Relation.ReflTransGen.trans (journalRecord_journaled (by rfl) ..)
        (revokeAttempts_journaled ..)

theorem fenceAttempts_journaled (epoch : Epoch) (detail : Bytes) :
    f.storage.Journaled a (f.fenceAttempts a now epoch detail).storage := by
  unfold fenceAttempts
  refine List.foldlRecOn (List.range f.attempts.entries.length)
    (fenceAttempt a now epoch detail)
    (motive := fun g : Fabric => f.storage.Journaled a g.storage) (journaled_refl ..) ?_
  intro g hg i _
  refine Relation.ReflTransGen.trans hg ?_
  unfold fenceAttempt
  have hcommit : ∀ i entry record, g.storage.Journaled a
      (g.commitRecord a i entry record now).storage := commitRecord_journaled
  generalize g.commitRecord a = commit at hcommit ⊢
  repeat' split
  all_goals first
    | exact hcommit ..
    | exact journaled_refl ..

theorem fenceBelow_journaled (epoch : Epoch) :
    f.storage.Journaled a (f.fenceBelow a now epoch).2.2.storage := by
  unfold fenceBelow
  split
  · exact journaled_refl ..
  · exact fenceAttempts_journaled (f := f.fenceEnvelopes epoch "fenced by coordinator epoch") ..

theorem advanceEpoch_journaled :
    f.storage.Journaled a (f.advanceEpoch a now).2.storage := by
  unfold advanceEpoch
  split
  · exact journaled_refl ..
  dsimp only
  unfold advanceEpochLocked
  dsimp only
  split
  · exact journaled_refl ..
  have hfenced := @fenceAttempts_journaled (fenceEnvelopes { f with epoch := f.epoch.advanced.1 }
    f.epoch.advanced.1 "coordinator epoch advanced") a now f.epoch.advanced.1
    "coordinator epoch advanced past this attempt"
  split
  · exact hfenced
  · exact Relation.ReflTransGen.trans hfenced (journalRecord_journaled (by rfl) ..)

end Fabric

namespace Call

theorem lockedState_journaled (request : Request) :
    f.storage.Journaled a (lockedState f a now request).storage := by
  cases request with
  | advanceEpoch => exact Fabric.advanceEpoch_journaled
  | bindFlow binding => exact Fabric.bindFlow_journaled binding
  | unbindFlow flow => exact Fabric.unbindFlow_journaled flow
  | publishPolicy policy => exact Fabric.publishPolicy_journaled policy
  | removePolicy id => exact Fabric.removePolicy_journaled id
  | unregisterBackend id =>
    obtain ⟨_, h⟩ := f.unregisterBackend_frame id
    rw [lockedState, h]
    exact f.journaled_refl a
  | cancelAttempt id reason =>
    simp only [lockedState]
    split
    · exact f.journaled_refl a
    · exact Fabric.cancelAttempt_journaled ..
  | revokeEnvelope ref reason =>
    simp only [lockedState]
    split
    · exact f.journaled_refl a
    split
    · exact f.journaled_refl a
    · exact Fabric.revokeEnvelope_journaled ..
  | fenceBelow epoch =>
    simp only [lockedState]
    split
    · exact f.journaled_refl a
    · exact Fabric.fenceBelow_journaled epoch
  | _ => exact f.journaled_refl a

/-- Only the last locked section of `shutdown` changes storage other than by journaling. -/
theorem step_journaled {k : Call} (hk : k ≠ .detach) :
    f.storage.Journaled a (step f a k).1.storage := by
  cases hs : k.writesStorage with
  | false =>
    rw [(step_frame f a k).storage hs]
    exact f.journaled_refl a
  | true =>
    cases k with
    | locked request now =>
      rw [show (step f a (.locked request now)).1 = _ from lockedStep_fst f a now request]
      exact lockedState_journaled request
    | register now backend desc => exact Fabric.registerBackend_journaled backend desc
    | derive inputs now => exact Fabric.deriveEnvelope_journaled inputs
    | reserve p =>
      rw [step_reserve_fst]
      exact Fabric.reserveAttempt_journaled ..
    | acknowledge i status ack =>
      rw [step_acknowledge_fst]
      exact Fabric.acknowledgeAttempt_journaled ..
    | commitUnverified i current => exact Fabric.commitUnverified_journaled ..
    | commitVerified i status evidence current => exact Fabric.commitVerified_journaled ..
    | staleCheck c drift =>
      simp only [step]
      split
      · exact Fabric.staleVerify_journaled ..
      · exact Fabric.staleRevalidate_journaled ..
    | noEvidence c => exact Fabric.noEvidence_journaled c.id
    | finalizeCheck c status evidence current =>
      simp only [step]
      split
      · exact Fabric.finalizeVerify_journaled ..
      · exact Fabric.finalizeRevalidate_journaled ..
    | detach => exact absurd rfl hk
    | _ => cases hs

end Call

/-! ### Storage that is held -/

/-- The store is in place and has not been closed. -/
def Storage.Held (s : Storage) : Prop := ∃ store, s.durable = some store ∧ store.isOpen = true

namespace DurableStore
variable {limits : Limits} {store : DurableStore} {disk : Disk}

theorem append_isOpen (record : DurableRecord) (outcome : AppendOutcome) :
    (append limits store disk record outcome).2.1.isOpen = store.isOpen := by
  unfold append
  dsimp only
  repeat' split
  all_goals rfl

theorem checkpoint_isOpen (compacted : List DurableRecord) (outcome : CheckpointOutcome) :
    (checkpoint limits store disk compacted outcome).2.1.isOpen = store.isOpen := by
  unfold checkpoint
  dsimp only
  repeat' split
  all_goals rfl

end DurableStore

/-- A checkpoint neither closes the store nor moves it away. -/
theorem Fabric.maybeCheckpoint_open :
    (f.maybeCheckpoint a).2.durable.map DurableStore.isOpen =
      f.storage.durable.map DurableStore.isOpen := by
  unfold maybeCheckpoint
  cases hstore : f.storage.durable with
  | none => simp [hstore]
  | some store =>
    dsimp only
    split
    · simp [hstore]
    cases f.compacted a.checkpointDescribe with
    | error status => simp [hstore]
    | ok compacted =>
      dsimp only
      simp [DurableStore.checkpoint_isOpen]

/-- Nor does journaling. -/
theorem Fabric.journal_open (type : DurableRecordType) (payload : Bytes) (ts : UInt64) :
    (f.journal a type payload ts).2.durable.map DurableStore.isOpen =
      f.storage.durable.map DurableStore.isOpen := by
  have hcheckpoint := f.maybeCheckpoint_open (a := a)
  unfold journal
  generalize f.maybeCheckpoint a = out at hcheckpoint
  obtain ⟨ready, storage⟩ := out
  dsimp only at hcheckpoint ⊢
  split
  · exact hcheckpoint
  cases hstore : storage.durable with
  | none => exact hcheckpoint
  | some store =>
    rw [hstore] at hcheckpoint
    dsimp only
    rw [← hcheckpoint]
    simp [DurableStore.append_isOpen]

theorem Storage.Journaled.open {s s' : Storage} (h : s.Journaled a s') :
    s'.durable.map DurableStore.isOpen = s.durable.map DurableStore.isOpen := by
  induction h with
  | refl => rfl
  | tail _ hstep ih =>
    obtain ⟨f, type, payload, ts, hs, rfl⟩ := hstep
    rw [Fabric.journal_open, hs, ih]

theorem Storage.Journaled.of_none {s s' : Storage} (h : s.Journaled a s')
    (hnone : s.durable = none) : s' = s := by
  induction h with
  | refl => rfl
  | tail _ hstep ih =>
    obtain ⟨f, type, payload, ts, hf, rfl⟩ := hstep
    rw [ih] at hf
    rw [Fabric.journal_of_none (hf ▸ hnone)]
    exact hf

theorem Storage.held_iff {s : Storage} :
    s.Held ↔ s.durable.map DurableStore.isOpen = some true := by
  cases hs : s.durable <;> simp [Held, hs]

/-! ### Calls that journal -/

namespace Call

/-- With some storage in place the next step would change it, which takes a record to
journal; the last locked section of `shutdown` is the one that changes storage itself. -/
def Journals (f : Fabric) (a : Answers) (k : Call) : Prop :=
  k ≠ .detach ∧ ∃ storage, (step { f with storage := storage } a k).1.storage ≠ storage

/-- Past the test of `running`: what is left of the call may journal without another. -/
def admitted : Call → Bool
  | .install _ | .acknowledge .. | .describeReadback _ | .readback _ => true
  | .fetch (.applyUnverified _) .. | .fetch (.applyAfter ..) .. | .fetch (.check _) .. => true
  | .commitUnverified .. | .commitVerified .. => true
  | .staleCheck .. | .readbackCheck .. | .noEvidence _ | .finalizeCheck .. => true
  | _ => false

/-- The requests that take the operation guard. -/
def takesGuard : Request → Bool
  | .currentTick | .shutdown => false
  | _ => true

/-- The guard is held. -/
def guarded : Call → Bool
  | .trust r | .sample r | .locked r _ => takesGuard r
  | .enter _ | .stop | .drain | .detach | .clear => false
  | _ => true

/-- What begins with a guard has taken it, and what is left of `shutdown` has stopped the
coordinator. -/
def Proper (f : Fabric) : Call → Prop
  | .enter r | .trust r => takesGuard r = true
  | .drain | .detach => f.running = false
  | _ => True

/-- The guard is held, and the clock has been found trustworthy or is not asked. -/
def underway : Call → Bool
  | .trust _ => false
  | k => k.guarded

theorem underway_guarded {k : Call} (h : k.underway = true) :
    k.guarded = true ∧ ∀ f : Fabric, k.Proper f := by
  cases k <;> first | exact ⟨h, fun _ => trivial⟩ | exact nomatch h

theorem admitted_guarded {k : Call} (h : k.admitted = true) : k.guarded = true := by
  cases k <;> first | rfl | cases h

/-- A coordinator that does not run refuses in every section that tests it. -/
theorem lockedState_stopped (h : f.running = false) (request : Request) :
    (lockedState f a now request).storage = f.storage := by
  cases request with
  | unregisterBackend id =>
    obtain ⟨_, hframe⟩ := f.unregisterBackend_frame id
    rw [lockedState, hframe]
  | _ =>
    simp only [lockedState]
    try simp [Fabric.advanceEpoch, Fabric.bindFlow, Fabric.unbindFlow, Fabric.publishPolicy,
      Fabric.removePolicy, Fabric.cancelAttempt, Fabric.revokeEnvelope, Fabric.fenceBelow, h]

/-- A step that journals is admitted, or tests that the coordinator runs. -/
theorem Journals.running {k : Call} (h : k.Journals f a) :
    k.admitted = true ∨ f.running = true := by
  obtain ⟨hdetach, storage, hwrites⟩ := h
  by_contra hnot
  rw [not_or, Bool.not_eq_true, Bool.not_eq_true] at hnot
  obtain ⟨hadmitted, hstopped⟩ := hnot
  refine hwrites ?_
  have hrun : ({ f with storage := storage } : Fabric).running = false := hstopped
  change _ = ({ f with storage := storage } : Fabric).storage
  generalize ({ f with storage := storage } : Fabric) = g at hrun ⊢
  cases hs : k.writesStorage with
  | false => exact (step_frame g a k).storage hs
  | true =>
    cases k with
    | locked request now =>
      exact (congrArg Fabric.storage (lockedStep_fst g a now request)).trans
        (lockedState_stopped hrun request)
    | register now backend desc => simp [step, Fabric.registerBackend, hrun]
    | derive inputs now => simp [step, Fabric.deriveEnvelope, hrun]
    | reserve p =>
      rw [step_reserve_fst]
      simp [Fabric.reserveAttempt, hrun]
    | detach => exact absurd rfl hdetach
    | acknowledge | commitUnverified | commitVerified => cases hadmitted
    | staleCheck | noEvidence | finalizeCheck => cases hadmitted
    | _ => cases hs

/-! ### What follows a step -/

theorem withdrawing_underway (todo : List Withdrawal) (reason : Bytes) (reply : Reply) :
    (withdrawing todo reason reply).underway = true ∧
      (withdrawing todo reason reply).admitted = false := by
  unfold withdrawing
  split <;> exact ⟨rfl, rfl⟩

theorem rebinding_underway (todo : List BackendPtr) (epoch : Epoch) (reply : Reply) :
    (rebinding todo epoch reply).underway = true ∧
      (rebinding todo epoch reply).admitted = false := by
  unfold rebinding
  split <;> exact ⟨rfl, rfl⟩

theorem resume_underway (current : StatusOr AuthorityInputs) (caller : Caller) :
    (resume current caller).underway = true ∧ ((resume current caller).admitted = true →
      (fetch caller ⟨0⟩ .trust).admitted = true) := by
  cases caller <;> cases current <;> simp only [resume]
  all_goals repeat' split
  all_goals exact ⟨rfl, by simp [admitted]⟩

theorem fetchStep_underway (caller : Caller) (flow : FlowId) (phase : Fetch) :
    (fetchStep f a caller flow phase).2.underway = true ∧
      ((fetchStep f a caller flow phase).2.admitted = true →
        (fetch caller flow phase).admitted = true) := by
  have hresume := fun current => resume_underway current caller
  have hadmitted : (fetch caller flow phase).admitted = (fetch caller ⟨0⟩ .trust).admitted := by
    cases caller <;> rfl
  have hstays : ∀ phase', (fetch caller flow phase').underway = true ∧
      ((fetch caller flow phase').admitted = true →
        (fetch caller ⟨0⟩ .trust).admitted = true) := by
    intro phase'
    cases caller <;> exact ⟨rfl, id⟩
  rw [hadmitted]
  cases phase <;> simp only [fetchStep]
  all_goals repeat' split
  all_goals first
    | exact hstays _
    | exact hresume (.error _)
    | exact hresume _

theorem lockedStep_underway {request : Request} (h : takesGuard request = true) :
    (lockedStep f a now request).2.any underway = true ∧
      ((lockedStep f a now request).2.any admitted = true → f.running = true) := by
  cases request with
  | currentTick => cases h
  | shutdown => cases h
  | advanceEpoch =>
    simp only [lockedStep]
    split
    · exact ⟨rfl, fun hadmitted => by cases hadmitted⟩
    · simp [rebinding_underway]
  | registerBackend backend => cases backend <;> exact ⟨rfl, fun hadmitted => by cases hadmitted⟩
  | applyEnvelope ref backendId requested =>
    simp only [lockedStep]
    repeat' split
    all_goals exact ⟨rfl, fun hadmitted => by cases hadmitted⟩
  -- a check goes past this section only while the coordinator runs
  | verifyAttempt id =>
    cases hrun : f.running with
    | true =>
      simp only [lockedStep]
      split <;> exact ⟨rfl, fun _ => trivial⟩
    | false => simp [lockedStep, Fabric.openVerify, hrun, underway, guarded, admitted]
  | revalidate id =>
    cases hrun : f.running with
    | true =>
      simp only [lockedStep]
      split <;> exact ⟨rfl, fun _ => trivial⟩
    | false => simp [lockedStep, Fabric.openRevalidate, hrun, underway, guarded, admitted]
  | cancelAttempt id reason =>
    simp only [lockedStep]
    split
    · exact ⟨rfl, fun hadmitted => by cases hadmitted⟩
    · simp [withdrawing_underway]
  | revokeEnvelope ref reason =>
    simp only [lockedStep]
    split
    · exact ⟨rfl, fun hadmitted => by cases hadmitted⟩
    split
    · exact ⟨rfl, fun hadmitted => by cases hadmitted⟩
    · simp [withdrawing_underway]
  | fenceBelow epoch =>
    simp only [lockedStep]
    split
    · exact ⟨rfl, fun hadmitted => by cases hadmitted⟩
    · simp [withdrawing_underway]
  | _ => exact ⟨rfl, fun hadmitted => by cases hadmitted⟩

/-- A guard that is held is held until it is released. -/
theorem step_underway {k : Call} (hk : k.Proper f) (hheld : k.guarded = true)
    (hguards : k.guards = false) : (step f a k).2.any underway = true := by
  cases k with
  | leave reply => cases hguards
  | enter request => cases hguards
  -- a refusal for the clock still has the guard to release
  | trust request =>
    change underway (if _ then _ else _) = true
    split
    · exact hk
    · rfl
  | sample request => exact hheld
  | locked request now => exact (lockedStep_underway hheld).1
  | fetch caller flow phase => exact (fetchStep_underway caller flow phase).1
  | describe now backend => simp only [step]; split <;> rfl
  | reserve p => simp only [step]; split <;> rfl
  | acknowledge i status ack => simp only [step]; split <;> rfl
  | describeReadback i => simp only [step]; split <;> rfl
  | commitUnverified i current => simp only [step]; split <;> rfl
  | commitVerified i status evidence current => simp only [step]; split <;> rfl
  | staleCheck c drift => simp only [step]; split <;> rfl
  | readbackCheck c backend current => simp only [step]; split <;> rfl
  | finalizeCheck c status evidence current =>
    simp only [step]
    split
    · rfl
    · dsimp only
      split <;> rfl
  | withdraw todo reason reply => exact (withdrawing_underway ..).1
  | rebind todo epoch reply => exact (rebinding_underway ..).1
  | stop | drain | detach | clear => cases hheld
  | _ => rfl

/-- A call without a guard takes one, or none of its steps does. -/
theorem step_unguarded {k k' : Call} (hk : k.Proper f) (hheld : k.guarded = false)
    (h : (step f a k).2 = some k') : k'.guarded = k.guards ∧ k'.Proper (step f a k).1 := by
  cases k with
  | enter request =>
    cases request with
    | currentTick | shutdown => cases hk
    | deriveEnvelope | applyEnvelope | verifyAttempt | revalidate =>
      obtain rfl := Option.some.inj h
      exact ⟨rfl, rfl⟩
    | _ =>
      obtain rfl := Option.some.inj h
      exact ⟨rfl, trivial⟩
  | trust request => exact absurd hk (by simp [Proper, show takesGuard request = false from hheld])
  | sample request =>
    obtain rfl := Option.some.inj h
    exact ⟨hheld, trivial⟩
  | locked request now =>
    cases request with
    | currentTick | shutdown => cases h
    | _ => cases hheld
  | stop =>
    simp only [step] at h ⊢
    split at h
    · cases h
    · rename_i hinit
      obtain rfl := Option.some.inj h
      rw [if_neg hinit]
      split <;> exact ⟨rfl, rfl⟩
  | drain =>
    simp only [step] at h ⊢
    obtain rfl := Option.some.inj h
    split <;> exact ⟨rfl, hk⟩
  | detach =>
    obtain rfl := Option.some.inj h
    exact ⟨rfl, trivial⟩
  | clear => cases h
  | _ => cases hheld

/-- Whether the guard is held after a step. -/
theorem step_guarded {k : Call} (hk : k.Proper f) :
    (step f a k).2.any guarded = (k.guards ^^ k.guarded) := by
  cases hheld : k.guarded with
  | false =>
    cases hnext : (step f a k).2 with
    | none =>
      cases k with
      | enter request => cases request <;> cases hnext
      | leave => cases hheld
      | _ => rfl
    | some k' => simpa using (step_unguarded hk hheld hnext).1
  | true =>
    cases hguards : k.guards with
    | true =>
      cases k with
      | leave reply => rfl
      | enter request => cases hheld
      | _ => cases hguards
    | false =>
      have hnext := step_underway (a := a) hk hheld hguards
      cases hstep : (step f a k).2 with
      | none => simp [hstep] at hnext
      | some k' =>
        rw [hstep] at hnext
        simpa using (underway_guarded hnext).1

/-- Each step leaves its own call proper. -/
theorem step_proper {k k' : Call} (hk : k.Proper f) (h : (step f a k).2 = some k') :
    k'.Proper (step f a k).1 := by
  cases hheld : k.guarded with
  | false => exact (step_unguarded hk hheld h).2
  | true =>
    cases hguards : k.guards with
    | true =>
      cases k with
      | leave reply => cases h
      | enter request => cases hheld
      | _ => cases hguards
    | false =>
      have hnext := step_underway (a := a) hk hheld hguards
      rw [h] at hnext
      exact (underway_guarded hnext).2 _

/-- A call is admitted by a section that tests that the coordinator runs. -/
theorem step_admitted {k : Call} (h : (step f a k).2.any admitted = true) :
    k.admitted = true ∨ f.running = true := by
  cases k with
  | locked request now =>
    cases htakes : takesGuard request with
    | true => exact .inr ((lockedStep_underway htakes).2 h)
    | false =>
      cases request with
      | currentTick | shutdown => cases h
      | _ => cases htakes
  | fetch caller flow phase => exact .inl ((fetchStep_underway caller flow phase).2 h)
  -- the reservation tests `running` in its own section
  | reserve p =>
    right
    cases hrun : f.running with
    | true => rfl
    | false => simp [step, Fabric.reserveAttempt, hrun, admitted] at h
  | trust request =>
    simp only [step] at h
    split at h <;> cases h
  | describe now backend =>
    simp only [step] at h
    split at h <;> cases h
  | withdraw todo reason reply =>
    exact absurd h (by simp [step, withdrawing_underway])
  | rebind todo epoch reply => exact absurd h (by simp [step, rebinding_underway])
  | enter request => cases request <;> cases h
  | stop =>
    simp only [step] at h
    split at h
    · cases h
    · dsimp only at h
      split at h <;> cases h
  | drain =>
    simp only [step] at h
    split at h <;> cases h
  | detach | clear => cases h
  | report c => cases h
  | register now backend desc => cases h
  | derive inputs now => cases h
  | sample request => cases h
  | leave reply => cases h
  | _ => exact .inl rfl

/-- `shutdown` moves the store away once no guard is counted. -/
theorem step_detach {k : Call} (hk : k.Proper f) (h : (step f a k).2 = some .detach) :
    f.activeOperations = 0 := by
  -- a guarded call hands its guard back before it returns
  cases hheld : k.guarded with
  | true =>
    have hnext := step_guarded (a := a) hk
    rw [h, hheld, Bool.xor_true] at hnext
    cases hguards : k.guards with
    | false => rw [hguards] at hnext; cases hnext
    | true =>
      cases k with
      | leave reply => cases h
      | enter request => cases hheld
      | _ => cases hguards
  | false =>
    cases k with
    | stop =>
      simp only [step] at h
      split at h
      · cases h
      · dsimp only at h
        split at h
        · assumption
        · cases h
    | drain =>
      simp only [step] at h
      split at h
      · assumption
      · cases h
    | enter request => cases request <;> cases h
    | trust request =>
      exact absurd hk (by simp [Proper, show takesGuard request = false from hheld])
    | sample request => cases h
    | locked request now =>
      cases request with
      | currentTick | shutdown => cases h
      | _ => cases hheld
    | detach => cases h
    | clear => cases h
    | _ => cases hheld

/-- The count follows the guards, as far as 32 bits go. -/
theorem step_activeOperations {k : Call} (hk : k.Proper f) {n m : ℕ}
    (hcount : f.activeOperations = UInt32.ofNat n)
    (hmove : m + k.guarded.toNat = n + ((step f a k).2.any guarded).toNat) :
    (step f a k).1.activeOperations = UInt32.ofNat m := by
  rw [step_guarded hk] at hmove
  cases hguards : k.guards with
  | false =>
    rw [(step_frame f a k).guarded hguards, hcount]
    rw [hguards, Bool.false_xor, Nat.add_right_cancel_iff] at hmove
    rw [hmove]
  | true =>
    cases k with
    -- the two steps that write the counter
    | enter request =>
      obtain rfl : m = n + 1 := hmove
      have hstep : (step f a (.enter request)).1.activeOperations = f.activeOperations + 1 := by
        cases request <;> rfl
      rw [hstep, hcount, UInt32.ofNat_add]
      rfl
    | leave reply =>
      obtain rfl : m + 1 = n := hmove
      change f.activeOperations - 1 = _
      rw [hcount, UInt32.ofNat_add]
      exact UInt32.add_sub_cancel ..
    | _ => cases hguards

end Call

/-! ### Starting -/

namespace Fabric

theorem recoverAttempts_journaled : f.storage.Journaled a (f.recoverAttempts a).storage := by
  unfold recoverAttempts
  refine List.foldlRecOn (List.range f.attempts.entries.length) (recoverAttempt a)
    (motive := fun g : Fabric => f.storage.Journaled a g.storage) (journaled_refl ..) ?_
  intro g hg i _
  refine Relation.ReflTransGen.trans hg ?_
  unfold recoverAttempt
  split
  · exact journaled_refl ..
  split
  · exact journaled_refl ..
  · unfold journalAttempt
    dsimp only
    split
    · exact journal_journaled (by rfl) ..
    · exact journaled_refl ..

theorem settle_journaled (replay : Replay) :
    f.storage.Journaled a (f.settle a replay).storage :=
  recoverAttempts_journaled (f := f.invalidateEnvelopes)

/-- Recovery changes the storage by journaling only, once replay has raised the sequence. -/
theorem recover_journaled (f : Fabric) (records : List DurableRecord) :
    ∃ s : Storage, s.durable = f.storage.durable ∧ s.disk = f.storage.disk ∧
      s.Journaled a (f.recover a records).2.storage := by
  obtain ⟨-, -, hdurable, hdisk⟩ := replay_kept a (f.beginRecovery a records) records
  unfold recover
  dsimp only
  -- replay, the new incarnation and the settling are compared one at a time
  generalize (f.beginRecovery a records).replay a records = replay at hdurable hdisk ⊢
  have hadvanced : (replay.fabric.countRestored.advanceIncarnation a).2.storage.durable =
      f.storage.durable ∧
      (replay.fabric.countRestored.advanceIncarnation a).2.storage.disk = f.storage.disk := by
    obtain ⟨_, _, _, hadvance⟩ := advanceIncarnation_frame (f := replay.fabric.countRestored) a
    rw [hadvance]
    exact ⟨hdurable, hdisk⟩
  generalize replay.fabric.countRestored.advanceIncarnation a = advanced at hadvanced ⊢
  obtain ⟨status, g⟩ := advanced
  dsimp only at hadvanced ⊢
  refine ⟨g.storage, hadvanced.1, hadvanced.2, ?_⟩
  split
  · exact journaled_refl ..
  · refine Relation.ReflTransGen.trans (settle_journaled replay) ?_
    unfold journalEpoch
    split
    · exact journaled_refl ..
    · exact journalRecord_journaled (by rfl) ..

end Fabric

/-- A store that opens is open, and so is its journal. -/
theorem DurableStore.openStore_isOpen {limits : Limits} {disk disk' : Disk}
    {outcome : OpenOutcome} {store : DurableStore}
    (h : openStore limits disk outcome = (.ok store, disk')) :
    store.isOpen = true ∧ store.journalOpen = true := by
  unfold openStore at h
  repeat' split at h
  all_goals
    cases h
    try exact ⟨rfl, rfl⟩

/-- Storage that `s` opened as: the files are loaded, and replay may have raised the
sequence. -/
def Storage.OpenedAs (limits : Limits) (a : Answers) (s s' : Storage) : Prop :=
  ∃ store, DurableStore.openStore limits s.disk a.files.opening = (.ok store, s'.disk) ∧
    s'.durable = some store

theorem Storage.OpenedAs.held {limits : Limits} {s s' : Storage} (h : s.OpenedAs limits a s') :
    s'.Held := by
  obtain ⟨store, hopen, hstore⟩ := h
  exact ⟨store, hstore, (DurableStore.openStore_isOpen hopen).1⟩

/-- What a start makes of the storage: it is left, the files are refused, or what was opened
has changed by journaling only. -/
inductive Storage.Starts (limits : Limits) (a : Answers) (s : Storage) : Storage → Prop
  | left : Starts limits a s s
  | refused {s' : Storage} (h : s'.durable = none) : Starts limits a s s'
  | opened {s₁ s' : Storage} (h : s.OpenedAs limits a s₁) (journaled : s₁.Journaled a s') :
      Starts limits a s s'

namespace Fabric

/-- The coordinator that recovers what a store has opened. -/
def openedOver (f : Fabric) (store : DurableStore) (disk : Disk) : Fabric :=
  { f with
    storage := { f.storage with disk := disk, durable := some store }
    recovery := { f.recovery with durableDirectoryUsed := true } }

/-- Where the files open, the durable part of a start is the recovery of what was opened. -/
theorem openDurable_eq {store : DurableStore} {disk : Disk}
    (huses : usesDirectory f.config = true)
    (hopen : DurableStore.openStore f.config.limits f.storage.disk a.files.opening =
      (.ok store, disk)) :
    ∃ recovery, f.openDurable a = (((f.openedOver store disk).recover a store.recovered).1,
      { ((f.openedOver store disk).recover a store.recovered).2 with recovery := recovery }) := by
  have hused : (f.config.enableDurability && !f.config.durableDirectory.isEmpty) = true := huses
  unfold openDurable
  rw [if_pos hused, hopen]
  dsimp only
  split <;> exact ⟨_, rfl⟩

/-- It journals over what was opened. -/
theorem openDurable_opened {store : DurableStore} {disk : Disk}
    (huses : usesDirectory f.config = true)
    (hopen : DurableStore.openStore f.config.limits f.storage.disk a.files.opening =
      (.ok store, disk)) :
    ∃ s, f.storage.OpenedAs f.config.limits a s ∧
      s.Journaled a (f.openDurable a).2.storage := by
  obtain ⟨_, heq⟩ := openDurable_eq huses hopen
  obtain ⟨s, hdurable, hdisk, hjournaled⟩ :=
    recover_journaled (a := a) (f.openedOver store disk) store.recovered
  rw [heq]
  exact ⟨s, ⟨store, hdisk ▸ hopen, hdurable⟩, hjournaled⟩

/-- The durable part of a start leaves the flags alone. Where a directory is used and the start
succeeds, the store is held. -/
theorem openDurable_starts (f : Fabric) :
    SameFlags f (f.openDurable a).2 ∧
      f.storage.Starts f.config.limits a (f.openDurable a).2.storage ∧
      ((f.openDurable a).1.isOk = true → usesDirectory f.config = true →
        (f.openDurable a).2.storage.Held) := by
  by_cases huses : usesDirectory f.config = true
  · cases hopen : DurableStore.openStore f.config.limits f.storage.disk a.files.opening with
    | mk result disk =>
      cases result with
      | error status =>
        -- the files are refused, and with them the start
        have hused : (f.config.enableDurability && !f.config.durableDirectory.isEmpty) = true :=
          huses
        unfold openDurable
        rw [if_pos hused, hopen]
        refine ⟨⟨rfl, rfl, rfl, rfl⟩, .refused rfl, fun hok => ?_⟩
        rw [openStore_error hopen] at hok
        cases hok
      | ok store =>
        obtain ⟨s, hopened, hjournaled⟩ := openDurable_opened huses hopen
        refine ⟨?_, .opened hopened hjournaled, fun _ _ => ?_⟩
        · obtain ⟨_, heq⟩ := openDurable_eq huses hopen
          obtain ⟨⟨hconfig, hinitialized, hrunning, hactive⟩, -⟩ :=
            recover_kept a (f.openedOver store disk) store.recovered
          rw [heq]
          exact ⟨hconfig, hinitialized, hrunning, hactive⟩
        · rw [Storage.held_iff, hjournaled.open, ← Storage.held_iff]
          exact hopened.held
  · have hunused : ¬ (f.config.enableDurability && !f.config.durableDirectory.isEmpty) = true :=
      huses
    unfold openDurable
    rw [if_neg hunused]
    exact ⟨⟨rfl, rfl, rfl, rfl⟩, .left, fun _ h => absurd h huses⟩

/-- The object past the tests of `initialize`. -/
def beginning (f : Fabric) (a : Answers) : Fabric :=
  { f with
    boot := ⟨1, nonZeroNonce (a.nonce 0)⟩
    epoch := ⟨1⟩
    recovery := { bootAfter := ⟨1, nonZeroNonce (a.nonce 0)⟩, epochAfter := ⟨1⟩ } }

/-- Past its tests, `initialize` is its durable part with the flags set. -/
theorem initializeLocked_eq (hclosed : f.initialized = false)
    (hvalid : (checkConfig f.config).isOk = true) :
    f.initializeLocked a = (((f.beginning a).openDurable a).1,
      if ((f.beginning a).openDurable a).1.isOk then
        { ((f.beginning a).openDurable a).2 with initialized := true, running := true }
      else ((f.beginning a).openDurable a).2) := by
  unfold initializeLocked
  dsimp only
  rw [if_neg (by simp [hclosed]), if_neg (by simp [hvalid])]
  rfl

/-- Refused by its tests it changes nothing. -/
theorem initializeLocked_refused
    (h : ¬ (f.initialized = false ∧ (checkConfig f.config).isOk = true)) :
    (f.initializeLocked a).2 = f := by
  unfold initializeLocked
  dsimp only
  split
  · rfl
  rename_i hclosed
  split
  · rfl
  · rename_i hvalid
    exact absurd ⟨by simpa using hclosed, by simpa using hvalid⟩ h

/-- `initialize` changes the storage as a start does. -/
theorem initializeLocked_starts (f : Fabric) :
    f.storage.Starts f.config.limits a (f.initializeLocked a).2.storage := by
  by_cases h : f.initialized = false ∧ (checkConfig f.config).isOk = true
  · rw [initializeLocked_eq h.1 h.2]
    have hstarts := (openDurable_starts (a := a) (f.beginning a)).2.1
    dsimp only
    split <;> exact hstarts
  · rw [initializeLocked_refused h]
    exact .left

/-- `initialize` of a closed object opens it, with the store held where a directory is used, or
leaves it closed. -/
theorem initializeLocked_closed (hclosed : f.initialized = false) :
    (f.initializeLocked a).2.config = f.config ∧
      (f.initializeLocked a).2.activeOperations = f.activeOperations ∧
      ((f.initializeLocked a).2.initialized = false ∧
          (f.initializeLocked a).2.running = f.running ∨
        (f.initializeLocked a).2.initialized = true ∧
          (usesDirectory f.config = true → (f.initializeLocked a).2.storage.Held)) := by
  by_cases h : f.initialized = false ∧ (checkConfig f.config).isOk = true
  · obtain ⟨⟨hconfig, hinitialized, hrunning, hactive⟩, -, hheld⟩ :=
      openDurable_starts (a := a) (f.beginning a)
    rw [initializeLocked_eq h.1 h.2]
    dsimp only
    split
    · rename_i hok
      exact ⟨hconfig, hactive, .inr ⟨rfl, hheld hok⟩⟩
    · exact ⟨hconfig, hactive, .inl ⟨hinitialized.trans hclosed, hrunning⟩⟩
  · rw [initializeLocked_refused h]
    exact ⟨rfl, rfl, .inl ⟨hclosed, rfl⟩⟩

/-- Where the files open, `initialize` journals over what was opened. -/
theorem initializeLocked_opened (hclosed : f.initialized = false)
    (hvalid : (checkConfig f.config).isOk = true) (huses : usesDirectory f.config = true)
    {store : DurableStore} {disk : Disk}
    (hopen : DurableStore.openStore f.config.limits f.storage.disk a.files.opening =
      (.ok store, disk)) :
    ∃ s, f.storage.OpenedAs f.config.limits a s ∧
      s.Journaled a (f.initializeLocked a).2.storage := by
  obtain ⟨s, hopened, hjournaled⟩ :=
    openDurable_opened (f := f.beginning a) (a := a) huses hopen
  refine ⟨s, hopened, ?_⟩
  rw [initializeLocked_eq hclosed hvalid]
  dsimp only
  split <;> exact hjournaled

end Fabric

/-! ### Every interleaving -/

/-- The count is the number of guards; once `shutdown` is past its wait, or the store is not
held, or the object is closed, nothing that is left may journal. -/
structure Draining (w : World) : Prop where
  proper : ∀ i k, w.calls i = some k → k.Proper w.shared
  finite : (w.threads Call.guarded).Finite
  counted : w.shared.activeOperations = UInt32.ofNat (w.threads Call.guarded).ncard
  settled : (Fabric.usesDirectory w.shared.config = true ∧ ¬ w.shared.storage.Held) ∨
      (∃ i, w.calls i = some .detach) ∨ w.shared.initialized = false →
    w.shared.running = false ∧ ∀ i k, w.calls i = some k → k.admitted = false

/-- A call in flight after one thread changed its own is the new one or was there before. -/
theorem of_update {calls : ℕ → Option Call} {i j : ℕ} {next : Option Call} {k : Call}
    (h : Function.update calls i next j = some k) : next = some k ∨ calls j = some k := by
  by_cases hj : j = i
  · subst hj
    exact .inl (by simpa using h)
  · exact .inr (by simpa [Function.update_of_ne hj] using h)

/-- What is proper stays so, as long as nothing starts a coordinator that `shutdown` has
stopped. -/
theorem Call.Proper.mono {g : Fabric} {k : Call} (h : k.Proper f)
    (hstops : k = .drain ∨ k = .detach → g.running = f.running) : k.Proper g := by
  cases k with
  | drain => exact (hstops (.inl rfl)).trans h
  | detach => exact (hstops (.inr rfl)).trans h
  | _ => exact h

namespace Draining
variable {w : World}

theorem start (h : Draining w) {i : ℕ} (r : Request) (free : w.calls i = none) :
    Draining ⟨w.shared, Function.update w.calls i (some (Call.begin r))⟩ := by
  -- a call that begins holds no guard and may not journal
  have hbegin : (Call.begin r).guarded = false ∧ (Call.begin r).Proper w.shared ∧
      (Call.begin r).admitted = false ∧ Call.begin r ≠ .detach := by
    cases r <;> exact ⟨rfl, by trivial, rfl, nofun⟩
  have hcases : ∀ j k, Function.update w.calls i (some (Call.begin r)) j = some k →
      k = Call.begin r ∨ w.calls j = some k :=
    fun j k hk => (of_update hk).imp_left fun h => (Option.some.inj h).symm
  have hcard := Config.ncard_threads h.finite w.shared i (some (Call.begin r))
  rw [free, Option.any_some, hbegin.1] at hcard
  refine ⟨fun j k hk => ?_, Config.finite_threads h.finite .., ?_, fun hend => ?_⟩
  · rcases hcases j k hk with rfl | hk
    · exact hbegin.2.1
    · exact h.proper j k hk
  · rw [show Set.ncard _ = _ from hcard]
    exact h.counted
  · obtain ⟨hrun, hadmitted⟩ := h.settled <| hend.imp_right <| .imp_left fun ⟨j, hj⟩ =>
      ⟨j, (hcases j _ hj).resolve_left (Ne.symm hbegin.2.2.2)⟩
    refine ⟨hrun, fun j k hk => ?_⟩
    rcases hcases j k hk with rfl | hk
    · exact hbegin.2.2.1
    · exact hadmitted j k hk

theorem move (h : Draining w) {i : ℕ} {k : Call} {a : Answers} (here : w.calls i = some k)
    (hfew : (w.threads Call.guarded).ncard < 2 ^ 32) :
    Draining ⟨(Call.step w.shared a k).1,
      Function.update w.calls i (Call.step w.shared a k).2⟩ := by
  have hk := h.proper i k here
  have hframe := Call.step_frame w.shared a k
  -- no step starts a coordinator that has stopped
  have hstops : w.shared.running = false → (Call.step w.shared a k).1.running = false := by
    intro hstopped
    by_contra hrun
    rw [hframe.running (by simpa using hrun)] at hstopped
    cases hstopped
  -- what settled the configuration before the step keeps it settled
  have hkeeps : w.shared.running = false ∧ (∀ j l, w.calls j = some l → l.admitted = false) →
      (Call.step w.shared a k).1.running = false ∧ ∀ j l,
        Function.update w.calls i (Call.step w.shared a k).2 j = some l → l.admitted = false := by
    rintro ⟨hstopped, hadmitted⟩
    refine ⟨hstops hstopped, fun j l hl => ?_⟩
    rcases of_update hl with hnext | hl
    · by_contra hnot
      rcases Call.step_admitted (f := w.shared) (a := a) (k := k)
        (by rw [hnext]; simpa using hnot) with hk | hrun
      · rw [hadmitted i k here] at hk
        cases hk
      · rw [hstopped] at hrun
        cases hrun
    · exact hadmitted j l hl
  have hcard := Config.ncard_threads h.finite (Call.step w.shared a k).1 i
    (Call.step w.shared a k).2
  rw [here, Option.any_some] at hcard
  refine ⟨fun j l hl => ?_, Config.finite_threads h.finite .., ?_, fun hend => ?_⟩
  · rcases of_update hl with hnext | hl
    · exact Call.step_proper hk hnext
    · have hl := h.proper j l hl
      refine hl.mono ?_
      rintro (rfl | rfl)
      all_goals exact (hstops hl).trans (Eq.symm hl)
  · exact Call.step_activeOperations hk h.counted hcard
  -- only the last section of `shutdown` takes the store away
  · by_cases hdetach : k = .detach
    · exact hkeeps (h.settled (.inr (.inl ⟨i, hdetach ▸ here⟩)))
    rcases hend with ⟨huses, hheld⟩ | ⟨j, hj⟩ | hclosed
    · refine hkeeps (h.settled (.inl ⟨hframe.config ▸ huses, fun hbefore => hheld ?_⟩))
      rw [Storage.held_iff] at hbefore ⊢
      exact (Call.step_journaled hdetach).open.trans hbefore
    · rcases of_update hj with hnext | hj
      · -- the wait has just ended: no guard is held
        have hzero := Call.step_detach hk hnext
        have hempty : w.threads Call.guarded = ∅ := by
          rw [h.counted] at hzero
          have hcount := congrArg UInt32.toNat hzero
          rw [UInt32.toNat_ofNat', Nat.mod_eq_of_lt hfew] at hcount
          exact (Set.ncard_eq_zero h.finite).1 hcount
        have hstopped : (Call.step w.shared a k).1.running = false := Call.step_proper hk hnext
        refine ⟨hstopped, fun j' l hl => ?_⟩
        by_contra hnot
        have hguarded := Call.admitted_guarded (k := l) (by simpa using hnot)
        rcases of_update hl with hl | hl
        · rw [hnext] at hl
          obtain rfl := Option.some.inj hl
          cases hguarded
        · have hmem : j' ∈ w.threads Call.guarded := by simp [Config.threads, hl, hguarded]
          rw [hempty] at hmem
          cases hmem
      · exact hkeeps (h.settled (.inr (.inl ⟨j, hj⟩)))
    · rw [hframe.initialized hdetach] at hclosed
      exact hkeeps (h.settled (.inr (.inr hclosed)))

/-- `initialize` settles nothing anew unless it meets a `shutdown` on its way out. -/
theorem start_object (h : Draining w) {a : Answers} (hclosing : w.shared.initialized = false →
    ∀ i, w.calls i ≠ some .drain ∧ w.calls i ≠ some .detach) :
    Draining ⟨(w.shared.initializeLocked a).2, w.calls⟩ := by
  cases hinit : w.shared.initialized with
  | true =>
    rw [Fabric.initializeLocked, if_pos hinit]
    exact h
  | false =>
    obtain ⟨hstopped, hadmitted⟩ := h.settled (.inr (.inr hinit))
    obtain ⟨hconfig, hactive, hopened⟩ := Fabric.initializeLocked_closed (a := a) hinit
    refine ⟨fun i k hk => (h.proper i k hk).mono ?_, h.finite, hactive.trans h.counted,
      fun hend => ?_⟩
    · rintro (rfl | rfl)
      · exact absurd hk (hclosing hinit i).1
      · exact absurd hk (hclosing hinit i).2
    · rcases hopened with ⟨-, hrunning⟩ | ⟨hopen, hheld⟩
      · exact ⟨hrunning.trans hstopped, hadmitted⟩
      -- the object is open, its store is held, and nobody is about to take it away
      · rcases hend with ⟨huses, hnot⟩ | ⟨i, hi⟩ | hclosed
        · exact absurd (hheld (hconfig ▸ huses)) hnot
        · exact absurd hi (hclosing hinit i).2
        · rw [hopen] at hclosed
          cases hclosed

/-- A step that leaves calls, flags and storage as they are. -/
theorem sample (h : Draining w) (now : Instant) : Draining ⟨w.shared.sample now, w.calls⟩ where
  proper := fun i k hk => (h.proper i k hk).mono fun _ => rfl
  finite := h.finite
  counted := h.counted
  settled := h.settled

/-- An object that nobody has initialized. -/
theorem idle (config : FabricConfig) (disk : Disk) :
    Draining (.idle (Fabric.construct config disk)) := by
  refine ⟨fun i k hk => ?_, ?_, ?_, fun hend => ⟨rfl, fun i k hk => ?_⟩⟩
  · cases hk
  · rw [Config.threads_idle]
    exact Set.finite_empty
  · rw [Config.threads_idle, Set.ncard_empty]
    rfl
  · cases hk

/-- What would journal finds the store held. -/
theorem held (h : Draining w) (huses : Fabric.usesDirectory w.shared.config = true) {i : ℕ}
    {k : Call} {a : Answers} (here : w.calls i = some k) (hjournals : k.Journals w.shared a) :
    w.shared.storage.Held := by
  by_contra hnot
  -- without the store nothing in flight may journal, nor anything that begins
  obtain ⟨hstopped, hadmitted⟩ := h.settled (.inl ⟨huses, hnot⟩)
  rcases hjournals.running with hk | hrun
  · rw [hadmitted i k here] at hk
    cases hk
  · rw [hstopped] at hrun
    cases hrun

end Draining

end Pacing
