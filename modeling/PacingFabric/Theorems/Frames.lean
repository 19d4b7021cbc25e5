import PacingFabric.Model.System

/-!
# What each locked section may change

For each section, the fields of the coordinator it may write. Everything a section does not
name here is the same before and after; `Call.step` inherits this for the configuration,
the boot, the epoch and the registered backends.
-/

namespace Pacing

namespace Fabric

variable (f : Fabric) (a : Answers) (now : Instant)

@[simp] theorem journalRecord_fst (type : DurableRecordType) (payload : Bytes) (ts : UInt64) :
    (f.journalRecord a type payload ts).1 = (f.journal a type payload ts).1 := rfl

@[simp] theorem journalRecord_snd (type : DurableRecordType) (payload : Bytes) (ts : UInt64) :
    (f.journalRecord a type payload ts).2 =
      { f with storage := (f.journal a type payload ts).2 } := rfl

theorem bindFlow_frame (binding : FlowBinding) :
    ∃ bindings storage, (f.bindFlow a now binding).2 =
      { f with bindings := bindings, storage := storage } := by
  unfold bindFlow
  repeat' split
  all_goals exact ⟨_, _, rfl⟩

theorem unbindFlow_frame (flow : FlowId) :
    ∃ bindings storage, (f.unbindFlow a now flow).2 =
      { f with bindings := bindings, storage := storage } := by
  unfold unbindFlow
  repeat' split
  all_goals exact ⟨_, _, rfl⟩

theorem publishPolicy_frame (policy : PacingPolicy) :
    ∃ policies storage, (f.publishPolicy a now policy).2 =
      { f with policies := policies, storage := storage } := by
  unfold publishPolicy
  dsimp only
  repeat' split
  all_goals exact ⟨_, _, rfl⟩

theorem removePolicy_frame (id : PolicyId) :
    ∃ policies storage, (f.removePolicy a now id).2 =
      { f with policies := policies, storage := storage } := by
  unfold removePolicy
  repeat' split
  all_goals exact ⟨_, _, rfl⟩

theorem registerBackend_frame (backend : BackendPtr) (desc : BackendDescriptor) :
    ∃ backends storage, (f.registerBackend a now backend desc).2 =
      { f with backends := backends, storage := storage } := by
  unfold registerBackend
  dsimp only
  repeat' split
  all_goals exact ⟨_, _, rfl⟩

theorem unregisterBackend_frame (id : BackendId) :
    ∃ backends, (f.unregisterBackend id).2 = { f with backends := backends } := by
  unfold unregisterBackend
  split
  all_goals exact ⟨_, rfl⟩

theorem evictAndCompact_frame :
    ∃ envelopes, f.evictAndCompact =
      { f with envelopes := envelopes, attempts := f.compactTables.attempts } := by
  unfold evictAndCompact
  dsimp only
  split
  · exact ⟨_, rfl⟩
  · unfold evictOne
    dsimp only
    split
    all_goals exact ⟨_, rfl⟩

theorem admitEnvelope_frame (envelope : PacingEnvelope) :
    ∃ envelopes, (f.admitEnvelope envelope).2 =
      { f with envelopes := envelopes, attempts := f.compactTables.attempts } := by
  obtain ⟨envelopes, h⟩ := f.evictAndCompact_frame
  unfold admitEnvelope
  rw [h]
  dsimp only
  split
  all_goals exact ⟨_, rfl⟩

theorem issueEnvelope_frame (envelope : PacingEnvelope) :
    ∃ envelopes attempts storage, (f.issueEnvelope a now envelope).2 =
        { f with envelopes := envelopes, attempts := attempts, storage := storage } ∧
      (attempts = f.attempts ∨ attempts = f.compactTables.attempts) := by
  unfold issueEnvelope journalRecord
  split
  · exact ⟨_, _, _, rfl, .inl rfl⟩
  · dsimp only
    split
    · exact ⟨_, _, _, rfl, .inl rfl⟩
    · rw [(admitEnvelope_frame _ envelope).choose_spec]
      exact ⟨_, _, _, rfl, .inr rfl⟩

theorem deriveEnvelope_frame (inputs : AuthorityInputs) :
    ∃ envelopes envelopeIds provenanceIds attempts storage,
      (f.deriveEnvelope a inputs now).2 =
        { f with
          envelopes := envelopes
          envelopeIds := envelopeIds
          provenanceIds := provenanceIds
          attempts := attempts
          storage := storage } ∧
      (attempts = f.attempts ∨ attempts = f.compactTables.attempts) := by
  unfold deriveEnvelope
  split
  · exact ⟨_, _, _, _, _, rfl, .inl rfl⟩
  · unfold deriveEnvelopeInternal
    -- the derivation itself is kept abstract: only its outcome matters here
    generalize deriveCadence (derivationInput inputs) f.config.limits = derived
    generalize expiryNs f.config inputs.grant now = expiry
    cases derived with
    | error status => exact ⟨_, _, _, _, _, rfl, .inl rfl⟩
    | ok outcome =>
      cases expiry with
      | error status => exact ⟨_, _, _, _, _, rfl, .inl rfl⟩
      | ok expiry =>
        dsimp only
        obtain ⟨envelopes, attempts, storage, h, hatt⟩ := issueEnvelope_frame
          { f with envelopeIds := f.envelopeIds.next.2, provenanceIds := f.provenanceIds.next.2 }
          a now (assembleEnvelope f.config inputs outcome now expiry a.synthetic
            f.envelopeIds.next.1 f.provenanceIds.next.1)
        rw [h]
        exact ⟨_, _, _, _, _, rfl, hatt⟩

theorem insertAttempt_frame (record : ApplicationRecord) (request : ApplyRequest) :
    ∃ attempts storage, (f.insertAttempt a now record request).2 =
      { f with attempts := attempts, storage := storage } := by
  unfold insertAttempt journalRecord
  split
  · exact ⟨_, _, rfl⟩
  · dsimp only
    split
    all_goals exact ⟨_, _, rfl⟩

theorem reserveFresh_frame (ref : EnvelopeRef) (requested : AttemptId)
    (envelope : PacingEnvelope) (backend : BackendPtr) :
    ∃ attempts attemptIds storage,
      (f.reserveFresh a now ref requested envelope backend).2 =
        { f with attempts := attempts, attemptIds := attemptIds, storage := storage } := by
  unfold reserveFresh
  dsimp only
  split
  · exact ⟨_, _, _, rfl⟩
  · obtain ⟨attempts, storage, h⟩ := insertAttempt_frame _ a now _ _
    rw [h]
    exact ⟨_, _, _, rfl⟩

theorem reserveAttempt_frame (ref : EnvelopeRef) (backendId : BackendId)
    (requested : AttemptId) (envelope : PacingEnvelope) (backend : BackendPtr) :
    ∃ envelopes attempts attemptIds storage,
      (f.reserveAttempt a now ref backendId requested envelope backend).2 =
        { f with
          envelopes := envelopes
          attempts := attempts
          attemptIds := attemptIds
          storage := storage } := by
  unfold reserveAttempt
  split
  · exact ⟨_, _, _, _, rfl⟩
  · split
    · exact ⟨_, _, _, _, rfl⟩
    · split
      · exact ⟨_, _, _, _, rfl⟩
      · cases f.findDuplicate ref backendId requested with
        | some reservation => exact ⟨_, _, _, _, rfl⟩
        | none =>
          dsimp only
          obtain ⟨envelopes, h⟩ := f.evictAndCompact_frame
          rw [h]
          split
          · exact ⟨_, _, _, _, rfl⟩
          · split
            · exact ⟨_, _, _, _, rfl⟩
            · obtain ⟨attempts, attemptIds, storage, hfresh⟩ :=
                reserveFresh_frame _ a now ref requested envelope backend
              rw [hfresh]
              exact ⟨_, _, _, _, rfl⟩

theorem acknowledgeAttempt_frame (attempt : AttemptId) (status : Status) (ack : ApplyAck) :
    ∃ attempts storage, (f.acknowledgeAttempt a now attempt status ack).2 =
      { f with attempts := attempts, storage := storage } := by
  unfold acknowledgeAttempt
  dsimp only
  repeat' split
  all_goals exact ⟨_, _, rfl⟩

theorem commitUnverified_frame (attempt : AttemptId) (drift : AuthorityDrift)
    (code : ErrorCode) :
    ∃ attempts storage, (f.commitUnverified a now attempt drift code).2 =
      { f with attempts := attempts, storage := storage } := by
  unfold commitUnverified
  dsimp only
  repeat' split
  all_goals exact ⟨_, _, rfl⟩

theorem commitVerified_frame (attempt : AttemptId) (envelope : PacingEnvelope)
    (status : Status) (evidence : ReadbackEvidence) (drift : AuthorityDrift)
    (code : ErrorCode) :
    ∃ attempts storage,
      (f.commitVerified a now attempt envelope status evidence drift code).2 =
        { f with attempts := attempts, storage := storage } := by
  unfold commitVerified
  dsimp only
  repeat' split
  all_goals exact ⟨_, _, rfl⟩

theorem staleVerify_frame (id : AttemptId) (drift : AuthorityDrift) :
    ∃ attempts storage, f.staleVerify a now id drift =
      { f with attempts := attempts, storage := storage } := by
  unfold staleVerify
  split
  all_goals exact ⟨_, _, rfl⟩

theorem staleRevalidate_frame (id : AttemptId) (drift : AuthorityDrift) :
    ∃ attempts storage, f.staleRevalidate a now id drift =
      { f with attempts := attempts, storage := storage } := by
  unfold staleRevalidate
  split
  all_goals exact ⟨_, _, rfl⟩

theorem finalizeVerify_frame (id : AttemptId) (envelope : PacingEnvelope) (status : Status)
    (evidence : ReadbackEvidence) :
    ∃ attempts storage, (f.finalizeVerify a now id envelope status evidence).2 =
      { f with attempts := attempts, storage := storage } := by
  unfold finalizeVerify
  split
  all_goals exact ⟨_, _, rfl⟩

theorem noEvidence_frame (id : AttemptId) :
    ∃ attempts storage, f.noEvidence a now id =
      { f with attempts := attempts, storage := storage } := by
  unfold noEvidence
  split
  all_goals exact ⟨_, _, rfl⟩

theorem finalizeRevalidate_frame (id : AttemptId) (envelope : PacingEnvelope)
    (evidence : ReadbackEvidence) :
    ∃ attempts storage, (f.finalizeRevalidate a now id envelope evidence).2 =
      { f with attempts := attempts, storage := storage } := by
  unfold finalizeRevalidate
  split
  all_goals exact ⟨_, _, rfl⟩

theorem cancelAttempt_frame (id : AttemptId) (reason : Bytes) :
    ∃ attempts storage, (f.cancelAttempt a now id reason).2.2 =
      { f with attempts := attempts, storage := storage } := by
  unfold cancelAttempt
  dsimp only
  repeat' split
  all_goals exact ⟨_, _, rfl⟩

theorem revokeAttempt_frame (cadence : Cadence) (reason : Bytes) (todo : List Withdrawal)
    (id : AttemptId) :
    ∃ attempts storage, (revokeAttempt a now cadence reason (todo, f) id).2 =
      { f with attempts := attempts, storage := storage } := by
  unfold revokeAttempt
  dsimp only
  repeat' split
  all_goals exact ⟨_, _, rfl⟩

theorem revokeAttempts_frame (envelope : EnvelopeId) (cadence : Cadence) (reason : Bytes) :
    ∃ attempts storage, (f.revokeAttempts a now envelope cadence reason).2 =
      { f with attempts := attempts, storage := storage } := by
  unfold revokeAttempts
  refine List.foldlRecOn (f.attempts.byEnvelope envelope.value)
    (revokeAttempt a now cadence reason)
    (motive := fun acc : List Withdrawal × Fabric => ∃ attempts storage, acc.2 =
      { f with attempts := attempts, storage := storage })
    (show ∃ attempts storage, f = { f with attempts := attempts, storage := storage } from
      ⟨f.attempts, f.storage, rfl⟩) ?_
  rintro ⟨todo, g⟩ ⟨attempts, storage, hg⟩ id -
  obtain ⟨attempts', storage', h⟩ := revokeAttempt_frame g a now cadence reason todo id
  rw [h]
  dsimp only at hg
  subst hg
  exact ⟨_, _, rfl⟩

theorem revokeEnvelope_frame (ref : EnvelopeRef) (reason : Bytes) :
    ∃ envelopes attempts storage, (f.revokeEnvelope a now ref reason).2.2 =
      { f with envelopes := envelopes, attempts := attempts, storage := storage } := by
  unfold revokeEnvelope
  split
  · exact ⟨_, _, _, rfl⟩
  · split
    · exact ⟨_, _, _, rfl⟩
    · rename_i i entry _
      split
      · exact ⟨_, _, _, rfl⟩
      · split
        · obtain ⟨attempts, storage, h⟩ :=
            f.revokeAttempts_frame a now ref.id entry.envelope.cadence reason
          exact ⟨_, _, _, h⟩
        · dsimp only
          split
          · exact ⟨_, _, _, rfl⟩
          · split
            · exact ⟨_, _, _, rfl⟩
            · obtain ⟨attempts, storage, h⟩ :=
                revokeAttempts_frame _ a now ref.id entry.envelope.cadence reason
              rw [h]
              exact ⟨_, _, _, rfl⟩

theorem fenceAttempt_frame (epoch : Epoch) (detail : Bytes) (i : ℕ) :
    ∃ attempts storage, fenceAttempt a now epoch detail f i =
      { f with attempts := attempts, storage := storage } := by
  unfold fenceAttempt
  repeat' split
  all_goals exact ⟨_, _, rfl⟩

theorem fenceAttempts_frame (epoch : Epoch) (detail : Bytes) :
    ∃ attempts storage, f.fenceAttempts a now epoch detail =
      { f with attempts := attempts, storage := storage } := by
  unfold fenceAttempts
  refine List.foldlRecOn (List.range f.attempts.entries.length)
    (fenceAttempt a now epoch detail)
    (motive := fun g => ∃ attempts storage, g =
      { f with attempts := attempts, storage := storage }) ⟨f.attempts, f.storage, rfl⟩ ?_
  rintro g ⟨attempts, storage, rfl⟩ i -
  obtain ⟨attempts', storage', h⟩ :=
    fenceAttempt_frame { f with attempts := attempts, storage := storage } a now epoch detail i
  exact ⟨attempts', storage', h⟩

theorem fenceBelow_frame (epoch : Epoch) :
    ∃ envelopes attempts storage, (f.fenceBelow a now epoch).2.2 =
      { f with envelopes := envelopes, attempts := attempts, storage := storage } := by
  unfold fenceBelow
  split
  · exact ⟨_, _, _, rfl⟩
  · obtain ⟨attempts, storage, h⟩ := fenceAttempts_frame
      (f.fenceEnvelopes epoch "fenced by coordinator epoch") a now epoch
      "fenced by coordinator epoch"
    exact ⟨_, _, _, h⟩

theorem advanceEpochLocked_frame :
    ∃ epoch envelopes attempts storage, (f.advanceEpochLocked a now).2 =
      { f with
        epoch := epoch
        envelopes := envelopes
        attempts := attempts
        storage := storage } := by
  unfold advanceEpochLocked
  dsimp only
  split
  · exact ⟨_, _, _, _, rfl⟩
  · obtain ⟨attempts, storage, h⟩ := fenceAttempts_frame
      (fenceEnvelopes { f with epoch := f.epoch.advanced.1 } f.epoch.advanced.1
        "coordinator epoch advanced") a now f.epoch.advanced.1
      "coordinator epoch advanced past this attempt"
    rw [h]
    split
    all_goals exact ⟨_, _, _, _, rfl⟩

theorem advanceEpoch_frame :
    ∃ epoch envelopes attempts storage, (f.advanceEpoch a now).2 =
      { f with
        epoch := epoch
        envelopes := envelopes
        attempts := attempts
        storage := storage } := by
  unfold advanceEpoch
  split
  · exact ⟨_, _, _, _, rfl⟩
  · exact f.advanceEpochLocked_frame a now

end Fabric

/-! ### Calls -/

namespace Call

variable (f : Fabric) (a : Answers)

/-- The state after the first locked section of a call. -/
def lockedState (now : Instant) : Request → Fabric
  | .advanceEpoch => (f.advanceEpoch a now).2
  | .bindFlow binding => (f.bindFlow a now binding).2
  | .unbindFlow flow => (f.unbindFlow a now flow).2
  | .unregisterBackend id => (f.unregisterBackend id).2
  | .publishPolicy policy => (f.publishPolicy a now policy).2
  | .removePolicy id => (f.removePolicy a now id).2
  | .cancelAttempt id reason =>
    if reason.length > f.config.limits.maxExplanationBytes.toNat then f
    else (f.cancelAttempt a now id reason).2.2
  | .revokeEnvelope ref reason =>
    if !ref.id.valid then f
    else if reason.length > f.config.limits.maxExplanationBytes.toNat then f
    else (f.revokeEnvelope a now ref reason).2.2
  | .fenceBelow epoch => if !epoch.valid then f else (f.fenceBelow a now epoch).2.2
  | _ => f

theorem lockedStep_fst (now : Instant) (request : Request) :
    (lockedStep f a now request).1 = lockedState f a now request := by
  cases request <;> simp only [lockedStep, lockedState]
  case registerBackend backend => cases backend <;> rfl
  all_goals repeat' split
  all_goals simp_all

theorem fetchStep_fst (caller : Caller) (flow : FlowId) (phase : Fetch) :
    ∃ clock, (fetchStep f a caller flow phase).1 = { f with clock := clock } := by
  cases phase <;> simp only [fetchStep]
  all_goals repeat' split
  all_goals exact ⟨_, rfl⟩

/-! ### What a step may write -/

def writesEpoch : Call → Bool
  | .locked .advanceEpoch _ => true
  | _ => false

def writesBackends : Call → Bool
  | .register .. | .locked (.unregisterBackend _) _ | .clear => true
  | _ => false

def writesBindings : Call → Bool
  | .locked (.bindFlow _) _ | .locked (.unbindFlow _) _ => true
  | _ => false

def writesPolicies : Call → Bool
  | .locked (.publishPolicy _) _ | .locked (.removePolicy _) _ => true
  | _ => false

def writesEnvelopes : Call → Bool
  | .derive .. | .reserve _ => true
  | .locked .advanceEpoch _ | .locked (.revokeEnvelope ..) _ | .locked (.fenceBelow _) _ => true
  | _ => false

def writesAttempts : Call → Bool
  | .derive .. | .reserve _ | .acknowledge .. | .commitUnverified .. | .commitVerified .. => true
  | .staleCheck .. | .noEvidence _ | .finalizeCheck .. => true
  | .locked .advanceEpoch _ | .locked (.cancelAttempt ..) _ => true
  | .locked (.revokeEnvelope ..) _ | .locked (.fenceBelow _) _ => true
  | _ => false

def mintsEnvelope : Call → Bool
  | .derive .. => true
  | _ => false

def mintsAttempt : Call → Bool
  | .reserve _ => true
  | _ => false

def writesStorage : Call → Bool
  | .locked .. | .register .. | .detach => true
  | k => k.writesAttempts

/-- The steps that take and release the operation guard. -/
def guards : Call → Bool
  | .enter _ | .leave _ => true
  | _ => false

/-- `f'` differs from `f` at most in what a step of `k` writes. -/
structure Frame (f f' : Fabric) (k : Call) : Prop where
  config : f'.config = f.config
  boot : f'.boot = f.boot
  recovery : f'.recovery = f.recovery
  epoch : k.writesEpoch = false → f'.epoch = f.epoch
  backends : k.writesBackends = false → f'.backends = f.backends
  bindings : k.writesBindings = false → f'.bindings = f.bindings
  policies : k.writesPolicies = false → f'.policies = f.policies
  envelopes : k.writesEnvelopes = false → f'.envelopes = f.envelopes
  attempts : k.writesAttempts = false → f'.attempts = f.attempts
  envelopeIds : k.mintsEnvelope = false → f'.envelopeIds = f.envelopeIds
  attemptIds : k.mintsAttempt = false → f'.attemptIds = f.attemptIds
  storage : k.writesStorage = false → f'.storage = f.storage
  initialized : k ≠ .detach → f'.initialized = f.initialized
  running : f'.running = true → f.running = true
  guarded : k.guards = false → f'.activeOperations = f.activeOperations

private theorem lockedState_frame (now : Instant) (request : Request) :
    Frame f (lockedState f a now request) (.locked request now) := by
  cases request with
  | advanceEpoch =>
    obtain ⟨_, _, _, _, h⟩ := f.advanceEpoch_frame a now
    rw [lockedState, h]
    constructor <;> simp [writesEpoch, writesEnvelopes, writesAttempts, writesStorage]
  | bindFlow binding =>
    obtain ⟨_, _, h⟩ := f.bindFlow_frame a now binding
    rw [lockedState, h]
    constructor <;> simp [writesBindings, writesStorage]
  | unbindFlow flow =>
    obtain ⟨_, _, h⟩ := f.unbindFlow_frame a now flow
    rw [lockedState, h]
    constructor <;> simp [writesBindings, writesStorage]
  | unregisterBackend id =>
    obtain ⟨_, h⟩ := f.unregisterBackend_frame id
    rw [lockedState, h]
    constructor <;> simp [writesBackends]
  | publishPolicy policy =>
    obtain ⟨_, _, h⟩ := f.publishPolicy_frame a now policy
    rw [lockedState, h]
    constructor <;> simp [writesPolicies, writesStorage]
  | removePolicy id =>
    obtain ⟨_, _, h⟩ := f.removePolicy_frame a now id
    rw [lockedState, h]
    constructor <;> simp [writesPolicies, writesStorage]
  | cancelAttempt id reason =>
    obtain ⟨_, _, h⟩ := f.cancelAttempt_frame a now id reason
    rw [lockedState, h]
    split_ifs <;> constructor <;> simp [writesAttempts, writesStorage]
  | revokeEnvelope ref reason =>
    obtain ⟨_, _, _, h⟩ := f.revokeEnvelope_frame a now ref reason
    rw [lockedState, h]
    split_ifs <;> constructor <;> simp [writesEnvelopes, writesAttempts, writesStorage]
  | fenceBelow epoch =>
    obtain ⟨_, _, _, h⟩ := f.fenceBelow_frame a now epoch
    rw [lockedState, h]
    split_ifs <;> constructor <;> simp [writesEnvelopes, writesAttempts, writesStorage]
  | _ => constructor <;> simp [lockedState]

theorem step_reserve_fst (p : Applying) :
    (step f a (.reserve p)).1 = (f.reserveAttempt a p.now p.ref p.backendId p.requested
      p.envelope p.backend).2 := by
  simp only [step]
  generalize f.reserveAttempt a p.now p.ref p.backendId p.requested p.envelope p.backend = out
  obtain ⟨_ | _ | _, _⟩ := out <;> rfl

theorem step_acknowledge_fst (i : Installing) (status : Status) (ack : ApplyAck) :
    (step f a (.acknowledge i status ack)).1 =
      (f.acknowledgeAttempt a i.now i.request.attempt status ack).2 := by
  simp only [step]
  generalize f.acknowledgeAttempt a i.now i.request.attempt status ack = out
  obtain ⟨_ | _ | _ | _, _⟩ := out <;> rfl

/-- Every step stays within its frame. -/
theorem step_frame (k : Call) : Frame f (step f a k).1 k := by
  cases k with
  | locked request now =>
    rw [show (step f a (.locked request now)).1 = lockedState f a now request from
      lockedStep_fst f a now request]
    exact lockedState_frame f a now request
  | fetch caller flow phase =>
    obtain ⟨_, h⟩ := fetchStep_fst f a caller flow phase
    rw [show (step f a (.fetch caller flow phase)).1 = (fetchStep f a caller flow phase).1
      from rfl, h]
    constructor <;> simp
  | register now backend desc =>
    obtain ⟨_, _, h⟩ := f.registerBackend_frame a now backend desc
    rw [show (step f a (.register now backend desc)).1 =
      (f.registerBackend a now backend desc).2 from rfl, h]
    constructor <;> simp [writesBackends, writesStorage]
  | derive inputs now =>
    obtain ⟨_, _, _, _, _, h, _⟩ := f.deriveEnvelope_frame a now inputs
    rw [show (step f a (.derive inputs now)).1 = (f.deriveEnvelope a inputs now).2 from rfl, h]
    constructor <;>
      simp [writesEnvelopes, writesAttempts, mintsEnvelope, writesStorage]
  | reserve p =>
    obtain ⟨_, _, _, _, h⟩ :=
      f.reserveAttempt_frame a p.now p.ref p.backendId p.requested p.envelope p.backend
    rw [step_reserve_fst, h]
    constructor <;> simp [writesEnvelopes, writesAttempts, mintsAttempt, writesStorage]
  | acknowledge i status ack =>
    obtain ⟨_, _, h⟩ := f.acknowledgeAttempt_frame a i.now i.request.attempt status ack
    rw [step_acknowledge_fst, h]
    constructor <;> simp [writesAttempts, writesStorage]
  | commitUnverified i current =>
    obtain ⟨_, _, h⟩ := f.commitUnverified_frame a i.now i.request.attempt
      (driftAfter i.envelope.authority current).1 (driftAfter i.envelope.authority current).2
    rw [show (step f a (.commitUnverified i current)).1 = (f.commitUnverified a i.now
      i.request.attempt (driftAfter i.envelope.authority current).1
      (driftAfter i.envelope.authority current).2).2 from rfl, h]
    constructor <;> simp [writesAttempts, writesStorage]
  | commitVerified i status evidence current =>
    obtain ⟨_, _, h⟩ := f.commitVerified_frame a i.now i.request.attempt i.envelope status
      evidence (driftAfter i.envelope.authority current).1
      (driftAfter i.envelope.authority current).2
    rw [show (step f a (.commitVerified i status evidence current)).1 = (f.commitVerified a
      i.now i.request.attempt i.envelope status evidence
      (driftAfter i.envelope.authority current).1
      (driftAfter i.envelope.authority current).2).2 from rfl, h]
    constructor <;> simp [writesAttempts, writesStorage]
  | staleCheck c drift =>
    cases hk : c.kind with
    | verify =>
      obtain ⟨_, _, h⟩ := f.staleVerify_frame a c.now c.id drift
      rw [show (step f a (.staleCheck c drift)).1 = f.staleVerify a c.now c.id drift by
        simp [step, hk], h]
      constructor <;> simp [writesAttempts, writesStorage]
    | revalidate =>
      obtain ⟨_, _, h⟩ := f.staleRevalidate_frame a c.now c.id drift
      rw [show (step f a (.staleCheck c drift)).1 = f.staleRevalidate a c.now c.id drift by
        simp [step, hk], h]
      constructor <;> simp [writesAttempts, writesStorage]
  | noEvidence c =>
    obtain ⟨_, _, h⟩ := f.noEvidence_frame a c.now c.id
    rw [show (step f a (.noEvidence c)).1 = f.noEvidence a c.now c.id from rfl, h]
    constructor <;> simp [writesAttempts, writesStorage]
  | finalizeCheck c status evidence current =>
    cases hk : c.kind with
    | verify =>
      obtain ⟨_, _, h⟩ := f.finalizeVerify_frame a c.now c.id c.envelope status evidence
      rw [show (step f a (.finalizeCheck c status evidence current)).1 =
        (f.finalizeVerify a c.now c.id c.envelope status evidence).2 by simp [step, hk], h]
      constructor <;> simp [writesAttempts, writesStorage]
    | revalidate =>
      obtain ⟨_, _, h⟩ := f.finalizeRevalidate_frame a c.now c.id c.envelope evidence
      rw [show (step f a (.finalizeCheck c status evidence current)).1 =
        (f.finalizeRevalidate a c.now c.id c.envelope evidence).2 by simp [step, hk], h]
      constructor <;> simp [writesAttempts, writesStorage]
  | enter request =>
    constructor <;> cases request <;> simp [step, guards]
  | stop =>
    simp only [step]
    split <;> constructor <;> simp
  | _ => constructor <;> simp [step, Fabric.sample, writesStorage, writesBackends, guards]

end Call

end Pacing
