import PacingFabric.Model.Fabric

/-!
# The critical sections of the coordinator

Each public operation takes the state lock once or several times, and calls the backend or
the rate authority in between. This module holds the locked sections, one definition for
each, as functions of the guarded state; the order in which an operation runs them is the
subject of `PacingFabric.Model.Call`.

Counters of `stats_` and the events are left out: nothing reads them back.
-/

namespace Pacing

/-- What a public operation returns. -/
inductive Reply
  | status (status : Status)
  | envelope (result : StatusOr PacingEnvelope)
  | attempt (result : StatusOr AttemptId)
  | policy (result : StatusOr PolicyRef)

/-- A withdrawal a section asks for once the lock is released. -/
abbrev Withdrawal := BackendPtr × ApplyRequest

/-- Authority inputs captured from a lock-free fetch phase. -/
structure AuthorityInputs where
  binding : FlowBinding := {}
  policy : PacingPolicy := {}
  grant : RateGrant := {}
  vector : AuthorityVector := {}
  deriving DecidableEq, Repr

def notRunning : Status := .of .invalidState "fabric is not running"

namespace Fabric

/-! ### Bindings, backends and policy -/

def bindFlow (f : Fabric) (a : Answers) (now : Instant) (binding : FlowBinding) :
    Status × Fabric :=
  if !f.running then (notRunning, f)
  else
    let (status, bindings) := BindingRegistry.bind f.config.limits f.bindings binding
    let f := { f with bindings := bindings }
    if !status.isOk then (status, f)
    else
      match bindings.get binding.flow with
      | .error status => (status, f)
      | .ok stored =>
        match (encodeBinding ⟨1024, [], none⟩ stored).finish with
        | .error status => (status, f)
        | .ok payload => f.journalRecord a .flowBinding payload now.ns

def unbindFlow (f : Fabric) (a : Answers) (now : Instant) (flow : FlowId) : Status × Fabric :=
  if !f.running then (notRunning, f)
  else
    let (status, bindings) := BindingRegistry.unbind f.bindings flow
    let f := { f with bindings := bindings }
    if !status.isOk then (status, f)
    else
      match (encodeIdentityU64 ⟨64, [], none⟩ flow.value).finish with
      | .error status => (status, f)
      | .ok payload => f.journalRecord a .flowUnbound payload now.ns

/-- The checks `register_backend` runs on the descriptor before it takes the lock. -/
def checkDescriptor (limits : Limits) (desc : BackendDescriptor) : Status :=
  if !desc.usable then .of .invalidArgument "backend descriptor is incomplete"
  else if desc.name.length > limits.maxNameBytes.toNat then
    .of .oversized "backend name above configured bound"
  else .success

def registerBackend (f : Fabric) (a : Answers) (now : Instant) (backend : BackendPtr)
    (desc : BackendDescriptor) : Status × Fabric :=
  if !f.running then (notRunning, f)
  else
    let existing := f.backends.findIdx? (·.1 == desc.ref.id)
    if existing.isNone && decide (f.backends.length ≥ f.config.limits.maxBackends.toNat) then
      (.of .resourceExhausted "backend registry is full", f)
    else
      let f := { f with backends :=
        match existing with
        | some i => f.backends.set i (desc.ref.id, backend)
        | none => f.backends ++ [(desc.ref.id, backend)] }
      match (encodeBackendDescriptor ⟨1024, [], none⟩ desc).finish with
      | .error status => (status, f)
      | .ok payload => f.journalRecord a .backendRegistration payload now.ns

def unregisterBackend (f : Fabric) (id : BackendId) : Status × Fabric :=
  match f.backends.findIdx? (·.1 == id) with
  | none => (.of .notFound "backend is not registered", f)
  | some i => (.success, { f with backends := f.backends.eraseIdx i })

def publishPolicy (f : Fabric) (a : Answers) (now : Instant) (policy : PacingPolicy) :
    StatusOr PolicyRef × Fabric :=
  if !f.running then (.error notRunning, f)
  else
    let policy := if policy.publishedAt.ns == 0 then { policy with publishedAt := now } else policy
    let (published, policies) := PolicyStore.publish f.config.limits f.policies policy
    let f := { f with policies := policies }
    match published with
    | .error status => (.error status, f)
    | .ok ref =>
      match policies.get ref.id with
      | .error status => (.error status, f)
      | .ok stored =>
        match (encodePolicy ⟨encodeCapacityBytes, [], none⟩ stored).finish with
        | .error status => (.error status, f)
        | .ok payload =>
          let (status, f) := f.journalRecord a .policy payload now.ns
          (if status.isOk then .ok ref else .error status, f)

def removePolicy (f : Fabric) (a : Answers) (now : Instant) (id : PolicyId) : Status × Fabric :=
  if !f.running then (notRunning, f)
  else
    let (status, policies) := PolicyStore.remove f.policies id
    let f := { f with policies := policies }
    if !status.isOk then (status, f)
    else
      match (encodeIdentityU64 ⟨64, [], none⟩ id.value).finish with
      | .error status => (status, f)
      | .ok payload => f.journalRecord a .policyRemoved payload now.ns

/-! ### Fetching authority -/

/-- The first locked section of `fetch_authority`. -/
def lookupAuthority (f : Fabric) (flow : FlowId) : StatusOr (FlowBinding × PacingPolicy) :=
  match BindingRegistry.get f.bindings flow with
  | .error status => .error status
  | .ok binding =>
    if !binding.usable then
      .error (.of .unknownAuthority "flow binding is quiesced or not usable")
    else
      match PolicyStore.resolve f.policies flow binding.resource.id with
      | .error status => .error status
      | .ok policy =>
        if policy.path ≠ binding.path then
          .error (.of .stalePath
            "policy path generation differs from the binding path generation")
        else .ok (binding, policy)

/-- What `fetch_authority` makes of the answer of the rate authority. -/
def checkGrant (fetched : StatusOr RateGrant) : StatusOr RateGrant :=
  match fetched with
  | .error status => .error status
  | .ok grant =>
    if !grant.usable then
      .error (.of .unknownAuthority
        "upstream rate authority is absent, zero or not authoritative")
    else .ok grant

/-- The second locked section of `fetch_authority`, which stamps epoch and boot. -/
def stampAuthority (f : Fabric) (flow : FlowId) (binding : FlowBinding) (policy : PacingPolicy)
    (grant : RateGrant) : StatusOr AuthorityInputs :=
  let vector : AuthorityVector := {
    flow := ⟨flow, binding.generation⟩
    resource := binding.resource
    policy := policy.ref
    rateGrant := grant.ref
    path := binding.path
    epoch := f.epoch
    coordinatorBoot := f.boot }
  if !vector.complete then
    .error (.of .unknownAuthority "authority vector is incomplete")
  else .ok { binding, policy, grant, vector }

/-! ### Derivation -/

/-- The derivation input a binding, a policy and a grant amount to. An exception of the
service class can only raise the floor and the burst allowance. -/
def derivationInput (inputs : AuthorityInputs) : DerivationInput :=
  let base : DerivationInput := {
    requestedRateBps := inputs.policy.rateBps
    rateSharePpm := inputs.policy.rateSharePpm
    minRateBps := inputs.policy.minRateBps
    ceilingBps := inputs.grant.ceilingBps
    floorBps := inputs.grant.floorBps
    quantumBytes := inputs.policy.quantumBytes
    windowNs := inputs.policy.windowNs
    burstBytes := inputs.policy.burstBytes
    burstPackets := inputs.policy.burstPackets
    flowMaxBurstBytes := inputs.binding.declaredMaxBurstBytes
    flowMaxBurstPackets := inputs.binding.declaredMaxBurstPackets
    shape := inputs.policy.shape
    grantsPerWindowHint := inputs.policy.grantsPerWindowHint }
  match inputs.policy.findException inputs.binding.serviceClass with
  | none => base
  | some ex => { base with
      minRateBps := if ex.minRateBps > base.minRateBps then ex.minRateBps else base.minRateBps
      rateSharePpm := if ex.rateSharePpm != 0 then ex.rateSharePpm else base.rateSharePpm
      burstBytes := if ex.burstBytes > base.burstBytes then ex.burstBytes else base.burstBytes
      burstPackets :=
        if ex.burstPackets > base.burstPackets then ex.burstPackets else base.burstPackets }

/-- The configured envelope lifetime, capped by the configured bound. -/
def envelopeLifetime (config : FabricConfig) : UInt64 :=
  if config.envelopeLifetimeNs > config.limits.maxEnvelopeLifetimeNs then
    config.limits.maxEnvelopeLifetimeNs
  else config.envelopeLifetimeNs

/-- The expiry bounded by the grant; `latest` is the end of the configured lifetime. -/
def expiryWithin (grant : RateGrant) (now : Instant) (latest : Option UInt64) :
    StatusOr UInt64 :=
  match latest with
  | none => .error (.of .arithmeticOverflow "envelope expiry computation overflowed")
  | some expiry =>
    let expiry :=
      if grant.validUntil.set && decide (grant.validUntil.instant.ns < expiry) then
        grant.validUntil.instant.ns
      else expiry
    if expiry ≤ now.ns then
      .error (.of .staleRateGrant
        "upstream rate grant expires before any envelope could be valid")
    else .ok expiry

/-- The expiry of a derived envelope: bounded by the configured lifetime and the grant. -/
def expiryNs (config : FabricConfig) (grant : RateGrant) (now : Instant) : StatusOr UInt64 :=
  expiryWithin grant now (Checked.add now.ns (envelopeLifetime config))

/-- `cadence_digest`. -/
def cadenceDigest (c : Cadence) : UInt64 :=
  ({} : Digest64)
    |>.mixU64 c.rateBps
    |>.mixU64 c.quantumBytes
    |>.mixU64 c.intervalNs
    |>.mixU64 c.windowNs
    |>.mixU64 c.grantsPerWindow
    |>.mixU64 c.bytesPerWindow
    |>.mixU64 c.burstBytes
    |>.mixU64 c.burstPackets
    |>.mixU64 c.shape.toByte.toUInt64
    |>.value

/-- The envelope `derive_envelope_internal` assembles, under the two identities it minted. -/
def assembleEnvelope (config : FabricConfig) (inputs : AuthorityInputs)
    (outcome : DerivationOutcome) (now : Instant) (expiry : UInt64) (synthetic : Bool)
    (envelopeId provenanceId : UInt64) : PacingEnvelope where
  ref := ⟨⟨envelopeId⟩, .first⟩
  flow := inputs.binding.flow
  resource := inputs.binding.resource.id
  authority := inputs.vector
  cadence := outcome.cadence
  requestedRateBps := outcome.requestedRateBps
  ceilingBps := inputs.grant.ceilingBps
  floorBps := inputs.grant.floorBps
  clampedToCeiling := outcome.clampedToCeiling
  clampedToFloor := outcome.clampedToFloor
  serviceClass := inputs.binding.serviceClass
  derivedAt := now
  validUntil := .at_ ⟨expiry⟩
  upstreamSynthetic := synthetic
  policySynthetic := !inputs.policy.provenance.valid
  provenance := {
    id := ⟨provenanceId⟩
    sequence := envelopeId
    fabricInstance := config.fabricInstance
    bindingDigest := inputs.binding.digest
    policyDigest := inputs.policy.digest
    grantDigest := inputs.grant.digest
    cadenceDigest := cadenceDigest outcome.cadence }

/-- The table part of a derivation: eviction, the capacity test, and the insertion. -/
def admitEnvelope (f : Fabric) (envelope : PacingEnvelope) : StatusOr PacingEnvelope × Fabric :=
  let f := f.evictAndCompact
  if f.envelopes.entries.length ≥ f.config.limits.maxEnvelopes.toNat then
    (.error (.of .resourceExhausted
      "envelope table is at capacity and nothing is evictable"), f)
  else (.ok envelope, { f with envelopes := f.envelopes.insert envelope })

/-- The end of a derivation: the envelope is journaled before the table admits it. -/
def issueEnvelope (f : Fabric) (a : Answers) (now : Instant) (envelope : PacingEnvelope) :
    StatusOr PacingEnvelope × Fabric :=
  match encodeEnvelopePayload envelope with
  | .error status => (.error status, f)
  | .ok payload =>
    let (durable, f) := f.journalRecord a .envelope payload now.ns
    if !durable.isOk then (.error durable, f) else f.admitEnvelope envelope

def deriveEnvelopeInternal (f : Fabric) (a : Answers) (inputs : AuthorityInputs)
    (now : Instant) : StatusOr PacingEnvelope × Fabric :=
  match deriveCadence (derivationInput inputs) f.config.limits with
  | .error status => (.error status, f)
  | .ok outcome =>
    match expiryNs f.config inputs.grant now with
    | .error status => (.error status, f)
    | .ok expiry =>
      let envelopeId := f.envelopeIds.next
      let provenanceId := f.provenanceIds.next
      let minted := { f with envelopeIds := envelopeId.2, provenanceIds := provenanceId.2 }
      minted.issueEnvelope a now (assembleEnvelope f.config inputs outcome now expiry
        a.synthetic envelopeId.1 provenanceId.1)

/-- The last section of `derive_envelope`. -/
def deriveEnvelope (f : Fabric) (a : Answers) (inputs : AuthorityInputs) (now : Instant) :
    StatusOr PacingEnvelope × Fabric :=
  if !f.running then (.error notRunning, f) else f.deriveEnvelopeInternal a inputs now

/-! ### Application -/

/-- Phase A of `apply_envelope`: the envelope and the backend it will use. -/
def resolveApply (f : Fabric) (now : Instant) (ref : EnvelopeRef) (backendId : BackendId) :
    StatusOr (PacingEnvelope × BackendPtr) :=
  if !f.running then .error notRunning
  else
    match f.envelopes.find ref.id with
    | none => .error (.of .notFound "envelope not found")
    | some (_, entry) =>
      if entry.envelope.ref.generation ≠ ref.generation then
        .error (.of .staleGeneration "envelope generation does not match the ledger")
      else if entry.revoked then .error (.of .revoked "envelope has been revoked")
      else if entry.envelope.expiredAt now then
        .error (.of .staleGeneration "envelope lifetime has expired")
      else
        match f.backendPtr backendId with
        | none => .error (.of .notFound "backend is not registered")
        | some backend => .ok (entry.envelope, backend)

/-- How phase C of `apply_envelope` ends. -/
inductive Reservation
  | refused (status : Status)
  | duplicate (attempt : AttemptId)
  | reserved (request : ApplyRequest)
  deriving DecidableEq, Repr

/-- The tests of phase C that precede the capacity tests. -/
def findDuplicate (f : Fabric) (ref : EnvelopeRef) (backendId : BackendId)
    (requested : AttemptId) : Option Reservation :=
  match f.attempts.findExisting ref backendId with
  | some existing => some (.duplicate existing.attempt)
  | none =>
    if requested.valid then
      match f.attempts.find requested with
      | some (_, prior) =>
        if prior.record.envelope ≠ ref ∨ prior.record.backend.id ≠ backendId then
          some (.refused (.of .duplicate "attempt id is already bound to different work"))
        else some (.duplicate prior.record.attempt)
      | none => none
    else none

/-- The worker stamp of every request and record of this incarnation. -/
def worker (f : Fabric) : WorkerBoot := ⟨f.config.fabricInstance, f.boot.nonce⟩

/-- The record of a fresh reservation. -/
def reservedRecord (f : Fabric) (now : Instant) (attempt : AttemptId) (ref : EnvelopeRef)
    (envelope : PacingEnvelope) (desc : BackendDescriptor) : ApplicationRecord where
  attempt := attempt
  envelope := ref
  flow := envelope.flow
  resource := envelope.resource
  authority := envelope.authority
  desired := envelope.cadence
  state := .reserved
  backend := desc.ref
  backendSynthetic := desc.nature == .synthetic
  worker := f.worker
  revision := 1
  createdNs := now.ns
  updatedNs := now.ns

/-- The request handed to the backend for a reserved attempt. -/
def applyRequest (f : Fabric) (now : Instant) (attempt : AttemptId) (ref : EnvelopeRef)
    (envelope : PacingEnvelope) : ApplyRequest where
  attempt := attempt
  envelope := ref
  flow := envelope.flow
  authority := envelope.authority
  cadence := envelope.cadence
  worker := f.worker
  issuedAtNs := now.ns
  deadlineNs := envelope.validUntil.nsOrZero

/-- The insertion that ends phase C: durable first, then visible as submitted. -/
def insertAttempt (f : Fabric) (a : Answers) (now : Instant) (record : ApplicationRecord)
    (request : ApplyRequest) : Reservation × Fabric :=
  match encodeAttemptPayload record with
  | .error status => (.refused status, f)
  | .ok payload =>
    let (durable, f) := f.journalRecord a .attempt payload now.ns
    if !durable.isOk then (.refused durable, f)
    else
      let attempts := f.attempts.insert { record with state := .submitted }
      (.reserved request,
        { f with attempts := { attempts with pending := attempts.pending + 1 } })

/-- The identity of a fresh attempt, the one requested or a minted one, and the minter after
it. -/
def attemptIdentity (f : Fabric) (requested : AttemptId) : AttemptId × IdMinter :=
  if requested.valid then (requested, f.attemptIds)
  else (⟨f.attemptIds.next.1⟩, f.attemptIds.next.2)

/-- Phase C of `apply_envelope` from the choice of the identity on. -/
def reserveFresh (f : Fabric) (a : Answers) (now : Instant) (ref : EnvelopeRef)
    (requested : AttemptId) (envelope : PacingEnvelope) (backend : BackendPtr) :
    Reservation × Fabric :=
  let attempt := (f.attemptIdentity requested).1
  let minter := (f.attemptIdentity requested).2
  if (f.attempts.find attempt).isSome then
    (.refused (.of .alreadyExists "attempt id already exists"), { f with attemptIds := minter })
  else
    insertAttempt { f with attemptIds := minter.setFloor attempt.value } a now
      (f.reservedRecord now attempt ref envelope (a.describe backend))
      (f.applyRequest now attempt ref envelope)

/-- Phase C of `apply_envelope`. -/
def reserveAttempt (f : Fabric) (a : Answers) (now : Instant) (ref : EnvelopeRef)
    (backendId : BackendId) (requested : AttemptId) (envelope : PacingEnvelope)
    (backend : BackendPtr) : Reservation × Fabric :=
  if !f.running then (.refused notRunning, f)
  else
    match f.envelopes.find ref.id with
    | none => (.refused (.of .notFound "envelope not found"), f)
    | some (_, entry) =>
      if entry.revoked then (.refused (.of .revoked "envelope has been revoked"), f)
      else
        match f.findDuplicate ref backendId requested with
        | some reservation => (reservation, f)
        | none =>
          if f.attempts.pending ≥ f.config.maxPendingAttempts then
            (.refused (.of .resourceExhausted "pending attempt bound reached"), f)
          else
            let f := f.evictAndCompact
            if f.attempts.entries.length ≥ f.config.limits.maxAttempts.toNat then
              (.refused (.of .resourceExhausted "attempt ledger is at capacity"), f)
            else f.reserveFresh a now ref requested envelope backend

/-- How phase D of `apply_envelope` ends. -/
inductive Acknowledgement
  | vanished
  | closedEarly (code : ErrorCode)
  | ended
  | acknowledged
  deriving DecidableEq, Repr

/-- Phase D of `apply_envelope`, once the backend has answered. An attempt that is no longer
`Submitted` was taken over while the backend worked. -/
def acknowledgeAttempt (f : Fabric) (a : Answers) (now : Instant) (attempt : AttemptId)
    (status : Status) (ack : ApplyAck) : Acknowledgement × Fabric :=
  match f.attempts.find attempt with
  | none => (.vanished, f)
  | some (i, entry) =>
    let commit := fun record => f.commitRecord a i entry record now
    if entry.record.state ≠ .submitted then
      (.closedEarly
        (if entry.record.reason = .ok then .cancelled else entry.record.reason), f)
    else if (f.backendPtr entry.record.backend.id).isNone then
      (.closedEarly .backendUnavailable,
        commit (entry.record.transition .failed now .backendUnavailable
          "backend was unregistered while the attempt was in flight"))
    else if !status.isOk then
      (.ended, commit (entry.record.transition .failed now status.code status.detail))
    else if !ack.accepted then
      (.ended, commit (entry.record.transition .failed now .backendRejected ack.detail))
    else if ack.attempt ≠ attempt then
      (.ended, commit (entry.record.transition .failed now .backendFailure
        "backend acknowledged a different attempt identity"))
    else
      (.acknowledged,
        commit ({ entry.record with backendSeq := ack.backendSeq }.transition .acknowledged now
          .ok ack.detail))

/-- What a section leaves to do: a withdrawal with its reason, and the reply. -/
structure Aftermath where
  withdraw : Option Bytes := none
  reply : Reply

/-- The last section of `apply_envelope` for a backend without readback. -/
def commitUnverified (f : Fabric) (a : Answers) (now : Instant) (attempt : AttemptId)
    (drift : AuthorityDrift) (driftCode : ErrorCode) : Aftermath × Fabric :=
  match f.attempts.find attempt with
  | none =>
    ({ reply := .attempt (.error (.of .internal "attempt vanished during readback")) }, f)
  | some (i, entry) =>
    let done : Reply := .attempt (.ok attempt)
    if entry.record.state ≠ .acknowledged then ({ reply := done }, f)
    else if drift ≠ .none then
      ({ withdraw := some "authority drifted during apply", reply := done },
        f.commitRecord a i entry (entry.record.transition .stale now driftCode
          "authority drifted while the attempt was being applied") now)
    else
      ({ reply := done },
        f.commitRecord a i entry
          { entry.record.transition .appliedUnverified now .readbackUnavailable
              "backend does not support readback; effect is UNKNOWN" with
            evidenceKind := .none } now)

/-- The last section of `apply_envelope` for a backend with readback. -/
def commitVerified (f : Fabric) (a : Answers) (now : Instant) (attempt : AttemptId)
    (envelope : PacingEnvelope) (status : Status) (evidence : ReadbackEvidence)
    (drift : AuthorityDrift) (driftCode : ErrorCode) : Aftermath × Fabric :=
  match f.attempts.find attempt with
  | none =>
    ({ reply := .attempt (.error (.of .internal "attempt vanished during readback")) }, f)
  | some (i, entry) =>
    let commit := fun record => f.commitRecord a i entry record now
    if entry.record.state ≠ .acknowledged then
      ({ withdraw := some "late readback discarded"
         reply := .attempt (.error
          (.of .cancelled "attempt was closed before readback completed")) }, f)
    else if (f.backendPtr entry.record.backend.id).isNone then
      ({ withdraw := some "backend unregistered during apply"
         reply := .attempt (.error (.of .backendUnavailable
          "backend was unregistered while the attempt was in flight")) },
        commit (entry.record.transition .stale now .backendUnavailable
          "backend was unregistered while the attempt was in flight"))
    else if drift ≠ .none then
      ({ withdraw := some "authority drifted during apply"
         reply := .attempt (.error (.of driftCode
          "authority drifted during apply; the completion was not committed")) },
        commit (entry.record.transition .stale now driftCode
          "authority drifted while the attempt was being applied"))
    else
      let record := entry.record.finalizeEvidence envelope.cadence evidence
        (evidence.trusted status) (evidence.refusal status) now
      let unsafeEffect := record.state = .mismatched ∧
        evidence.observedRateBps > envelope.cadence.rateBps
      ({ withdraw :=
          if unsafeEffect then some "readback exceeded the authorized ceiling" else none
         reply := .attempt (.ok attempt) },
        commit record)

/-! ### Verification and revalidation -/

/-- The first section of `verify_attempt`. -/
def openVerify (f : Fabric) (id : AttemptId) :
    StatusOr (ApplicationRecord × PacingEnvelope × BackendPtr) :=
  if !f.running then .error notRunning
  else
    match f.attempts.find id with
    | none => .error (.of .notFound "attempt not found")
    | some (_, entry) =>
      match entry.record.state with
      | .cancelled => .error (.of .cancelled "attempt was cancelled")
      | .revoked => .error (.of .revoked "attempt was revoked")
      | .fenced => .error (.of .fenced "attempt was fenced")
      | .stale => .error (.of .staleGeneration "attempt was invalidated by authority drift")
      | _ =>
        match f.envelopes.find entry.record.envelope.id with
        | none => .error (.of .notFound "envelope not found")
        | some (_, envelope) =>
          match f.backendPtr entry.record.backend.id with
          | none => .error (.of .backendUnavailable "backend is not registered")
          | some backend => .ok (entry.record, envelope.envelope, backend)

/-- The first section of `revalidate`; the backend may be absent. -/
def openRevalidate (f : Fabric) (id : AttemptId) :
    StatusOr (ApplicationRecord × PacingEnvelope × Option BackendPtr) :=
  if !f.running then .error notRunning
  else
    match f.attempts.find id with
    | none => .error (.of .notFound "attempt not found")
    | some (_, entry) =>
      match entry.record.state with
      | .cancelled | .revoked | .fenced | .failed =>
        .error (.of .invalidState "attempt is closed; it cannot be revalidated")
      | _ =>
        match f.envelopes.find entry.record.envelope.id with
        | none => .error (.of .requiresRevalidation
            "governing envelope is no longer present; derive and re-apply")
        | some (_, envelope) =>
          .ok (entry.record, envelope.envelope, f.backendPtr entry.record.backend.id)

/-- The detail a drift leaves in the record. -/
def driftDetail (drift : AuthorityDrift) : Bytes := Bytes.ofString "authority drift: " ++ drift.text

/-- The drift section of `verify_attempt`. -/
def staleVerify (f : Fabric) (a : Answers) (now : Instant) (id : AttemptId)
    (drift : AuthorityDrift) : Fabric :=
  match f.attempts.find id with
  | none => f
  | some (i, entry) =>
    f.commitRecord a i entry
      (entry.record.transition .stale now drift.code (driftDetail drift)) now

/-- The drift section of `revalidate`, which also sets the flag. -/
def staleRevalidate (f : Fabric) (a : Answers) (now : Instant) (id : AttemptId)
    (drift : AuthorityDrift) : Fabric :=
  match f.attempts.find id with
  | none => f
  | some (i, entry) =>
    f.commitRecord a i entry
      { entry.record.transition .stale now drift.code (driftDetail drift) with
        requiresRevalidation := true } now

/-- The last section of `verify_attempt`. -/
def finalizeVerify (f : Fabric) (a : Answers) (now : Instant) (id : AttemptId)
    (envelope : PacingEnvelope) (status : Status) (evidence : ReadbackEvidence) :
    Status × Fabric :=
  match f.attempts.find id with
  | none => (.of .notFound "attempt not found", f)
  | some (i, entry) =>
    (.success, f.commitRecord a i entry
      (entry.record.finalizeEvidence envelope.cadence evidence (evidence.trusted status)
        (evidence.refusal status) now) now)

/-- The section of `revalidate` for evidence that is not positive. -/
def noEvidence (f : Fabric) (a : Answers) (now : Instant) (id : AttemptId) : Fabric :=
  match f.attempts.find id with
  | none => f
  | some (i, entry) =>
    let record := { entry.record with requiresRevalidation := true }
    f.commitRecord a i entry
      (if !entry.record.state.isTerminal then
        record.transition .requiresRevalidation now .requiresRevalidation
          "revalidation could not obtain positive backend evidence"
      else record) now

/-- The finalizing section of `revalidate`. -/
def finalizeRevalidate (f : Fabric) (a : Answers) (now : Instant) (id : AttemptId)
    (envelope : PacingEnvelope) (evidence : ReadbackEvidence) : Status × Fabric :=
  match f.attempts.find id with
  | none => (.of .notFound "attempt not found", f)
  | some (i, entry) =>
    (.success, f.commitRecord a i entry
      (entry.record.revalidated envelope.cadence evidence now) now)

/-- The report section of `revalidate`. -/
def reportRevalidate (f : Fabric) (id : AttemptId) : Status :=
  match f.attempts.find id with
  | none => .of .notFound "attempt not found"
  | some (_, entry) =>
    if entry.record.state ≠ .applied then
      .of .requiresRevalidation "readback did not confirm a matching effect"
    else .success

/-! ### Closing attempts -/

/-- The record `cancel_attempt` writes: an effect is revoked, anything else cancelled. -/
def cancelledRecord (record : ApplicationRecord) (now : Instant) (reason : Bytes) :
    ApplicationRecord :=
  if record.state.mayHoldEffect then
    record.transition .revoked now .revoked
      (if reason.isEmpty then "revoked by operator" else reason)
  else
    record.transition .cancelled now .cancelled
      (if reason.isEmpty then "cancelled by operator" else reason)

/-- The section of `cancel_attempt`, with the withdrawal it asks for. `Unknown` is the one
unsettled state that asks for none. -/
def cancelAttempt (f : Fabric) (a : Answers) (now : Instant) (id : AttemptId) (reason : Bytes) :
    Status × List Withdrawal × Fabric :=
  if !f.running then (notRunning, [], f)
  else
    match f.attempts.find id with
    | none => (.of .notFound "attempt not found", [], f)
    | some (i, entry) =>
      if entry.record.state.isSettled then (.success, [], f)
      else
        let request : ApplyRequest := {
          attempt := id
          envelope := entry.record.envelope
          flow := entry.record.flow
          authority := entry.record.authority
          cadence :=
            match f.envelopes.find entry.record.envelope.id with
            | some (_, envelope) => envelope.envelope.cadence
            | none => entry.record.desired
          worker := entry.record.worker
          issuedAtNs := now.ns }
        let withdrawals :=
          match f.backendPtr entry.record.backend.id with
          | some backend => if entry.record.state = .unknown then [] else [(backend, request)]
          | none => []
        (.success, withdrawals,
          f.commitRecord a i entry (cancelledRecord entry.record now reason) now)

/-- The request of a withdrawal issued for a record. -/
def withdrawalRequest (record : ApplicationRecord) (cadence : Cadence) (now : Instant) :
    ApplyRequest where
  attempt := record.attempt
  envelope := record.envelope
  flow := record.flow
  authority := record.authority
  cadence := cadence
  worker := record.worker
  issuedAtNs := now.ns

/-- One turn of the loop of `revoke_envelope`. -/
def revokeAttempt (a : Answers) (now : Instant) (cadence : Cadence) (reason : Bytes)
    (acc : List Withdrawal × Fabric) (id : AttemptId) : List Withdrawal × Fabric :=
  let (withdrawals, f) := acc
  match f.attempts.find id with
  | none => acc
  | some (i, entry) =>
    if entry.record.state.isSettled then acc
    else
      (match f.backendPtr entry.record.backend.id with
        | some backend =>
          withdrawals ++ [(backend, withdrawalRequest entry.record cadence now)]
        | none => withdrawals,
        f.commitRecord a i entry (entry.record.transition .revoked now .revoked reason) now)

/-- The loop of `revoke_envelope` over the attempts of the envelope. -/
def revokeAttempts (f : Fabric) (a : Answers) (now : Instant) (envelope : EnvelopeId)
    (cadence : Cadence) (reason : Bytes) : List Withdrawal × Fabric :=
  (f.attempts.byEnvelope envelope.value).foldl (revokeAttempt a now cadence reason) ([], f)

/-- Marking the envelope entry revoked, or not. -/
def setRevoked (f : Fabric) (i : Nat) (entry : EnvelopeEntry) (revoked : Bool)
    (reason : Bytes) : Fabric :=
  { f with envelopes := { f.envelopes with
      entries := f.envelopes.entries.set i
        { entry with revoked := revoked, revokeReason := reason } } }

/-- The section of `revoke_envelope`. The mark is set before the revocation is encoded, and
taken back when journaling it fails. -/
def revokeEnvelope (f : Fabric) (a : Answers) (now : Instant) (ref : EnvelopeRef)
    (reason : Bytes) : Status × List Withdrawal × Fabric :=
  if !f.running then (notRunning, [], f)
  else
    match f.envelopes.find ref.id with
    | none => (.of .notFound "envelope not found", [], f)
    | some (i, entry) =>
      if entry.envelope.ref.generation ≠ ref.generation then
        (.of .staleGeneration "envelope generation does not match", [], f)
      else if entry.revoked then
        (.success, f.revokeAttempts a now ref.id entry.envelope.cadence reason)
      else
        let f := f.setRevoked i entry true reason
        match (encodeRevocation ⟨512, [], none⟩ ref reason).finish with
        | .error status => (status, [], f)
        | .ok payload =>
          let (durable, f) := f.journalRecord a .envelopeRevocation payload now.ns
          if !durable.isOk then (durable, [], f.setRevoked i entry false [])
          else (.success, f.revokeAttempts a now ref.id entry.envelope.cadence reason)

/-- Marking the envelopes a fence reaches. -/
def fenceEnvelopes (f : Fabric) (epoch : Epoch) (reason : Bytes) : Fabric :=
  { f with envelopes := { f.envelopes with
      entries := f.envelopes.entries.map fun entry =>
        if entry.live && !entry.revoked &&
            decide (entry.envelope.authority.epoch.value < epoch.value) then
          { entry with revoked := true, revokeReason := reason }
        else entry } }

/-- An attempt a fence reaches: stamped below the epoch and not settled. -/
def fences (epoch : Epoch) (entry : AttemptEntry) : Bool :=
  entry.live && decide (entry.record.authority.epoch.value < epoch.value) &&
    !entry.record.state.isSettled

/-- One turn of the attempt loop of both fences, at slot `i`. -/
def fenceAttempt (a : Answers) (now : Instant) (epoch : Epoch) (detail : Bytes) (f : Fabric)
    (i : Nat) : Fabric :=
  match f.attempts.entries[i]? with
  | none => f
  | some entry =>
    if fences epoch entry then
      f.commitRecord a i entry (entry.record.transition .fenced now .fenced detail) now
    else f

/-- The attempt loop of both fences. -/
def fenceAttempts (f : Fabric) (a : Answers) (now : Instant) (epoch : Epoch) (detail : Bytes) :
    Fabric :=
  (List.range f.attempts.entries.length).foldl (fenceAttempt a now epoch detail) f

/-- The withdrawals of `fence_below`: only attempts that claim or may hold an effect. -/
def fenceWithdrawals (f : Fabric) (epoch : Epoch) (now : Instant) : List Withdrawal :=
  f.attempts.entries.filterMap fun entry =>
    if fences epoch entry && (entry.record.claimsEffect ||
        entry.record.state == .appliedUnverified || entry.record.state == .mismatched) then
      (f.backendPtr entry.record.backend.id).map fun backend =>
        (backend, withdrawalRequest entry.record entry.record.desired now)
    else none

/-- The section of `fence_below`. -/
def fenceBelow (f : Fabric) (a : Answers) (now : Instant) (epoch : Epoch) :
    Status × List Withdrawal × Fabric :=
  if !f.running then (notRunning, [], f)
  else
    let detail : Bytes := "fenced by coordinator epoch"
    let f := f.fenceEnvelopes epoch detail
    (.success, f.fenceWithdrawals epoch now, f.fenceAttempts a now epoch detail)

/-- `advance_epoch_locked`. -/
def advanceEpochLocked (f : Fabric) (a : Answers) (now : Instant) : Status × Fabric :=
  let (next, exhausted) := f.epoch.advanced
  if exhausted then (.of .resourceExhausted "coordinator epoch is exhausted", f)
  else
    let f := { f with epoch := next }
    let f := f.fenceEnvelopes next "coordinator epoch advanced"
    let f := f.fenceAttempts a now next "coordinator epoch advanced past this attempt"
    match encodeEpochPayload f.epoch f.boot with
    | .error status => (status, f)
    | .ok payload => f.journalRecord a .epochAdvance payload now.ns

/-- The section of `advance_epoch`, with the backends to be told. -/
def advanceEpoch (f : Fabric) (a : Answers) (now : Instant) :
    StatusOr (Epoch × List BackendPtr) × Fabric :=
  if !f.running then (.error notRunning, f)
  else
    let (status, f) := f.advanceEpochLocked a now
    (if status.isOk then .ok (f.epoch, f.backends.map (·.2)) else .error status, f)

end Fabric

end Pacing
