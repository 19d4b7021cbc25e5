import PacingFabric.Model.Backend
import PacingFabric.Model.Time

/-!
# Application records

The record of one attempt keeps what was intended, what was acknowledged and what was
observed apart. `transition` is the only place that derives the effect label from the
state; evidence fields are written separately.
-/

namespace Pacing

/-- Lifecycle of one application attempt, in the order of the source. -/
inductive ApplicationState
  | unknown | planned | reserved | submitted | acknowledged
  | applied | appliedUnverified | mismatched | requiresRevalidation
  | revoked | fenced | stale | failed | cancelled | ambiguous
  deriving DecidableEq, Repr

namespace ApplicationState

def toByte : ApplicationState → UInt8
  | .unknown => 0
  | .planned => 1
  | .reserved => 2
  | .submitted => 3
  | .acknowledged => 4
  | .applied => 5
  | .appliedUnverified => 6
  | .mismatched => 7
  | .requiresRevalidation => 8
  | .revoked => 9
  | .fenced => 10
  | .stale => 11
  | .failed => 12
  | .cancelled => 13
  | .ambiguous => 14

def isTerminal : ApplicationState → Bool
  | .unknown | .planned | .reserved | .submitted | .acknowledged => false
  | _ => true

def assertsEffect (s : ApplicationState) : Bool := s == .applied

/-- The states that cancel, revoke and the two fences skip: terminal without a lasting
effect. -/
def isSettled : ApplicationState → Bool
  | .revoked | .fenced | .stale | .failed | .cancelled | .ambiguous => true
  | _ => false

/-- Closed by an operator or by an epoch: cancelled, revoked or fenced. -/
def isClosed : ApplicationState → Bool
  | .cancelled | .revoked | .fenced => true
  | _ => false

/-- Terminal with pacing that may be installed. -/
def mayHoldEffect : ApplicationState → Bool
  | .applied | .appliedUnverified | .mismatched | .requiresRevalidation => true
  | _ => false

end ApplicationState

/-- Provenance of a claimed effect. -/
inductive EffectLabel
  | none | verified | syntheticVerified | unverified | mismatched
  deriving DecidableEq, Repr

def EffectLabel.toByte : EffectLabel → UInt8
  | .none => 0
  | .verified => 1
  | .syntheticVerified => 2
  | .unverified => 3
  | .mismatched => 4

structure ApplicationRecord where
  attempt : AttemptId := {}
  envelope : EnvelopeRef := {}
  flow : FlowId := {}
  resource : ResourceId := {}
  authority : AuthorityVector := {}
  desired : Cadence := {}
  state : ApplicationState := .unknown
  lastKnownState : ApplicationState := .unknown
  effect : EffectLabel := .none
  evidenceKind : EvidenceKind := .none
  observedRateBps : UInt64 := 0
  observedQuantumBytes : UInt64 := 0
  observedBurstBytes : UInt64 := 0
  observedIntervalNs : UInt64 := 0
  backendSeq : UInt64 := 0
  evidenceDigest : UInt64 := 0
  evidenceIntegrityOk : Bool := false
  backend : BackendRef := {}
  worker : WorkerBoot := {}
  backendSynthetic : Bool := true
  reason : ErrorCode := .ok
  drift : AuthorityDrift := .none
  detail : Bytes := []
  revision : UInt64 := 0
  createdNs : UInt64 := 0
  updatedNs : UInt64 := 0
  requiresRevalidation : Bool := false
  deriving DecidableEq, Repr

namespace ApplicationRecord

def claimsEffect (r : ApplicationRecord) : Bool :=
  r.state.assertsEffect && !r.requiresRevalidation

/-- The effect label a transition to `next` writes. -/
def labelFor (r : ApplicationRecord) : ApplicationState → EffectLabel
  | .applied => if r.backendSynthetic then .syntheticVerified else .verified
  | .appliedUnverified => .unverified
  | .mismatched => .mismatched
  | _ => .none

/-- The record part of `apply_transition`. -/
def transition (r : ApplicationRecord) (next : ApplicationState) (now : Instant)
    (reason : ErrorCode) (detail : Bytes) : ApplicationRecord :=
  { r with
    lastKnownState := r.state
    state := next
    reason := reason
    detail := detail
    revision := if r.revision != Checked.u64Max then r.revision + 1 else r.revision
    updatedNs := now.ns
    effect := r.labelFor next
    requiresRevalidation := next == .requiresRevalidation }

section transition
variable (r : ApplicationRecord) (next : ApplicationState) (now : Instant)
  (reason : ErrorCode) (detail : Bytes)

@[simp] theorem transition_attempt :
    (r.transition next now reason detail).attempt = r.attempt := rfl

@[simp] theorem transition_state :
    (r.transition next now reason detail).state = next := rfl

@[simp] theorem transition_effect :
    (r.transition next now reason detail).effect = r.labelFor next := rfl

end transition

/-- The evidence fields `finalize_evidence_locked` copies into the record. -/
def withEvidence (r : ApplicationRecord) (evidence : ReadbackEvidence) : ApplicationRecord :=
  { r with
    evidenceKind := evidence.kind
    observedRateBps := evidence.observedRateBps
    observedQuantumBytes := evidence.observedQuantumBytes
    observedBurstBytes := evidence.observedBurstBytes
    observedIntervalNs := evidence.observedIntervalNs
    backendSeq := evidence.backendSeq
    evidenceIntegrityOk := evidence.integrityOk
    evidenceDigest :=
      if evidence.digest != 0 then evidence.digest else evidence.computedDigest }

/-- The evidence reproduces the cadence for this attempt and backend identity. -/
def matches_ (r : ApplicationRecord) (cadence : Cadence) (evidence : ReadbackEvidence) : Bool :=
  let identityOk := evidence.attempt == r.attempt && evidence.backend.id == r.backend.id
  let quantumOk := evidence.observedQuantumBytes == cadence.quantumBytes
  let burstOk := evidence.observedBurstBytes == cadence.burstBytes
  let rateOk := evidence.observedRateBps == cadence.rateBps
  let intervalOk := evidence.observedIntervalNs == cadence.intervalNs
  identityOk && quantumOk && burstOk && rateOk && intervalOk

/-- The record part of `finalize_evidence_locked`. -/
def finalizeEvidence (r : ApplicationRecord) (cadence : Cadence) (evidence : ReadbackEvidence)
    (readbackOk : Bool) (readbackCode : ErrorCode) (now : Instant) : ApplicationRecord :=
  let r := r.withEvidence evidence
  if !readbackOk then
    r.transition .appliedUnverified now readbackCode
      (if readbackCode = .integrityFailure then
        "readback evidence failed its integrity check; effect is UNKNOWN"
      else "no readback evidence available; effect is UNKNOWN")
  else if r.matches_ cadence evidence then
    r.transition .applied now .ok
      (if r.backendSynthetic then "synthetic backend readback matches the authorized envelope"
      else "backend readback matches the authorized envelope")
  else if evidence.observedRateBps > cadence.rateBps then
    r.transition .mismatched now .ceilingExceeded
      "readback rate exceeds the authorized envelope rate"
  else
    r.transition .mismatched now .readbackMismatch
      "readback does not match the authorized envelope"

/-- The record `revalidate` leaves: positive evidence, and the flag unless it was applied. -/
def revalidated (r : ApplicationRecord) (cadence : Cadence) (evidence : ReadbackEvidence)
    (now : Instant) : ApplicationRecord :=
  let r := r.finalizeEvidence cadence evidence true .ok now
  { r with requiresRevalidation := r.state != .applied }

end ApplicationRecord

/-- Evidence is trusted when the call succeeded and it is present and intact. -/
def ReadbackEvidence.trusted (evidence : ReadbackEvidence) (status : Status) : Bool :=
  status.isOk && evidence.present && evidence.integrityOk

/-- The code that explains why evidence is not trusted. -/
def ReadbackEvidence.refusal (evidence : ReadbackEvidence) (status : Status) : ErrorCode :=
  if !status.isOk then status.code
  else if evidence.present then .integrityFailure else .readbackUnavailable

end Pacing
