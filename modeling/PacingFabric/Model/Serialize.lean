import PacingFabric.Model.Codec
import PacingFabric.Model.Binding
import PacingFabric.Model.Policy
import PacingFabric.Model.Envelope
import PacingFabric.Model.Application

/-!
# Encoding of durable records

One encoder and one decoder for each record payload, field by field in the order of the
source. A decoder reads all fields first and validates afterwards.
-/

namespace Pacing

def encodeCapacityBytes : Nat := 1 <<< 20

/-- Discriminants that a decoder turns back into an enumeration. -/
def CadenceShape.ofByte? : UInt8 → Option CadenceShape
  | 0 => some .uniform
  | 1 => some .windowed
  | 2 => some .tokenBucket
  | _ => none

def PacingLayer.ofByte? : UInt8 → Option PacingLayer
  | 0 => some .resource
  | 1 => some .flow
  | _ => none

def BackendNature.ofByte? : UInt8 → Option BackendNature
  | 0 => some .real
  | 1 => some .synthetic
  | _ => none

def EvidenceKind.ofByte? : UInt8 → Option EvidenceKind
  | 0 => some .none
  | 1 => some .backendReadback
  | 2 => some .syntheticReadback
  | 3 => some .injected
  | _ => none

def ApplicationState.ofByte? : UInt8 → Option ApplicationState
  | 0 => some .unknown
  | 1 => some .planned
  | 2 => some .reserved
  | 3 => some .submitted
  | 4 => some .acknowledged
  | 5 => some .applied
  | 6 => some .appliedUnverified
  | 7 => some .mismatched
  | 8 => some .requiresRevalidation
  | 9 => some .revoked
  | 10 => some .fenced
  | 11 => some .stale
  | 12 => some .failed
  | 13 => some .cancelled
  | 14 => some .ambiguous
  | _ => none

def EffectLabel.ofByte? : UInt8 → Option EffectLabel
  | 0 => some .none
  | 1 => some .verified
  | 2 => some .syntheticVerified
  | 3 => some .unverified
  | 4 => some .mismatched
  | _ => none

def AuthorityDrift.toByte : AuthorityDrift → UInt8
  | .none => 0
  | .flow => 1
  | .resource => 2
  | .policy => 3
  | .rateGrant => 4
  | .path => 5
  | .epoch => 6
  | .coordinatorBoot => 7
  | .incomplete => 8

def AuthorityDrift.ofByte? : UInt8 → Option AuthorityDrift
  | 0 => some .none
  | 1 => some .flow
  | 2 => some .resource
  | 3 => some .policy
  | 4 => some .rateGrant
  | 5 => some .path
  | 6 => some .epoch
  | 7 => some .coordinatorBoot
  | 8 => some .incomplete
  | _ => none

namespace ByteWriter

def id {tag : Tag} (w : ByteWriter) (v : Id tag) : ByteWriter := w.u64v v.value

def generation (w : ByteWriter) (v : Generation) : ByteWriter := w.u64v v.value

/-- `encode_genref`. -/
def genRef {tag : Tag} (w : ByteWriter) (ref : GenRef tag) : ByteWriter :=
  (w.id ref.id).generation ref.generation

end ByteWriter

namespace Decode

def id {tag : Tag} : Decode (Id tag) := do return ⟨← u64v⟩

def generation : Decode Generation := do return ⟨← u64v⟩

def genRef {tag : Tag} : Decode (GenRef tag) := do
  let id ← id
  return ⟨id, ← generation⟩

def instant : Decode Instant := do return ⟨← u64v⟩

/-- A deadline is a flag followed by an instant that is skipped when the flag is clear. -/
def deadline : Decode Deadline := do
  if ← boolean then
    return .at_ (← instant)
  else
    let _ ← u64v
    return {}

end Decode

open Decode

def encodeCadence (w : ByteWriter) (c : Cadence) : ByteWriter :=
  w.u64v c.rateBps
    |>.u64v c.quantumBytes
    |>.u64v c.intervalNs
    |>.u64v c.windowNs
    |>.u64v c.grantsPerWindow
    |>.u64v c.bytesPerWindow
    |>.u64v c.burstBytes
    |>.u64v c.burstPackets
    |>.u8v c.shape.toByte

def decodeCadence : Decode (StatusOr Cadence) := do
  let rateBps ← u64v
  let quantumBytes ← u64v
  let intervalNs ← u64v
  let windowNs ← u64v
  let grantsPerWindow ← u64v
  let bytesPerWindow ← u64v
  let burstBytes ← u64v
  let burstPackets ← u64v
  let shape ← u8v
  match ← failure with
  | some status => return .error status
  | none =>
    match CadenceShape.ofByte? shape with
    | none => return .error (.of .malformedInput "unknown cadence shape discriminator")
    | some shape =>
      return .ok { rateBps, quantumBytes, intervalNs, windowNs, grantsPerWindow,
                   bytesPerWindow, burstBytes, burstPackets, shape }

def encodeAuthority (w : ByteWriter) (v : AuthorityVector) : ByteWriter :=
  w.genRef v.flow
    |>.genRef v.resource
    |>.genRef v.policy
    |>.genRef v.rateGrant
    |>.genRef v.path
    |>.u64v v.epoch.value
    |>.u64v v.coordinatorBoot.counter
    |>.u64v v.coordinatorBoot.nonce

def decodeAuthority : Decode (StatusOr AuthorityVector) := do
  let flow ← genRef
  let resource ← genRef
  let policy ← genRef
  let rateGrant ← genRef
  let path ← genRef
  let epoch ← u64v
  let counter ← u64v
  let nonce ← u64v
  match ← failure with
  | some status => return .error status
  | none =>
    let out : AuthorityVector :=
      { flow, resource, policy, rateGrant, path, epoch := ⟨epoch⟩,
        coordinatorBoot := ⟨counter, nonce⟩ }
    if !out.complete then
      return .error (.of .malformedInput "decoded authority vector is incomplete")
    else return .ok out

def encodeBinding (w : ByteWriter) (b : FlowBinding) : ByteWriter :=
  w.id b.flow
    |>.generation b.generation
    |>.genRef b.resource
    |>.genRef b.path
    |>.id b.serviceClass
    |>.id b.tenant
    |>.u64v b.declaredMaxBurstBytes
    |>.u64v b.declaredMaxBurstPackets
    |>.boolean b.quiesced
    |>.id b.provenance

def decodeBinding (limits : Limits) : Decode (StatusOr FlowBinding) := do
  let flow ← id
  let generation ← generation
  let resource ← genRef
  let path ← genRef
  let serviceClass ← id
  let tenant ← id
  let declaredMaxBurstBytes ← u64v
  let declaredMaxBurstPackets ← u64v
  let quiesced ← boolean
  let provenance ← id
  match ← failure with
  | some status => return .error status
  | none =>
    if !flow.valid || !generation.known then
      return .error (.of .malformedInput "decoded binding identity is invalid")
    else if declaredMaxBurstBytes > limits.maxBurstBytes then
      return .error (.of .burstExceedsBound "decoded binding burst bytes above limit")
    else if declaredMaxBurstPackets > limits.maxBurstPackets then
      return .error (.of .burstExceedsBound "decoded binding burst packets above limit")
    else
      return .ok { flow, generation, resource, path, serviceClass, tenant,
                   declaredMaxBurstBytes, declaredMaxBurstPackets, quiesced, provenance }

def encodeException (w : ByteWriter) (ex : ServiceClassException) : ByteWriter :=
  w.id ex.serviceClass
    |>.u64v ex.minRateBps
    |>.u64v ex.rateSharePpm
    |>.u64v ex.burstBytes
    |>.u64v ex.burstPackets
    |>.u32v ex.priority

def encodePolicy (w : ByteWriter) (p : PacingPolicy) : ByteWriter :=
  let w := w.genRef p.ref
    |>.u8v p.layer.toByte
    |>.id p.resource
    |>.id p.flow
    |>.u64v p.rateSharePpm
    |>.u64v p.rateBps
    |>.u64v p.minRateBps
    |>.u64v p.burstBytes
    |>.u64v p.burstPackets
    |>.u64v p.quantumBytes
    |>.u64v p.windowNs
    |>.u8v p.shape.toByte
    |>.u64v p.grantsPerWindowHint
    |>.genRef p.path
    |>.id p.defaultServiceClass
    |>.id p.tenant
    |>.id p.provenance
    |>.u64v p.publishedAt.ns
    |>.u32v (UInt32.ofNat p.exceptions.length)
  p.exceptions.foldl encodeException w

/-- The loop of `decode_policy`, which stops at the first truncated exception. -/
def decodeExceptions : Nat → List ServiceClassException →
    Decode (StatusOr (List ServiceClassException))
  | 0, out => return .ok out
  | n + 1, out => do
    let serviceClass ← id
    let minRateBps ← u64v
    let rateSharePpm ← u64v
    let burstBytes ← u64v
    let burstPackets ← u64v
    let priority ← u32v
    match ← failure with
    | some status => return .error status
    | none =>
      decodeExceptions n
        (out ++ [{ serviceClass, minRateBps, rateSharePpm, burstBytes, burstPackets, priority }])

def decodePolicy (limits : Limits) : Decode (StatusOr PacingPolicy) := do
  let ref ← genRef
  let layer ← u8v
  let resource ← id
  let flow ← id
  let rateSharePpm ← u64v
  let rateBps ← u64v
  let minRateBps ← u64v
  let burstBytes ← u64v
  let burstPackets ← u64v
  let quantumBytes ← u64v
  let windowNs ← u64v
  let shape ← u8v
  let grantsPerWindowHint ← u64v
  let path ← genRef
  let defaultServiceClass ← id
  let tenant ← id
  let provenance ← id
  let publishedAt ← instant
  let exceptionCount ← u32v
  match ← failure with
  | some status => return .error status
  | none =>
    match PacingLayer.ofByte? layer with
    | none => return .error (.of .malformedInput "unknown pacing layer discriminator")
    | some layer =>
      match CadenceShape.ofByte? shape with
      | none => return .error (.of .malformedInput "unknown cadence shape discriminator")
      | some shape =>
        if exceptionCount > limits.maxServiceClassExceptions then
          return .error (.of .oversized "decoded policy exception count above bound")
        else
          match ← decodeExceptions exceptionCount.toNat [] with
          | .error status => return .error status
          | .ok exceptions =>
            let out : PacingPolicy :=
              { ref, layer, resource, flow, rateSharePpm, rateBps, minRateBps, burstBytes,
                burstPackets, quantumBytes, windowNs, shape, grantsPerWindowHint, path,
                defaultServiceClass, exceptions, tenant, provenance, publishedAt }
            -- a publication request names no generation; its shape is still validated
            let valid := (PolicyStore.defaulted out).validate limits
            if !valid.isOk then return .error valid else return .ok out

def encodeEnvelope (w : ByteWriter) (e : PacingEnvelope) : ByteWriter :=
  let w := w.genRef e.ref |>.id e.flow |>.id e.resource
  let w := encodeCadence (encodeAuthority w e.authority) e.cadence
  w.u64v e.requestedRateBps
    |>.u64v e.ceilingBps
    |>.u64v e.floorBps
    |>.boolean e.clampedToCeiling
    |>.boolean e.clampedToFloor
    |>.id e.serviceClass
    |>.id e.provenance.id
    |>.u64v e.provenance.sequence
    |>.u64v e.provenance.fabricInstance
    |>.u64v e.provenance.bindingDigest
    |>.u64v e.provenance.policyDigest
    |>.u64v e.provenance.grantDigest
    |>.u64v e.provenance.cadenceDigest
    |>.u64v e.derivedAt.ns
    |>.boolean e.validUntil.set
    |>.u64v e.validUntil.nsOrZero
    |>.boolean e.upstreamSynthetic
    |>.boolean e.policySynthetic

def decodeEnvelope : Decode (StatusOr PacingEnvelope) := do
  let ref ← genRef
  let flow ← id
  let resource ← id
  match ← decodeAuthority with
  | .error status => return .error status
  | .ok authority =>
  match ← decodeCadence with
  | .error status => return .error status
  | .ok cadence =>
  let requestedRateBps ← u64v
  let ceilingBps ← u64v
  let floorBps ← u64v
  let clampedToCeiling ← boolean
  let clampedToFloor ← boolean
  let serviceClass ← id
  let provenanceId ← id
  let sequence ← u64v
  let fabricInstance ← u64v
  let bindingDigest ← u64v
  let policyDigest ← u64v
  let grantDigest ← u64v
  let cadenceDigest ← u64v
  let derivedAt ← instant
  let validUntil ← deadline
  let upstreamSynthetic ← boolean
  let policySynthetic ← boolean
  match ← failure with
  | some status => return .error status
  | none =>
    if !ref.id.valid || !ref.generation.known || !flow.valid then
      return .error (.of .malformedInput "decoded envelope identity is invalid")
    else if cadence.rateBps > ceilingBps then
      return .error (.of .ceilingExceeded "decoded envelope exceeds its recorded ceiling")
    else
      let provenance : Provenance :=
        { id := provenanceId, sequence, fabricInstance, bindingDigest, policyDigest,
          grantDigest, cadenceDigest }
      return .ok { ref, flow, resource, authority, cadence, requestedRateBps, ceilingBps,
                   floorBps, clampedToCeiling, clampedToFloor, serviceClass, provenance,
                   derivedAt, validUntil, upstreamSynthetic, policySynthetic }

def encodeAttempt (w : ByteWriter) (r : ApplicationRecord) : ByteWriter :=
  let w := w.id r.attempt |>.genRef r.envelope |>.id r.flow |>.id r.resource
  let w := encodeCadence (encodeAuthority w r.authority) r.desired
  w.u8v r.state.toByte
    |>.u8v r.lastKnownState.toByte
    |>.u8v r.effect.toByte
    |>.u8v r.evidenceKind.toByte
    |>.u64v r.observedRateBps
    |>.u64v r.observedQuantumBytes
    |>.u64v r.observedBurstBytes
    |>.u64v r.observedIntervalNs
    |>.u64v r.backendSeq
    |>.u64v r.evidenceDigest
    |>.boolean r.evidenceIntegrityOk
    |>.genRef r.backend
    |>.u64v r.worker.incarnation
    |>.u64v r.worker.nonce
    |>.boolean r.backendSynthetic
    |>.u16v r.reason.toU16
    |>.u8v r.drift.toByte
    |>.str r.detail
    |>.u64v r.revision
    |>.u64v r.createdNs
    |>.u64v r.updatedNs
    |>.boolean r.requiresRevalidation

def decodeAttempt (limits : Limits) : Decode (StatusOr ApplicationRecord) := do
  let attempt ← id
  let envelope ← genRef
  let flow ← id
  let resource ← id
  match ← decodeAuthority with
  | .error status => return .error status
  | .ok authority =>
  match ← decodeCadence with
  | .error status => return .error status
  | .ok desired =>
  let state ← u8v
  let lastState ← u8v
  let effect ← u8v
  let evidence ← u8v
  let observedRateBps ← u64v
  let observedQuantumBytes ← u64v
  let observedBurstBytes ← u64v
  let observedIntervalNs ← u64v
  let backendSeq ← u64v
  let evidenceDigest ← u64v
  let evidenceIntegrityOk ← boolean
  let backend ← genRef
  let incarnation ← u64v
  let nonce ← u64v
  let backendSynthetic ← boolean
  let reason ← u16v
  let drift ← u8v
  let detail ← str limits.maxExplanationBytes.toNat
  let revision ← u64v
  let createdNs ← u64v
  let updatedNs ← u64v
  let requiresRevalidation ← boolean
  match ← failure with
  | some status => return .error status
  | none =>
    if !attempt.valid then
      return .error (.of .malformedInput "decoded attempt identity is invalid")
    else
      match ApplicationState.ofByte? state, ApplicationState.ofByte? lastState,
          EffectLabel.ofByte? effect, EvidenceKind.ofByte? evidence,
          AuthorityDrift.ofByte? drift with
      | some state, some lastKnownState, some effect, some evidenceKind, some drift =>
        return .ok { attempt, envelope, flow, resource, authority, desired, state,
                     lastKnownState, effect, evidenceKind, observedRateBps,
                     observedQuantumBytes, observedBurstBytes, observedIntervalNs, backendSeq,
                     evidenceDigest, evidenceIntegrityOk, backend,
                     worker := ⟨incarnation, nonce⟩, backendSynthetic,
                     reason := .ofU16 reason, drift, detail, revision, createdNs, updatedNs,
                     requiresRevalidation }
      | _, _, _, _, _ =>
        return .error (.of .malformedInput "decoded attempt enum discriminator out of range")

def encodeGrant (w : ByteWriter) (g : RateGrant) : ByteWriter :=
  w.genRef g.ref
    |>.id g.resource
    |>.u64v g.ceilingBps
    |>.u64v g.floorBps
    |>.u64v g.revision
    |>.u64v g.observedAt.ns
    |>.boolean g.validUntil.set
    |>.u64v g.validUntil.nsOrZero
    |>.id g.provenance
    |>.boolean g.authoritative

def decodeGrant (limits : Limits) : Decode (StatusOr RateGrant) := do
  let ref ← genRef
  let resource ← id
  let ceilingBps ← u64v
  let floorBps ← u64v
  let revision ← u64v
  let observedAt ← instant
  let validUntil ← deadline
  let provenance ← id
  let authoritative ← boolean
  match ← failure with
  | some status => return .error status
  | none =>
    if ceilingBps > limits.maxRateBps then
      return .error (.of .outOfRange "decoded grant ceiling above configured limit")
    else if floorBps > ceilingBps then
      return .error (.of .floorExceedsCeiling "decoded grant floor exceeds its ceiling")
    else
      return .ok { ref, resource, ceilingBps, floorBps, revision, observedAt, validUntil,
                   provenance, authoritative }

def encodeRevocation (w : ByteWriter) (envelope : EnvelopeRef) (reason : Bytes) : ByteWriter :=
  (w.genRef envelope).str reason

def decodeRevocation : Decode (StatusOr (EnvelopeRef × Bytes)) := do
  let envelope ← genRef
  let reason ← str 256
  match ← failure with
  | some status => return .error status
  | none =>
    if !envelope.id.valid then
      return .error (.of .malformedInput "decoded revocation has no envelope identity")
    else return .ok (envelope, reason)

def encodeEpoch (w : ByteWriter) (epoch : Epoch) (boot : BootId) : ByteWriter :=
  w.u64v epoch.value |>.u64v boot.counter |>.u64v boot.nonce

def decodeEpoch : Decode (StatusOr (Epoch × BootId)) := do
  let epoch ← u64v
  let counter ← u64v
  let nonce ← u64v
  match ← failure with
  | some status => return .error status
  | none =>
    if !(Epoch.mk epoch).valid then
      return .error (.of .malformedInput "decoded epoch is not valid")
    else return .ok (⟨epoch⟩, ⟨counter, nonce⟩)

def encodeIdentityU64 (w : ByteWriter) (value : UInt64) : ByteWriter := w.u64v value

def decodeIdentityU64 : Decode (StatusOr UInt64) := do
  let value ← u64v
  match ← failure with
  | some status => return .error status
  | none => return .ok value

def encodeBackendDescriptor (w : ByteWriter) (d : BackendDescriptor) : ByteWriter :=
  w.genRef d.ref
    |>.str d.name
    |>.u8v d.nature.toByte
    |>.boolean d.supportsReadback
    |>.u64v d.maxRateBps
    |>.u64v d.maxBurstBytes
    |>.u64v d.capabilityFlags

def decodeBackendDescriptor (limits : Limits) : Decode (StatusOr BackendDescriptor) := do
  let ref ← genRef
  let name ← str limits.maxNameBytes.toNat
  let nature ← u8v
  let supportsReadback ← boolean
  let maxRateBps ← u64v
  let maxBurstBytes ← u64v
  let capabilityFlags ← u64v
  match ← failure with
  | some status => return .error status
  | none =>
    match BackendNature.ofByte? nature with
    | none => return .error (.of .malformedInput "unknown backend nature discriminator")
    | some nature =>
      if !ref.id.valid || !ref.generation.known || name.isEmpty then
        return .error (.of .malformedInput "decoded backend descriptor is incomplete")
      else
        return .ok { ref, name, nature, supportsReadback, maxRateBps, maxBurstBytes,
                     capabilityFlags }

/-- Decoding of a whole payload: the decoder succeeds and every byte was consumed. -/
def decodePayload {α : Type} (decode : Decode (StatusOr α)) (payload : Bytes) : Option α :=
  match decode ⟨payload, none⟩ with
  | (.ok value, r) => if r.exhausted then some value else none
  | (.error _, _) => none

end Pacing
