import PacingFabric.Model.Fabric

/-!
# Initialization and recovery

A coordinator starts from the records its durable store recovered. Replay rebuilds
bindings, policies, envelopes and attempts; afterwards epoch and boot advance, every
envelope is revoked, and no attempt keeps an effect.
-/

namespace Pacing

/-- The coordinator during replay, with the highest identities it met. -/
structure Replay where
  fabric : Fabric
  maxEnvelopeId : UInt64 := 0
  maxAttemptId : UInt64 := 0
  maxProvenanceId : UInt64 := 0

namespace Replay

def reject (s : Replay) : Replay :=
  { s with fabric := { s.fabric with recovery := { s.fabric.recovery with
      recordsRejected := s.fabric.recovery.recordsRejected + 1 } } }

def envelope (s : Replay) (envelope : PacingEnvelope) : Replay :=
  let f := s.fabric
  match f.envelopes.find envelope.ref.id with
  | some (i, entry) =>
    { s with fabric := { f with envelopes := { f.envelopes with
        entries := f.envelopes.entries.set i { entry with envelope := envelope } } } }
  | none =>
    { s with
      fabric := { f with envelopes := f.envelopes.insert envelope }
      maxEnvelopeId := max s.maxEnvelopeId envelope.ref.id.value
      maxProvenanceId := max s.maxProvenanceId envelope.provenance.id.value }

def attempt (s : Replay) (record : ApplicationRecord) : Replay :=
  let f := s.fabric
  match f.attempts.find record.attempt with
  | some (i, entry) =>
    { s with fabric := { f with attempts := f.attempts.overwrite i entry record } }
  | none =>
    { s with
      fabric := { f with attempts := f.attempts.insert record }
      maxAttemptId := max s.maxAttemptId record.attempt.value }

def revocation (s : Replay) (ref : EnvelopeRef) (reason : Bytes) : Replay :=
  let f := s.fabric
  match f.envelopes.find ref.id with
  | some (i, entry) =>
    { s with fabric := { f with envelopes := { f.envelopes with
        entries := f.envelopes.entries.set i
          { entry with revoked := true, revokeReason := reason } } } }
  | none => s

/-- Epoch and boot counter never fall behind a persisted pair; the nonce drawn here is
overwritten when recovery ends. -/
def epochAdvance (s : Replay) (nonce : UInt64) (persisted : Epoch) (boot : BootId) : Replay :=
  let f := s.fabric
  { s with fabric := { f with
      recovery := { f.recovery with epochBefore := persisted, bootBefore := boot }
      epoch := if persisted.value > f.epoch.value then persisted else f.epoch
      boot := if boot.counter ≥ f.boot.counter then ⟨boot.counter, nonce⟩ else f.boot } }

/-- One turn of the replay loop. -/
def record (nonce : UInt64) (s : Replay) (record : DurableRecord) : Replay :=
  let f := s.fabric
  let storage := { f.storage with sequence := max f.storage.sequence record.sequence }
  let s := { s with fabric := { f with storage := storage } }
  let f := s.fabric
  let limits := f.config.limits
  match record.type with
  | .flowBinding =>
    match decodePayload (decodeBinding limits) record.payload with
    | none => s.reject
    | some binding =>
      { s with fabric := { f with
          bindings := (BindingRegistry.restore limits f.bindings binding).2 } }
  | .policy =>
    match decodePayload (decodePolicy limits) record.payload with
    | none => s.reject
    | some policy =>
      { s with fabric := { f with policies := (PolicyStore.restore limits f.policies policy).2 } }
  | .envelope =>
    match decodePayload decodeEnvelope record.payload with
    | none => s.reject
    | some envelope => s.envelope envelope
  | .attempt =>
    match decodePayload (decodeAttempt limits) record.payload with
    | none => s.reject
    | some attempt => s.attempt attempt
  | .envelopeRevocation =>
    match decodePayload decodeRevocation record.payload with
    | none => s.reject
    | some (ref, reason) => s.revocation ref reason
  | .epochAdvance =>
    match decodePayload decodeEpoch record.payload with
    | none => s.reject
    | some (persisted, boot) => s.epochAdvance nonce persisted boot
  | .backendRegistration =>
    match decodePayload (decodeBackendDescriptor limits) record.payload with
    | none => s.reject
    | some _ =>
      { s with fabric := { f with recovery := { f.recovery with
          backendsRequiringRegistration := f.recovery.backendsRequiringRegistration + 1 } } }
  | .flowUnbound =>
    match decodePayload decodeIdentityU64 record.payload with
    | none => s.reject
    | some flow =>
      { s with fabric := { f with bindings := (BindingRegistry.unbind f.bindings ⟨flow⟩).2 } }
  | .policyRemoved =>
    match decodePayload decodeIdentityU64 record.payload with
    | none => s.reject
    | some policy =>
      { s with fabric := { f with policies := (PolicyStore.remove f.policies ⟨policy⟩).2 } }
  | .metaRecord | .unlisted .. => s.reject

end Replay

/-- What recovery makes of a replayed attempt: no effect, and the flag set. -/
def ApplicationRecord.recovered (r : ApplicationRecord) : ApplicationRecord :=
  if !r.state.isTerminal then
    { r with
      requiresRevalidation := true
      lastKnownState := r.state
      state := .ambiguous
      reason := .ambiguous
      detail := "coordinator restart during an in-flight application attempt"
      effect := .none }
  else if r.state.assertsEffect || r.state == .appliedUnverified || r.state == .mismatched then
    { r with
      requiresRevalidation := true
      lastKnownState := r.state
      state := .requiresRevalidation
      reason := .requiresRevalidation
      detail := "coordinator restart: effect not restored without revalidation"
      effect := .none }
  else { r with requiresRevalidation := true, effect := .none }

/-- A nonce is never zero. -/
def nonZeroNonce (nonce : UInt64) : UInt64 := if nonce = 0 then 1 else nonce

namespace Fabric

/-- The replay loop of `recover_locked`, with the identity floors it ends with. -/
def replay (f : Fabric) (a : Answers) (records : List DurableRecord) : Replay :=
  records.foldl (Replay.record (nonZeroNonce (a.nonce 1))) { fabric := f }

/-- Every live envelope is revoked. -/
def invalidateEnvelopes (f : Fabric) : Fabric :=
  { f with
    envelopes := { f.envelopes with
      entries := f.envelopes.entries.map fun entry =>
        if entry.live then
          { entry with
            revoked := true
            revokeReason := "coordinator restart: prior epoch authority fenced" }
        else entry }
    recovery := { f.recovery with
      envelopesInvalidated := f.recovery.envelopesInvalidated +
        (f.envelopes.entries.filter (·.live)).length } }

/-- One turn of the loop over the replayed attempts, at slot `i`. -/
def recoverAttempt (a : Answers) (f : Fabric) (i : Nat) : Fabric :=
  match f.attempts.entries[i]? with
  | none => f
  | some entry =>
    if !entry.live then f
    else
      let record := entry.record.recovered
      let recovery := { f.recovery with
        attemptsAmbiguous := f.recovery.attemptsAmbiguous +
          if entry.record.state.isTerminal then 0 else 1
        attemptsRequiringRevalidation := f.recovery.attemptsRequiringRevalidation + 1 }
      ({ f with
        attempts := f.attempts.overwrite i entry record
        recovery := recovery } : Fabric).journalAttempt a record a.recoverNow

def recoverAttempts (f : Fabric) (a : Answers) : Fabric :=
  (List.range f.attempts.entries.length).foldl (recoverAttempt a) f

/-- The pending counter recomputed from the ledger. -/
def recountPending (f : Fabric) : Fabric :=
  { f with attempts := { f.attempts with
      pending := UInt32.ofNat (f.attempts.entries.filter fun entry =>
        entry.live && !entry.record.state.isTerminal).length } }

/-- The epoch and boot advance of `recover_locked`. -/
def advanceIncarnation (f : Fabric) (a : Answers) : Status × Fabric :=
  let (epoch, exhausted) := f.epoch.advanced
  if exhausted then (.of .resourceExhausted "coordinator epoch is exhausted", f)
  else if f.boot.counter = Checked.u64Max then
    (.of .resourceExhausted "boot counter is exhausted", { f with epoch := epoch })
  else
    let boot : BootId := ⟨f.boot.counter + 1, nonZeroNonce (a.nonce 2)⟩
    (.success,
      { f with
        epoch := epoch
        boot := boot
        recovery := { f.recovery with epochAfter := epoch, bootAfter := boot } })

/-- The reading and the counts that precede the replay loop. -/
def beginRecovery (f : Fabric) (a : Answers) (records : List DurableRecord) : Fabric :=
  { f.sample a.recoverNow with
    recovery := { f.recovery with performed := true, recordsReplayed := records.length } }

def countRestored (f : Fabric) : Fabric :=
  { f with recovery := { f.recovery with
      bindingsRestored := f.bindings.liveBindings.length
      policiesRestored := f.policies.livePolicies.length } }

/-- Minting continues above every identity replay met. -/
def setFloors (f : Fabric) (replay : Replay) : Fabric :=
  { f with
    envelopeIds := f.envelopeIds.setFloor replay.maxEnvelopeId
    attemptIds := f.attemptIds.setFloor replay.maxAttemptId
    provenanceIds := f.provenanceIds.setFloor replay.maxProvenanceId }

/-- What follows a successful advance of epoch and boot, up to the epoch record. -/
def settle (f : Fabric) (a : Answers) (replay : Replay) : Fabric :=
  (f.invalidateEnvelopes.recoverAttempts a).recountPending.setFloors replay

/-- Journaling the epoch and boot of this incarnation. -/
def journalEpoch (f : Fabric) (a : Answers) (now : Instant) : Status × Fabric :=
  match encodeEpochPayload f.epoch f.boot with
  | .error status => (status, f)
  | .ok payload => f.journalRecord a .epochAdvance payload now.ns

/-- `recover_locked`. -/
def recover (f : Fabric) (a : Answers) (records : List DurableRecord) : Status × Fabric :=
  let replay := (f.beginRecovery a records).replay a records
  let advanced := replay.fabric.countRestored.advanceIncarnation a
  if !advanced.1.isOk then advanced
  else (advanced.2.settle a replay).journalEpoch a a.recoverNow

/-- The configuration tests of `initialize`. -/
def checkConfig (config : FabricConfig) : Status :=
  if !config.limits.coherent then .of .invalidArgument "configured limits are incoherent"
  else if config.tickPeriodNs == 0 ||
      decide (config.tickPeriodNs > config.limits.maxIntervalNs) then
    .of .invalidArgument "tick period is zero or above the configured bound"
  else if config.envelopeLifetimeNs == 0 ||
      decide (config.envelopeLifetimeNs > config.limits.maxEnvelopeLifetimeNs) then
    .of .invalidArgument "envelope lifetime is zero or above the bound"
  else if config.fabricInstance == 0 then
    .of .invalidArgument "fabric instance identity must be non-zero"
  else if config.maxPendingAttempts == 0 then
    .of .invalidArgument "pending attempt bound must be non-zero"
  else .success

/-- The durable part of `initialize`. -/
def openDurable (f : Fabric) (a : Answers) : Status × Fabric :=
  if f.config.enableDurability && !f.config.durableDirectory.isEmpty then
    match DurableStore.openStore f.config.limits f.storage.disk a.files.opening with
    | (.error status, disk) =>
      (status, { f with
        storage := { f.storage with disk := disk, durable := none }
        recovery := { f.recovery with code := status.code, detail := status.detail } })
    | (.ok store, disk) =>
      let f := { f with
        storage := { f.storage with disk := disk, durable := some store }
        recovery := { f.recovery with durableDirectoryUsed := true } }
      let (status, f) := f.recover a store.recovered
      if status.isOk then (status, f)
      else
        (status, { f with recovery := { f.recovery with
          code := status.code
          detail := if f.recovery.detail.isEmpty then status.detail else f.recovery.detail } })
  else (.success, f)

/-- The locked section of `initialize`. -/
def initializeLocked (f : Fabric) (a : Answers) : Status × Fabric :=
  if f.initialized then (.of .invalidState "fabric is already initialized", f)
  else
    let valid := checkConfig f.config
    if !valid.isOk then (valid, f)
    else
      let boot : BootId := ⟨1, nonZeroNonce (a.nonce 0)⟩
      let f := { f with
        boot := boot
        epoch := ⟨1⟩
        recovery := { bootAfter := boot, epochAfter := ⟨1⟩ } }
      let (status, f) := f.openDurable a
      (status, if status.isOk then { f with initialized := true, running := true } else f)

/-- `initialize`. -/
def initializeFabric (f : Fabric) (a : Answers) : Status × Fabric :=
  (f.sample a.now).initializeLocked a

/-- A coordinator object as constructed, over the files of its directory. -/
def construct (config : FabricConfig) (disk : Disk) : Fabric :=
  { config := config, storage := { disk := disk } }

end Fabric

end Pacing
