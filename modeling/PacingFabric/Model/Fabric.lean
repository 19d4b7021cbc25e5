import PacingFabric.Model.Durable
import PacingFabric.Model.Serialize
import Mathlib.Logic.Function.Basic

/-!
# The state of the coordinator

Everything `PacingFabric` guards, with the operations its critical sections share: lookup,
eviction, compaction, ledger writes and journaling. The envelope table and the attempt
ledger are vectors whose slots are marked dead rather than removed; an index maps an
identity to its slot.

A hash map from identities is a function to `Option`, and a map to vectors answers the
empty vector for an absent key: the source reads both cases alike.
-/

namespace Pacing

structure FabricConfig where
  limits : Limits := {}
  durableDirectory : Bytes := []
  fabricInstance : UInt64 := 1
  tickPeriodNs : UInt64 := 1000000
  envelopeLifetimeNs : UInt64 := 1000000000
  enableDurability : Bool := true
  maxPendingAttempts : UInt32 := 4096
  deriving DecidableEq, Repr

/-- Monotonic identity minting. -/
structure IdMinter where
  counter : UInt64 := 0
  deriving DecidableEq, Repr

namespace IdMinter

def next (m : IdMinter) : UInt64 × IdMinter := (m.counter + 1, ⟨m.counter + 1⟩)

def setFloor (m : IdMinter) (value : UInt64) : IdMinter :=
  if value > m.counter then ⟨value⟩ else m

end IdMinter

/-- The clock fields, guarded by their own lock. -/
structure ClockWatch where
  lastObservedNs : UInt64 := 0
  regressed : Bool := false
  deriving DecidableEq, Repr

namespace ClockWatch

/-- The locked part of `sample_clock`: a reading is folded into the highest instant seen. -/
def observe (c : ClockWatch) (now : Instant) : ClockWatch :=
  if now.ns < c.lastObservedNs then { c with regressed := true }
  else { c with lastObservedNs := now.ns }

/-- `require_trustworthy_clock`. -/
def requireTrustworthy (c : ClockWatch) : Status :=
  if !c.regressed then .success
  else .of .clockRegression
    "the monotonic clock moved backwards; pacing authority is not derivable"

end ClockWatch

structure EnvelopeEntry where
  envelope : PacingEnvelope := {}
  revoked : Bool := false
  live : Bool := true
  revokeReason : Bytes := []
  deriving DecidableEq, Repr

/-- `envelopes_` with its two indexes, its dead count and the eviction scan position. -/
structure EnvelopeTable where
  entries : List EnvelopeEntry := []
  index : UInt64 → Option Nat := fun _ => none
  latestByFlow : UInt64 → Option Nat := fun _ => none
  dead : Nat := 0
  scanHint : Nat := 0

structure AttemptEntry where
  record : ApplicationRecord := {}
  live : Bool := true
  deriving DecidableEq, Repr

/-- `attempts_` with its two indexes and its counters. -/
@[ext] structure AttemptLedger where
  entries : List AttemptEntry := []
  index : UInt64 → Option Nat := fun _ => none
  byEnvelope : UInt64 → List AttemptId := fun _ => []
  pending : UInt32 := 0
  dead : Nat := 0
  scanHint : Nat := 0

/-- The durable store the coordinator holds, the files behind it, and the last sequence. -/
structure Storage where
  disk : Disk := {}
  durable : Option DurableStore := none
  sequence : UInt64 := 0

structure RecoveryReport where
  performed : Bool := false
  durableDirectoryUsed : Bool := false
  bindingsRestored : Nat := 0
  policiesRestored : Nat := 0
  envelopesInvalidated : Nat := 0
  attemptsRequiringRevalidation : Nat := 0
  attemptsAmbiguous : Nat := 0
  backendsRequiringRegistration : Nat := 0
  recordsReplayed : Nat := 0
  recordsRejected : Nat := 0
  epochBefore : Epoch := {}
  epochAfter : Epoch := {}
  bootBefore : BootId := {}
  bootAfter : BootId := {}
  code : ErrorCode := .ok
  detail : Bytes := []
  deriving DecidableEq, Repr

structure Fabric where
  config : FabricConfig := {}
  clock : ClockWatch := {}
  initialized : Bool := false
  running : Bool := false
  activeOperations : UInt32 := 0
  boot : BootId := {}
  epoch : Epoch := {}
  bindings : BindingRegistry := []
  policies : PolicyStore := []
  envelopes : EnvelopeTable := {}
  attempts : AttemptLedger := {}
  backends : List (BackendId × BackendPtr) := []
  envelopeIds : IdMinter := {}
  attemptIds : IdMinter := {}
  provenanceIds : IdMinter := {}
  storage : Storage := {}
  recovery : RecoveryReport := {}

/-- What the world outside answers during one step. Each step reads only the answers it
asks for. -/
structure Answers where
  now : Instant := {}
  grant : StatusOr RateGrant := .error {}
  synthetic : Bool := true
  describe : BackendPtr → BackendDescriptor := fun _ => {}
  status : Status := {}
  ack : ApplyAck := {}
  evidence : ReadbackEvidence := {}
  files : FileAnswers := {}
  checkpointNow : Instant := {}
  checkpointDescribe : BackendPtr → BackendDescriptor := fun _ => {}
  recoverNow : Instant := {}
  nonce : Nat → UInt64 := fun _ => 1

namespace EnvelopeTable

/-- `find_envelope`, with the entry found. -/
def find (t : EnvelopeTable) (id : EnvelopeId) : Option (Nat × EnvelopeEntry) :=
  match t.index id.value with
  | none => none
  | some i =>
    match t.entries[i]? with
    | none => none
    | some entry => if entry.live then some (i, entry) else none

/-- Appending a fresh entry and pointing both indexes at it. -/
def insert (t : EnvelopeTable) (envelope : PacingEnvelope) : EnvelopeTable :=
  { t with
    entries := t.entries ++ [{ envelope := envelope }]
    index := Function.update t.index envelope.ref.id.value (some t.entries.length)
    latestByFlow :=
      Function.update t.latestByFlow envelope.flow.value (some t.entries.length) }

/-- The index rebuilt by a compaction, later slots overwriting earlier ones. -/
def reindex (key : EnvelopeEntry → UInt64) (entries : List EnvelopeEntry) :
    UInt64 → Option Nat :=
  entries.zipIdx.foldl (fun index slot => Function.update index (key slot.1) (some slot.2))
    fun _ => none

/-- `compact_envelopes_locked`. -/
def compact (t : EnvelopeTable) : EnvelopeTable :=
  let entries := t.entries.filter (·.live)
  { entries := entries
    index := reindex (·.envelope.ref.id.value) entries
    latestByFlow := reindex (·.envelope.flow.value) entries
    dead := 0
    scanHint := 0 }

/-- Marking slot `i` dead during eviction. -/
def evict (t : EnvelopeTable) (i : Nat) (candidate : EnvelopeEntry) : EnvelopeTable :=
  { entries := t.entries.set i { candidate with
      live := false, revokeReason := "evicted: envelope table at capacity" }
    index := Function.update t.index candidate.envelope.ref.id.value none
    latestByFlow :=
      if t.latestByFlow candidate.envelope.flow.value = some i then
        Function.update t.latestByFlow candidate.envelope.flow.value none
      else t.latestByFlow
    dead := t.dead + 1
    scanHint := i + 1 }

end EnvelopeTable

namespace AttemptLedger

/-- `find_attempt`, with the entry found. -/
def find (l : AttemptLedger) (id : AttemptId) : Option (Nat × AttemptEntry) :=
  match l.index id.value with
  | none => none
  | some i =>
    match l.entries[i]? with
    | none => none
    | some entry => if entry.live then some (i, entry) else none

/-- The record an attempt identity currently names. -/
def record (l : AttemptLedger) (id : AttemptId) : Option ApplicationRecord :=
  (l.find id).map (·.2.record)

/-- The counter part of `apply_transition`. -/
def pendingAfter (pending : UInt32) (before after : ApplicationState) : UInt32 :=
  if !before.isTerminal && after.isTerminal then
    if pending > 0 then pending - 1 else pending
  else if before.isTerminal && !after.isTerminal then pending + 1
  else pending

/-- Replacing the record of slot `i`. -/
def overwrite (l : AttemptLedger) (i : Nat) (entry : AttemptEntry)
    (record : ApplicationRecord) : AttemptLedger :=
  { l with entries := l.entries.set i { entry with record := record } }

/-- Replacing the record of slot `i`; the pending counter follows the change of state. -/
def write (l : AttemptLedger) (i : Nat) (entry : AttemptEntry) (record : ApplicationRecord) :
    AttemptLedger :=
  { l.overwrite i entry record with
    pending := pendingAfter l.pending entry.record.state record.state }

/-- Appending a record and pointing both indexes at it. -/
def insert (l : AttemptLedger) (record : ApplicationRecord) : AttemptLedger :=
  { l with
    entries := l.entries ++ [{ record := record }]
    index := Function.update l.index record.attempt.value (some l.entries.length)
    byEnvelope := Function.update l.byEnvelope record.envelope.id.value
      (l.byEnvelope record.envelope.id.value ++ [record.attempt]) }

/-- `compact_attempts_locked`. -/
def compact (l : AttemptLedger) : AttemptLedger :=
  let entries := l.entries.filter (·.live)
  { l with
    entries := entries
    index := entries.zipIdx.foldl
      (fun index slot => Function.update index slot.1.record.attempt.value (some slot.2))
      fun _ => none
    dead := 0
    scanHint := 0 }

/-- `find_existing_attempt`: the first live attempt of the envelope on the backend. -/
def findExisting (l : AttemptLedger) (envelope : EnvelopeRef) (backend : BackendId) :
    Option ApplicationRecord :=
  (l.byEnvelope envelope.id.value).findSome? fun id =>
    match l.find id with
    | some (_, entry) => if entry.record.backend.id = backend then some entry.record else none
    | none => none

/-- No live attempt of the envelope is in a non-terminal state. -/
def allTerminal (l : AttemptLedger) (envelope : EnvelopeId) : Bool :=
  (l.byEnvelope envelope.value).all fun id =>
    match l.find id with
    | some (_, entry) => entry.record.state.isTerminal
    | none => true

end AttemptLedger

def evictionScanWindow : Nat := 4096
def compactionTrigger : Nat := 2

namespace Fabric

/-- `backend_ptr`. -/
def backendPtr (f : Fabric) (id : BackendId) : Option BackendPtr :=
  (f.backends.find? (·.1 == id)).map (·.2)

/-- `clock_watch` update of `sample_clock`. -/
def sample (f : Fabric) (now : Instant) : Fabric := { f with clock := f.clock.observe now }

/-! ### Eviction and compaction -/

/-- The first two statements of `evict_and_compact_locked`. -/
def compactTables (f : Fabric) : Fabric :=
  let envelopes :=
    if f.envelopes.dead * compactionTrigger > f.envelopes.entries.length ∧
        f.envelopes.entries.length > 1024 then f.envelopes.compact
    else f.envelopes
  let attempts :=
    if f.attempts.dead * compactionTrigger > f.attempts.entries.length ∧
        f.attempts.entries.length > 1024 then f.attempts.compact
    else f.attempts
  { f with envelopes := envelopes, attempts := attempts }

/-- A slot eviction may take: live, with no attempt in flight. -/
def evictable (f : Fabric) (entry : EnvelopeEntry) : Bool :=
  entry.live && f.attempts.allTerminal entry.envelope.ref.id

/-- The first evictable slot among `n` slots from position `i` on. -/
def scanFrom (f : Fabric) : Nat → Nat → Option (Nat × EnvelopeEntry)
  | 0, _ => none
  | n + 1, i =>
    match f.envelopes.entries[i]? with
    | none => none
    | some entry => if f.evictable entry then some (i, entry) else scanFrom f n (i + 1)

/-- The slot the scan of `evict_and_compact_locked` takes. -/
def evictionVictim (f : Fabric) : Option (Nat × EnvelopeEntry) :=
  f.scanFrom evictionScanWindow (min f.envelopes.scanHint f.envelopes.entries.length)

/-- The scan over at most one window of slots. -/
def evictOne (f : Fabric) : Fabric :=
  let size := f.envelopes.entries.length
  let stop := min size (min f.envelopes.scanHint size + evictionScanWindow)
  match f.evictionVictim with
  | some (i, candidate) => { f with envelopes := f.envelopes.evict i candidate }
  | none =>
    { f with envelopes := { f.envelopes with
        scanHint := if stop ≥ size then 0 else stop } }

/-- `evict_and_compact_locked`. -/
def evictAndCompact (f : Fabric) : Fabric :=
  let f := f.compactTables
  if f.envelopes.entries.length < f.config.limits.maxEnvelopes.toNat then f
  else f.evictOne

/-! ### Journaling -/

def encodeAttemptPayload (record : ApplicationRecord) : StatusOr Bytes :=
  (encodeAttempt ⟨encodeCapacityBytes, [], none⟩ record).finish

def encodeEnvelopePayload (envelope : PacingEnvelope) : StatusOr Bytes :=
  (encodeEnvelope ⟨encodeCapacityBytes, [], none⟩ envelope).finish

def encodeEpochPayload (epoch : Epoch) (boot : BootId) : StatusOr Bytes :=
  (encodeEpoch ⟨256, [], none⟩ epoch boot).finish

/-- One record of the compacted set, before it is numbered. -/
abbrev Compacted := DurableRecordType × Bytes

/-- A payload encoded with the large capacity. -/
def compactedAs (type : DurableRecordType) (encode : ByteWriter → ByteWriter) :
    StatusOr Compacted := do
  return (type, ← (encode ⟨encodeCapacityBytes, [], none⟩).finish)

/-- An envelope entry compacts to its envelope and, when revoked, its revocation. -/
def compactEnvelope (entry : EnvelopeEntry) : StatusOr (List Compacted) := do
  let envelope ← compactedAs .envelope (encodeEnvelope · entry.envelope)
  if entry.revoked then
    let revocation ← compactedAs .envelopeRevocation
      (encodeRevocation · entry.envelope.ref entry.revokeReason)
    return [envelope, revocation]
  else return [envelope]

/-- The set `maybe_checkpoint_locked` hands to the store, in the order of the source. -/
def compacted (f : Fabric) (describe : BackendPtr → BackendDescriptor) :
    StatusOr (List Compacted) := do
  let bindings ← f.bindings.liveBindings.mapM fun b =>
    compactedAs .flowBinding (encodeBinding · b)
  let policies ← f.policies.livePolicies.mapM fun p => compactedAs .policy (encodePolicy · p)
  let envelopes ← (f.envelopes.entries.filter (·.live)).mapM compactEnvelope
  let attempts ← (f.attempts.entries.filter (·.live)).mapM fun entry =>
    compactedAs .attempt (encodeAttempt · entry.record)
  let backends ← f.backends.mapM fun backend =>
    compactedAs .backendRegistration (encodeBackendDescriptor · (describe backend.2))
  let epoch ← encodeEpochPayload f.epoch f.boot
  return bindings ++ policies ++ envelopes.flatten ++ attempts ++ backends ++
    [(.epochAdvance, epoch)]

/-- Numbering the compacted set from `sequence` on. -/
def numbered (now : Instant) : UInt64 → List Compacted → List DurableRecord
  | _, [] => []
  | sequence, (type, payload) :: rest =>
    ⟨type, sequence, now.ns, payload⟩ :: numbered now (sequence + 1) rest

/-- `maybe_checkpoint_locked`. -/
def maybeCheckpoint (f : Fabric) (a : Answers) : Status × Storage :=
  match f.storage.durable with
  | none => (.success, f.storage)
  | some store =>
    if !store.needsCheckpoint f.config.limits then (.success, f.storage)
    else
      match f.compacted a.checkpointDescribe with
      | .error status => (status, f.storage)
      | .ok records =>
        let compacted := numbered a.checkpointNow (f.storage.sequence + 1) records
        let disk := f.storage.disk
        let (status, store, disk) := store.checkpoint f.config.limits
          { disk with operations := disk.operations + 1 } compacted
          (a.files.checkpoint disk.operations)
        let sequence :=
          if status.isOk then f.storage.sequence + UInt64.ofNat records.length
          else f.storage.sequence
        (status, { disk := disk, durable := some store, sequence := sequence })

/-- The storage part of `journal_record`. -/
def journal (f : Fabric) (a : Answers) (type : DurableRecordType) (payload : Bytes)
    (timestampNs : UInt64) : Status × Storage :=
  let (ready, storage) := f.maybeCheckpoint a
  if !ready.isOk then (ready, storage)
  else
    match storage.durable with
    | none => (.success, storage)
    | some store =>
      let disk := storage.disk
      let sequence := storage.sequence + 1
      let (status, store, disk) := store.append f.config.limits
        { disk with operations := disk.operations + 1 } ⟨type, sequence, timestampNs, payload⟩
        (a.files.append disk.operations)
      (status, { disk := disk, durable := some store, sequence := sequence })

/-- `journal_record`. -/
def journalRecord (f : Fabric) (a : Answers) (type : DurableRecordType) (payload : Bytes)
    (timestampNs : UInt64) : Status × Fabric :=
  ((f.journal a type payload timestampNs).1,
    { f with storage := (f.journal a type payload timestampNs).2 })

/-- Journaling an attempt record whose outcome the caller ignores. -/
def journalAttempt (f : Fabric) (a : Answers) (record : ApplicationRecord) (now : Instant) :
    Fabric :=
  { f with storage :=
      match encodeAttemptPayload record with
      | .ok payload => (f.journal a .attempt payload now.ns).2
      | .error _ => f.storage }

/-- A ledger write followed by its journal record. -/
def commitRecord (f : Fabric) (a : Answers) (i : Nat) (entry : AttemptEntry)
    (record : ApplicationRecord) (now : Instant) : Fabric :=
  ({ f with attempts := f.attempts.write i entry record } : Fabric).journalAttempt a record now

end Fabric

end Pacing
