import PacingFabric.Model.Codec
import PacingFabric.Model.Crc32c
import PacingFabric.Model.Durable
import PacingFabric.Storage.Framing

/-!
# The durable store, byte by byte

The files of the durable directory as byte strings, and the functions of `DurableStore` on
them. A file operation is a list of effects, one for each byte it writes, so that a crash
leaves what a prefix of the list leaves.
-/

namespace Pacing

/-- The numeric value of a record type. -/
def DurableRecordType.raw : DurableRecordType → UInt16
  | .metaRecord => 1
  | .flowBinding => 2
  | .policy => 3
  | .envelope => 4
  | .attempt => 5
  | .envelopeRevocation => 6
  | .epochAdvance => 7
  | .backendRegistration => 8
  | .flowUnbound => 9
  | .policyRemoved => 10
  | .unlisted raw _ => raw

/-- The cast of a 16-bit value to a record type. -/
def DurableRecordType.ofRaw (raw : UInt16) : DurableRecordType :=
  if raw = 1 then .metaRecord
  else if raw = 2 then .flowBinding
  else if raw = 3 then .policy
  else if raw = 4 then .envelope
  else if raw = 5 then .attempt
  else if raw = 6 then .envelopeRevocation
  else if raw = 7 then .epochAdvance
  else if raw = 8 then .backendRegistration
  else if raw = 9 then .flowUnbound
  else if raw = 10 then .policyRemoved
  else if beyond : raw = 0 ∨ 11 ≤ raw.toNat then .unlisted raw beyond
  else .metaRecord

namespace DurableFile

def stateFormatVersion : Nat := 1

/-- `PFSN`. -/
def snapshotMagic : Bytes := [80, 70, 83, 78]

/-- `PFJ1`. -/
def journalMagic : Bytes := [80, 70, 74, 49]

/-- `get_u32` and `get_u64`: the number in a fixed-width field. -/
def field (bytes : Bytes) (offset width : Nat) : Nat :=
  ofLittleEndian ((bytes.drop offset).take width)

theorem field_lt (bytes : Bytes) (offset width : Nat) :
    field bytes offset width < 256 ^ width := by
  refine Nat.lt_of_lt_of_le (ofLittleEndian_lt _) (Nat.pow_le_pow_right (by omega) ?_)
  rw [List.length_take]
  exact Nat.min_le_left _ _

/-- `encode_record_header`. -/
def encodeRecordHeader (type : DurableRecordType) (payloadLen : Nat)
    (sequence timestamp : UInt64) (payloadCrc : UInt32) : Bytes :=
  littleEndian 2 type.raw.toNat ++ [0, 0] ++ littleEndian 4 payloadLen ++
    littleEndian 8 sequence.toNat ++ littleEndian 8 timestamp.toNat ++
    littleEndian 4 payloadCrc.toNat ++ [0, 0, 0, 0]

/-- The bytes a record takes in either file. -/
def encodeRecord (r : DurableRecord) : Bytes :=
  encodeRecordHeader r.type r.payload.length r.sequence r.timestampNs (crc32c r.payload) ++
    r.payload

/-- The record a header and a payload stand for. -/
def recordOf (header payload : Bytes) : DurableRecord where
  type := .ofRaw (UInt16.ofNat (field header 0 2))
  sequence := UInt64.ofNat (field header 8 8)
  timestampNs := UInt64.ofNat (field header 16 8)
  payload := payload

/-! ### Loading -/

/-- One turn of the loop of `load_journal`: the next record, unless the bytes stop replay. -/
def nextRecord (limits : Limits) (bytes : Bytes) : Option (DurableRecord × Bytes) :=
  if bytes.length < recordHeaderBytes then none
  else
    let payloadLen := field bytes 4 4
    let rest := bytes.drop recordHeaderBytes
    if payloadLen > limits.maxDurableRecordBytes.toNat then none
    else if rest.length < payloadLen then none
    else
      let payload := rest.take payloadLen
      if (crc32c payload).toNat ≠ field bytes 24 4 then none
      else some (recordOf bytes payload, rest.drop payloadLen)

/-- Records one after another, as the journal and the snapshot hold them. -/
def records (limits : Limits) : Framing DurableRecord UInt8 := ⟨encodeRecord, nextRecord limits⟩

/-- The loop of `load_journal`. -/
def replay (limits : Limits) (barrier : UInt64) : Nat → Bytes → List DurableRecord
  | 0, _ => []
  | n + 1, bytes =>
    match nextRecord limits bytes with
    | none => []
    | some (r, rest) =>
      if r.sequence ≤ barrier then replay limits barrier n rest
      else r :: replay limits barrier n rest

/-- `load_journal`. -/
def loadJournal (limits : Limits) (barrier : UInt64) : Option Bytes → StatusOr (List DurableRecord)
  | none => .ok []
  | some bytes =>
    if bytes.length > limits.maxJournalBytes.toNat then
      .error (.of .oversized "journal exceeds configured bound")
    else if bytes.length < journalHeaderBytes then .ok []
    else if bytes.take 4 ≠ journalMagic then
      .error (.of .integrityFailure "journal magic mismatch")
    else if field bytes 4 4 ≠ stateFormatVersion then
      .error (.of .unsupported "journal format version is not supported")
    else
      let body := bytes.drop journalHeaderBytes
      .ok (replay limits barrier body.length body)

/-- The loop of `load_snapshot` over the number of records the header names. -/
def readRecords (limits : Limits) : Nat → Bytes → StatusOr (List DurableRecord)
  | 0, _ => .ok []
  | n + 1, bytes =>
    if bytes.length < recordHeaderBytes then
      .error (.of .integrityFailure "snapshot record header is truncated")
    else
      let payloadLen := field bytes 4 4
      let rest := bytes.drop recordHeaderBytes
      if payloadLen > limits.maxDurableRecordBytes.toNat then
        .error (.of .oversized "snapshot record payload above bound")
      else if rest.length < payloadLen then
        .error (.of .integrityFailure "snapshot record payload is truncated")
      else
        let payload := rest.take payloadLen
        if (crc32c payload).toNat ≠ field bytes 24 4 then
          .error (.of .integrityFailure "snapshot record checksum mismatch")
        else
          match readRecords limits n (rest.drop payloadLen) with
          | .error status => .error status
          | .ok tail => .ok (recordOf bytes payload :: tail)

/-- `load_snapshot`: the records and the sequence barrier. -/
def loadSnapshot (limits : Limits) : Option Bytes → StatusOr (List DurableRecord × UInt64)
  | none => .ok ([], 0)
  | some bytes =>
    if bytes.length > (limits.maxJournalBytes * 4).toNat then
      .error (.of .oversized "snapshot exceeds configured bound")
    else if bytes.length < snapshotHeaderBytes then
      .error (.of .integrityFailure "snapshot header is truncated")
    else if bytes.take 4 ≠ snapshotMagic then
      .error (.of .integrityFailure "snapshot magic mismatch")
    else if field bytes 4 4 ≠ stateFormatVersion then
      .error (.of .unsupported "snapshot format version is not supported")
    else
      let body := bytes.drop snapshotHeaderBytes
      if (crc32c body).toNat ≠ field bytes 32 4 then
        .error (.of .integrityFailure "snapshot body checksum mismatch")
      else
        match readRecords limits (field bytes 16 8) body with
        | .error status => .error status
        | .ok records => .ok (records, UInt64.ofNat (field bytes 24 8))

/-! ### Files and the effects of writing them -/

/-- The files of the durable directory. -/
structure Files where
  snapshot : Option Bytes := none
  journal : Option Bytes := none
  temporary : Option Bytes := none
  deriving DecidableEq, Repr

/-- One effect on the files. -/
inductive Effect
  | createJournal
  | writeJournal (byte : UInt8)
  | createTemporary
  | writeTemporary (byte : UInt8)
  | replaceSnapshot
  deriving DecidableEq, Repr

/-- `createJournal` truncates a journal that exists; the replacement is atomic. -/
def Files.apply (files : Files) : Effect → Files
  | .createJournal => { files with journal := some [] }
  | .writeJournal byte => { files with journal := files.journal.map (· ++ [byte]) }
  | .createTemporary => { files with temporary := some [] }
  | .writeTemporary byte => { files with temporary := files.temporary.map (· ++ [byte]) }
  | .replaceSnapshot => { files with snapshot := files.temporary, temporary := none }

def Files.applyAll (files : Files) (effects : List Effect) : Files :=
  effects.foldl Files.apply files

/-- A journal with no records. -/
def journalHeader : Bytes :=
  journalMagic ++ littleEndian 4 stateFormatVersion ++ List.replicate 8 0

/-- The effects of creating or truncating the journal. -/
def freshJournal : List Effect := .createJournal :: journalHeader.map .writeJournal

/-- The effects of an append that passes its checks. -/
def appendEffects (r : DurableRecord) : List Effect := (encodeRecord r).map .writeJournal

/-- The header `checkpoint` puts in front of the body. -/
def encodeSnapshotHeader (count : Nat) (barrier : UInt64) (bodyCrc : UInt32) : Bytes :=
  snapshotMagic ++ littleEndian 4 stateFormatVersion ++ littleEndian 4 0 ++ littleEndian 4 0 ++
    littleEndian 8 count ++ littleEndian 8 barrier.toNat ++ littleEndian 4 bodyCrc.toNat ++
    littleEndian 4 0

/-- The snapshot file `checkpoint` writes. -/
def snapshotFile (compacted : List DurableRecord) : Bytes :=
  let body := compacted.flatMap encodeRecord
  encodeSnapshotHeader compacted.length (DurableStore.barrierOf compacted) (crc32c body) ++ body

/-- The effects of a checkpoint that passes its checks. -/
def checkpointEffects (compacted : List DurableRecord) : List Effect :=
  .createTemporary :: (snapshotFile compacted).map .writeTemporary ++
    .replaceSnapshot :: freshJournal

/-! ### The store -/

/-- `open`, with the effects it has on the files. -/
def openStore (limits : Limits) (files : Files) : StatusOr DurableStore × List Effect :=
  match loadSnapshot limits files.snapshot with
  | .error status => (.error status, [])
  | .ok (base, barrier) =>
    match loadJournal limits barrier files.journal with
    | .error status => (.error status, [])
    | .ok tail =>
      let effects := if files.journal.isNone then freshJournal else []
      let size := ((files.applyAll effects).journal.getD []).length
      (.ok { journalBytes := UInt64.ofNat size, sequenceBarrier := barrier,
             recovered := base ++ tail }, effects)

/-- The checks `append` runs before it writes. -/
def checkAppend (limits : Limits) (store : DurableStore) (r : DurableRecord) : Status :=
  if !store.isOpen || !store.journalOpen then
    .of .invalidState "durable store is not open"
  else if r.payload.length > limits.maxDurableRecordBytes.toNat then
    .of .oversized "durable record above configured bound"
  else
    match Checked.narrowU32 r.payload.length with
    | none => .of .oversized "durable record payload length is not representable"
    | some payloadLen =>
      if store.journalBytes + (UInt64.ofNat recordHeaderBytes + payloadLen.toUInt64) >
          limits.maxJournalBytes then
        .of .resourceExhausted "journal is at its configured bound; checkpoint required"
      else .success

/-- The store after an append whose effects all took place. -/
def appended (store : DurableStore) (r : DurableRecord) : DurableStore :=
  { store with
    journalBytes := store.journalBytes + UInt64.ofNat (recordHeaderBytes + r.payload.length)
    journalRecords := store.journalRecords + 1
    sequenceBarrier := max store.sequenceBarrier r.sequence }

/-- Appends one after another that all succeed. -/
def appendAll (limits : Limits) (store : DurableStore) (files : Files) :
    List DurableRecord → Option (DurableStore × Files)
  | [] => some (store, files)
  | r :: rest =>
    if (checkAppend limits store r).isOk then
      appendAll limits (appended store r) (files.applyAll (appendEffects r)) rest
    else none

/-- The checks `checkpoint` runs before it writes. -/
def checkCheckpoint (limits : Limits) (store : DurableStore) (compacted : List DurableRecord) :
    Status :=
  let valid := DurableStore.checkCompacted limits 0 compacted
  if !valid.isOk then valid
  else if !store.isOpen then .of .invalidState "durable store is not open"
  else .success

/-- The store after a checkpoint whose effects all took place. -/
def checkpointed (store : DurableStore) (compacted : List DurableRecord) : DurableStore :=
  { store with
    journalOpen := true
    journalBytes := UInt64.ofNat journalHeaderBytes
    journalRecords := 0
    sequenceBarrier := DurableStore.barrierOf compacted }

end DurableFile

end Pacing
