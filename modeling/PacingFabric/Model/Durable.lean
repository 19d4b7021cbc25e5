import PacingFabric.Model.Status
import PacingFabric.Model.Checked
import PacingFabric.Model.Limits
import Mathlib.Algebra.GroupWithZero.Nat

/-!
# The durable store, record by record

One snapshot and one append-only journal. Here the files are sequences of records: the
bytes an unfinished write leaves behind stop replay, and are kept as a count only, since
sizes decide what the store accepts. What a failing file operation leaves is up to the
environment, which answers each operation by its number.
-/

namespace Pacing

/-- The record types, in the order of the source; a file can hold any 16-bit value. -/
inductive DurableRecordType
  | metaRecord | flowBinding | policy | envelope | attempt | envelopeRevocation | epochAdvance
  | backendRegistration | flowUnbound | policyRemoved
  | unlisted (raw : UInt16) (beyond : raw = 0 ∨ 11 ≤ raw.toNat)
  deriving DecidableEq, Repr

structure DurableRecord where
  type : DurableRecordType := .metaRecord
  sequence : UInt64 := 0
  timestampNs : UInt64 := 0
  payload : Bytes := []
  deriving DecidableEq, Repr

def snapshotHeaderBytes : Nat := 40
def journalHeaderBytes : Nat := 16
def recordHeaderBytes : Nat := 32

/-- The bytes a record takes in either file. -/
def DurableRecord.size (r : DurableRecord) : Nat := recordHeaderBytes + r.payload.length

structure Snapshot where
  records : List DurableRecord := []
  barrier : UInt64 := 0
  deriving DecidableEq, Repr

def Snapshot.size (s : Snapshot) : Nat :=
  snapshotHeaderBytes + (s.records.map DurableRecord.size).sum

/-- A complete record of the journal, or the bytes of an append that did not finish. -/
inductive JournalItem
  | record (r : DurableRecord)
  | torn (bytes : Nat)
  deriving DecidableEq, Repr

def JournalItem.size : JournalItem → Nat
  | .record r => r.size
  | .torn bytes => bytes

/-- The journal file: as much of its header as was written, and what follows. -/
structure Journal where
  headerBytes : Nat := journalHeaderBytes
  items : List JournalItem := []
  deriving DecidableEq, Repr

namespace Journal

def size (j : Journal) : Nat := j.headerBytes + (j.items.map JournalItem.size).sum

/-- The records before the first unfinished write. -/
def readable : List JournalItem → List DurableRecord
  | .record r :: rest => r :: readable rest
  | _ => []

end Journal

/-- The files of a durable directory. `operations` counts the file operations so far. -/
structure Disk where
  snapshot : Option Snapshot := none
  journal : Option Journal := none
  operations : Nat := 0

/-- How the environment answers `open`. -/
inductive OpenOutcome
  | ok
  | refused (detail : Bytes)
  | headerTorn (bytes : Nat)
  deriving DecidableEq, Repr

/-- What a failing append leaves in the file. -/
inductive Leftover
  | nothing
  | torn (bytes : Nat)
  | record
  deriving DecidableEq, Repr

/-- How the environment answers `append`. -/
inductive AppendOutcome
  | ok
  | headerFailed (left : Leftover)
  | payloadFailed (left : Leftover)
  | flushFailed (left : Leftover)
  deriving DecidableEq, Repr

/-- How the environment answers `checkpoint`. The snapshot is in place from `notTruncated`
on. -/
inductive CheckpointOutcome
  | ok
  | notReplaced (detail : Bytes)
  | notTruncated
  | headerTorn (bytes : Nat)
  | notReopened
  deriving DecidableEq, Repr

/-- The answers of the file system, by operation number. -/
structure FileAnswers where
  opening : OpenOutcome := .ok
  append : Nat → AppendOutcome := fun _ => .ok
  checkpoint : Nat → CheckpointOutcome := fun _ => .ok

/-- The open store object. -/
structure DurableStore where
  isOpen : Bool := true
  journalOpen : Bool := true
  journalBytes : UInt64 := 0
  journalRecords : UInt64 := 0
  sequenceBarrier : UInt64 := 0
  recovered : List DurableRecord := []

namespace DurableStore

def needsCheckpoint (limits : Limits) (store : DurableStore) : Bool :=
  decide (store.journalRecords ≥ limits.maxJournalRecords.toUInt64) ||
    decide (store.journalBytes ≥ (limits.maxJournalBytes * 3) / 4)

/-- `load_snapshot`: the records and the sequence barrier. -/
def loadSnapshot (limits : Limits) : Option Snapshot → StatusOr (List DurableRecord × UInt64)
  | none => .ok ([], 0)
  | some snapshot =>
    if snapshot.size > (limits.maxJournalBytes * 4).toNat then
      .error (.of .oversized "snapshot exceeds configured bound")
    else if snapshot.records.any
        fun r => decide (r.payload.length > limits.maxDurableRecordBytes.toNat) then
      .error (.of .oversized "snapshot record payload above bound")
    else .ok (snapshot.records, snapshot.barrier)

/-- `load_journal`: the records above the barrier before the first unfinished write. A
header that is cut short is an empty journal as long as nothing follows it. -/
def loadJournal (limits : Limits) (barrier : UInt64) :
    Option Journal → StatusOr (List DurableRecord)
  | none => .ok []
  | some journal =>
    if journal.size > limits.maxJournalBytes.toNat then
      .error (.of .oversized "journal exceeds configured bound")
    else if journal.size < journalHeaderBytes then .ok []
    else if journal.headerBytes < 4 then
      .error (.of .integrityFailure "journal magic mismatch")
    else if journal.headerBytes < 8 then
      .error (.of .unsupported "journal format version is not supported")
    else if journal.headerBytes < journalHeaderBytes then .ok []
    else .ok ((Journal.readable journal.items |>.takeWhile fun r =>
        decide (r.payload.length ≤ limits.maxDurableRecordBytes.toNat)).filter
      fun r => decide (barrier < r.sequence))

/-- `open`: both files are loaded before the journal is created. -/
def openStore (limits : Limits) (disk : Disk) (outcome : OpenOutcome) :
    StatusOr DurableStore × Disk :=
  match outcome with
  | .refused detail => (.error (.of .ioFailure detail), disk)
  | _ =>
    match loadSnapshot limits disk.snapshot with
    | .error status => (.error status, disk)
    | .ok (base, barrier) =>
      match loadJournal limits barrier disk.journal with
      | .error status => (.error status, disk)
      | .ok tail =>
        match disk.journal, outcome with
        | none, .headerTorn bytes =>
          (.error (.of .ioFailure "journal header was not made durable"),
            { disk with journal := some { headerBytes := min bytes journalHeaderBytes } })
        | none, _ =>
          (.ok { journalBytes := UInt64.ofNat journalHeaderBytes, sequenceBarrier := barrier,
                 recovered := base ++ tail },
            { disk with journal := some {} })
        | some journal, _ =>
          (.ok { journalBytes := UInt64.ofNat journal.size, sequenceBarrier := barrier,
                 recovered := base ++ tail }, disk)

/-- The journal file after an append that left `left` of the record. -/
def leave (disk : Disk) (record : DurableRecord) : Leftover → Disk
  | .nothing => disk
  | .torn bytes =>
    { disk with journal := disk.journal.map fun j =>
        { j with items := j.items ++ [.torn bytes] } }
  | .record =>
    { disk with journal := disk.journal.map fun j =>
        { j with items := j.items ++ [.record record] } }

def append (limits : Limits) (store : DurableStore) (disk : Disk) (record : DurableRecord)
    (outcome : AppendOutcome) : Status × DurableStore × Disk :=
  if !store.isOpen || !store.journalOpen then
    (.of .invalidState "durable store is not open", store, disk)
  else if record.payload.length > limits.maxDurableRecordBytes.toNat then
    (.of .oversized "durable record above configured bound", store, disk)
  else
    match Checked.narrowU32 record.payload.length with
    | none =>
      (.of .oversized "durable record payload length is not representable", store, disk)
    | some payloadLen =>
      let total := UInt64.ofNat recordHeaderBytes + payloadLen.toUInt64
      if store.journalBytes + total > limits.maxJournalBytes then
        (.of .resourceExhausted "journal is at its configured bound; checkpoint required",
          store, disk)
      else
        match outcome with
        | .headerFailed left =>
          (.of .ioFailure "journal header write failed", store, leave disk record left)
        | .payloadFailed left =>
          (.of .ioFailure "journal payload write failed", store, leave disk record left)
        | .flushFailed left =>
          (.of .ioFailure "journal flush failed", store, leave disk record left)
        | .ok =>
          (.success,
            { store with
              journalBytes := store.journalBytes + total
              journalRecords := store.journalRecords + 1
              sequenceBarrier := max store.sequenceBarrier record.sequence },
            leave disk record .record)

/-- The checks `checkpoint` runs on the compacted set before it touches a file. -/
def checkCompacted (limits : Limits) : Nat → List DurableRecord → Status
  | _, [] => .success
  | count, r :: rest =>
    if r.payload.length > limits.maxDurableRecordBytes.toNat then
      .of .oversized "compacted record above configured bound"
    else if (Checked.narrowU32 r.payload.length).isNone then
      .of .oversized "compacted payload length is not representable"
    else if count ≥ limits.maxCompactionBatch.toNat then
      .of .resourceExhausted "compaction batch above configured bound"
    else checkCompacted limits (count + 1) rest

/-- The highest sequence of the compacted set. -/
def barrierOf (compacted : List DurableRecord) : UInt64 :=
  compacted.foldl (fun barrier r => max barrier r.sequence) 0

def checkpoint (limits : Limits) (store : DurableStore) (disk : Disk)
    (compacted : List DurableRecord) (outcome : CheckpointOutcome) :
    Status × DurableStore × Disk :=
  let valid := checkCompacted limits 0 compacted
  if !valid.isOk then (valid, store, disk)
  else if !store.isOpen then
    (.of .invalidState "durable store is not open", store, disk)
  else
    let snapshot : Snapshot := ⟨compacted, barrierOf compacted⟩
    let closed := { store with journalOpen := false }
    match outcome with
    | .notReplaced detail => (.of .ioFailure detail, store, disk)
    | .notTruncated =>
      (.of .ioFailure "cannot truncate journal", closed,
        { disk with snapshot := some snapshot })
    | .headerTorn bytes =>
      (.of .ioFailure "journal truncation was not made durable", closed,
        { disk with
          snapshot := some snapshot
          journal := some { headerBytes := min bytes journalHeaderBytes } })
    | .notReopened =>
      (.of .ioFailure "cannot reopen journal", closed,
        { disk with snapshot := some snapshot, journal := some {} })
    | .ok =>
      (.success,
        { store with
          journalOpen := true
          journalBytes := UInt64.ofNat journalHeaderBytes
          journalRecords := 0
          sequenceBarrier := snapshot.barrier },
        { disk with snapshot := some snapshot, journal := some {} })

end DurableStore

end Pacing
