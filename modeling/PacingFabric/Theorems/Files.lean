import PacingFabric.Theorems.Checkpoint

/-!
# The files behind the records

The durable store is modelled twice: record by record, where the environment answers each file
operation with one of a few outcomes, and byte by byte, where a crash may come after any effect
on the files. The bytes of the second stand for the records of the first: what one reads the
other reads, and wherever a crash cuts an operation short, one of the outcomes describes it.

## Main definitions

* `ItemBytes`: the bytes of the items of a journal, the last of which may be cut short.
* `Stands`: files that hold what a disk says.

## Main results

* `openStore_stands`: both read the same, or refuse with the same status.
* `crash_stands`: over any number of operations and a crash inside the next one.
-/

namespace Pacing.DurableFile

/-! ### Journals -/

/-- The bytes of the items of a journal; only the last may be part of a record. -/
inductive ItemBytes : List JournalItem → Bytes → Prop
  | nil : ItemBytes [] []
  | torn {r : DurableRecord} {p : Bytes} (short : r.payload.length < 2 ^ 32)
      (part : p <+: encodeRecord r) (proper : p ≠ encodeRecord r) : ItemBytes [.torn p.length] p
  | record {r : DurableRecord} {items : List JournalItem} {bytes : Bytes}
      (short : r.payload.length < 2 ^ 32) (rest : ItemBytes items bytes) :
      ItemBytes (.record r :: items) (encodeRecord r ++ bytes)

section
variable {limits : Limits} {r : DurableRecord} {items : List JournalItem} {bytes : Bytes}

/-- A record above the bound of the reader stops it, as far as its header goes. -/
theorem nextRecord_oversized (short : r.payload.length < 2 ^ 32)
    (hover : limits.maxDurableRecordBytes.toNat < r.payload.length) (rest : Bytes) :
    nextRecord limits (headerOf r ++ rest) = none := by
  have hlength : field (headerOf r ++ rest) 4 4 = r.payload.length :=
    field_payloadLen _ _ _ _ _ _ short
  unfold nextRecord
  rw [if_neg (by simp)]
  dsimp only
  rw [hlength, if_pos hover]

/-- Part of a record is none. -/
theorem nextRecord_torn {p : Bytes} (short : r.payload.length < 2 ^ 32)
    (part : p <+: encodeRecord r) (proper : p ≠ encodeRecord r) : nextRecord limits p = none := by
  by_cases hfit : r.payload.length ≤ limits.maxDurableRecordBytes.toNat
  · have hlawful := records_lawful limits
    exact hlawful.next_prefix r p ⟨hfit, short⟩ part proper
  by_cases hlong : p.length < recordHeaderBytes
  · unfold nextRecord
    rw [if_pos hlong]
  · have hheader : headerOf r <+: p := by
      refine List.prefix_of_prefix_length_le (List.prefix_append _ r.payload) part ?_
      rw [length_headerOf]
      exact Nat.le_of_not_lt hlong
    obtain ⟨rest, rfl⟩ := hheader
    exact nextRecord_oversized short (Nat.lt_of_not_le hfit) rest

theorem ItemBytes.length (h : ItemBytes items bytes) :
    bytes.length = (items.map JournalItem.size).sum := by
  induction h with
  | nil => rfl
  | torn => simp [JournalItem.size]
  | record _ _ ih => simp [JournalItem.size, ih]

/-- The records before the first that is cut short or above the bound. -/
theorem ItemBytes.read (h : ItemBytes items bytes) : (records limits).read bytes =
    (Journal.readable items).takeWhile
      fun r => decide (r.payload.length ≤ limits.maxDurableRecordBytes.toNat) := by
  induction h with
  | nil => rfl
  | torn short part proper =>
    rw [Framing.Lawful.read_of_none (nextRecord_torn short part proper)]
    rfl
  | @record r items bytes short _ ih =>
    by_cases hfit : r.payload.length ≤ limits.maxDurableRecordBytes.toNat
    · have hnext := (records_lawful limits).next_append r bytes ⟨hfit, short⟩
      rw [records_encode] at hnext
      rw [(records_lawful limits).read_of_next hnext, ih, Journal.readable,
        List.takeWhile_cons_of_pos (by simpa using hfit)]
    · have hnext : (records limits).next (encodeRecord r ++ bytes) = none := by
        rw [records_next, encodeRecord_eq, List.append_assoc]
        exact nextRecord_oversized short (Nat.lt_of_not_le hfit) _
      rw [Framing.Lawful.read_of_none hnext, Journal.readable,
        List.takeWhile_cons_of_neg (by simpa using hfit)]

theorem itemBytes_records {rs : List DurableRecord} (h : ∀ r ∈ rs, r.payload.length < 2 ^ 32)
    (hrest : ItemBytes items bytes) :
    ItemBytes (rs.map .record ++ items) (rs.flatMap encodeRecord ++ bytes) := by
  induction rs with
  | nil => exact hrest
  | cons r rs ih =>
    rw [List.flatMap_cons, List.append_assoc]
    exact .record (h r List.mem_cons_self) (ih fun s hs => h s (List.mem_cons_of_mem r hs))

/-- The journal file of a journal: it may be cut short inside its header, or at its end. -/
inductive StandsJournal : Option Bytes → Option Journal → Prop
  | none : StandsJournal none none
  | cut {n : ℕ} (short : n < journalHeaderBytes) :
      StandsJournal (some (journalHeader.take n)) (some { headerBytes := n })
  | whole {items : List JournalItem} {bytes : Bytes} (written : ItemBytes items bytes) :
      StandsJournal (some (journalHeader ++ bytes)) (some { items })

theorem StandsJournal.size {file : Bytes} {journal : Journal}
    (h : StandsJournal (some file) (some journal)) : journal.size = file.length := by
  cases h with
  | cut short =>
    rw [List.length_take, length_journalHeader]
    exact (Nat.min_eq_left (Nat.le_of_lt short)).symm
  | whole written =>
    rw [List.length_append, length_journalHeader, written.length]
    rfl

theorem StandsJournal.load {file : Option Bytes} {journal : Option Journal}
    (h : StandsJournal file journal) (barrier : UInt64) :
    loadJournal limits barrier file = DurableStore.loadJournal limits barrier journal := by
  cases h with
  | none => rfl
  | @cut n short =>
    have hsize := (StandsJournal.cut short).size
    have hlength : (journalHeader.take n).length < journalHeaderBytes := by
      rw [List.length_take]
      exact Nat.lt_of_le_of_lt (Nat.min_le_left _ _) short
    unfold loadJournal DurableStore.loadJournal
    dsimp only
    rw [hsize]
    rw [if_pos hlength]
    split <;> rfl
  | @whole items bytes written =>
    have hsize := (StandsJournal.whole written).size
    by_cases hbig : (journalHeader ++ bytes).length > limits.maxJournalBytes.toNat
    · unfold loadJournal DurableStore.loadJournal
      dsimp only
      rw [hsize, if_pos hbig, if_pos hbig]
    · have hlong : ¬ (journalHeader ++ bytes).length < journalHeaderBytes := by
        rw [List.length_append, length_journalHeader]
        exact Nat.not_lt.2 (Nat.le_add_right _ _)
      rw [loadJournal_header barrier (Nat.le_of_not_lt hbig), written.read]
      unfold DurableStore.loadJournal
      dsimp only
      rw [hsize, if_neg hbig, if_neg hlong, if_neg (by decide), if_neg (by decide),
        if_neg (by decide)]

end

/-! ### Snapshots -/

section
variable {limits : Limits}

/-- The file of a snapshot. -/
def snapshotBytes (s : Snapshot) : Bytes :=
  encodeSnapshotHeader s.records.length s.barrier (crc32c (s.records.flatMap encodeRecord)) ++
    s.records.flatMap encodeRecord

/-- What the format of a snapshot can hold. -/
def Writable (s : Snapshot) : Prop :=
  s.records.length < 2 ^ 64 ∧ ∀ r ∈ s.records, r.payload.length < 2 ^ 32

theorem readRecords_items {rs : List DurableRecord} (h : ∀ r ∈ rs, r.payload.length < 2 ^ 32) :
    readRecords limits rs.length (rs.flatMap encodeRecord) =
      if rs.any fun r => decide (r.payload.length > limits.maxDurableRecordBytes.toNat) then
        .error (.of .oversized "snapshot record payload above bound")
      else .ok rs := by
  induction rs with
  | nil => rfl
  | cons r rs ih =>
    have short := h r List.mem_cons_self
    have hrest := ih fun s hs => h s (List.mem_cons_of_mem r hs)
    rw [List.flatMap_cons, List.length_cons, List.any_cons]
    by_cases hfit : r.payload.length ≤ limits.maxDurableRecordBytes.toNat
    · have hnext := (records_lawful limits).next_append r (rs.flatMap encodeRecord) ⟨hfit, short⟩
      rw [records_next, records_encode] at hnext
      rw [readRecords_of_next _ hnext, hrest, decide_eq_false (Nat.not_lt.2 hfit), Bool.false_or]
      split <;> rfl
    · have hlength : field (headerOf r ++ (r.payload ++ rs.flatMap encodeRecord)) 4 4 =
          r.payload.length := field_payloadLen _ _ _ _ _ _ short
      rw [decide_eq_true (Nat.lt_of_not_le hfit), Bool.true_or, if_pos rfl, encodeRecord_eq,
        List.append_assoc, readRecords, if_neg (by simp)]
      dsimp only
      rw [hlength, if_pos (Nat.lt_of_not_le hfit)]

theorem length_snapshotBytes (s : Snapshot) : (snapshotBytes s).length = s.size := by
  rw [snapshotBytes, List.length_append, length_encodeSnapshotHeader, Snapshot.size,
    length_flatMap_encodeRecord]

theorem loadSnapshot_bytes {s : Snapshot} (h : Writable s) :
    loadSnapshot limits (some (snapshotBytes s)) = DurableStore.loadSnapshot limits (some s) := by
  have hlength := length_snapshotBytes s
  by_cases hbig : s.size > (limits.maxJournalBytes * 4).toNat
  · unfold loadSnapshot DurableStore.loadSnapshot
    dsimp only
    rw [hlength, if_pos hbig, if_pos hbig]
  · rw [snapshotBytes, List.length_append, length_encodeSnapshotHeader] at hlength
    rw [snapshotBytes, loadSnapshot_header h.1 (hlength ▸ Nat.le_of_not_lt hbig),
      readRecords_items h.2]
    unfold DurableStore.loadSnapshot
    dsimp only
    rw [if_neg hbig]
    split <;> rfl

end

/-! ### Disks -/

/-- The files hold what the disk says. -/
structure Stands (files : Files) (disk : Disk) : Prop where
  snapshot : files.snapshot = disk.snapshot.map snapshotBytes
  writable : ∀ s, disk.snapshot = some s → Writable s
  journal : StandsJournal files.journal disk.journal

variable {limits : Limits} {files : Files} {disk : Disk}

theorem Stands.loadSnapshot (h : Stands files disk) :
    loadSnapshot limits files.snapshot = DurableStore.loadSnapshot limits disk.snapshot := by
  rw [h.snapshot]
  cases hs : disk.snapshot with
  | none => rfl
  | some s => exact loadSnapshot_bytes (h.writable s hs)

/-- Both models open alike: they recover the same records, or refuse with the same status. -/
theorem openStore_stands (h : Stands files disk) :
    (openStore limits files).1 = (DurableStore.openStore limits disk .ok).1 := by
  unfold openStore DurableStore.openStore
  dsimp only
  rw [h.loadSnapshot]
  cases DurableStore.loadSnapshot limits disk.snapshot with
  | error status => rfl
  | ok base =>
    dsimp only
    rw [h.journal.load]
    cases DurableStore.loadJournal limits base.2 disk.journal with
    | error status => rfl
    | ok tail =>
      obtain ⟨snapshot, journal, operations⟩ := disk
      obtain ⟨snapshotFile, journalFile, temporary⟩ := files
      have hjournal := h.journal
      dsimp only at hjournal ⊢
      cases journal with
      | none =>
        cases hjournal
        rfl
      | some journal =>
        cases journalFile with
        | none => cases hjournal
        | some file =>
          dsimp only
          rw [hjournal.size]
          rfl

/-! ### Operations -/

/-- An operation of an open store. -/
inductive StoreOp
  | append (r : DurableRecord)
  | checkpoint (compacted : List DurableRecord)

namespace StoreOp

/-- The checks that come before the first effect. -/
def check (limits : Limits) (store : DurableStore) : StoreOp → Status
  | .append r => checkAppend limits store r
  | .checkpoint compacted => checkCheckpoint limits store compacted

def effects : StoreOp → List Effect
  | .append r => appendEffects r
  | .checkpoint compacted => checkpointEffects compacted

/-- The store once all effects have taken place. -/
def done (store : DurableStore) : StoreOp → DurableStore
  | .append r => appended store r
  | .checkpoint compacted => checkpointed store compacted

/-- How the environment may answer an operation, record by record. -/
structure Outcome where
  append : AppendOutcome := .ok
  checkpoint : CheckpointOutcome := .ok

/-- The operation, record by record. -/
def perform (limits : Limits) (store : DurableStore) (disk : Disk) (outcome : Outcome) :
    StoreOp → Status × DurableStore × Disk
  | .append r => DurableStore.append limits store disk r outcome.append
  | .checkpoint compacted => DurableStore.checkpoint limits store disk compacted outcome.checkpoint

end StoreOp

/-- Files that stand for a disk on which no write was cut short. -/
structure Intact (files : Files) (disk : Disk) : Prop where
  snapshot : files.snapshot = disk.snapshot.map snapshotBytes
  writable : ∀ s, disk.snapshot = some s → Writable s
  journal : ∃ rs : List DurableRecord, (∀ r ∈ rs, r.payload.length < 2 ^ 32) ∧
    files.journal = some (journalHeader ++ rs.flatMap encodeRecord) ∧
    disk.journal = some { items := rs.map .record }

section
variable {store : DurableStore} {r : DurableRecord} {compacted : List DurableRecord}

/-- What the checks of an append that passes them say. -/
theorem of_checkAppend (h : (checkAppend limits store r).isOk = true) :
    ¬ (!store.isOpen || !store.journalOpen) = true ∧
      ¬ r.payload.length > limits.maxDurableRecordBytes.toNat ∧
        ∃ payloadLen, Checked.narrowU32 r.payload.length = some payloadLen ∧
          ¬ store.journalBytes + (UInt64.ofNat recordHeaderBytes + payloadLen.toUInt64) >
            limits.maxJournalBytes := by
  unfold checkAppend at h
  split at h
  · cases h
  rename_i hopen
  split at h
  · cases h
  rename_i hfit
  split at h
  · cases h
  rename_i payloadLen hnarrow
  split at h
  · cases h
  rename_i hroom
  exact ⟨hopen, hfit, payloadLen, hnarrow, hroom⟩

theorem short_of_checkAppend (h : (checkAppend limits store r).isOk = true) :
    r.payload.length < 2 ^ 32 := by
  obtain ⟨-, -, payloadLen, hnarrow, -⟩ := of_checkAppend h
  by_contra hlong
  have hnone := narrowU32_isNone_iff.2 (Nat.le_of_not_lt hlong)
  rw [hnarrow] at hnone
  cases hnone

/-- What an append that passes its checks leaves on the disk, as the environment answers. -/
def leftBy : AppendOutcome → Leftover
  | .ok => .record
  | .headerFailed left | .payloadFailed left | .flushFailed left => left

theorem append_leaves (h : (checkAppend limits store r).isOk = true) (outcome : AppendOutcome) :
    (DurableStore.append limits store disk r outcome).2.2 =
      DurableStore.leave disk r (leftBy outcome) := by
  obtain ⟨hopen, hfit, payloadLen, hnarrow, hroom⟩ := of_checkAppend h
  unfold DurableStore.append
  rw [if_neg hopen, if_neg hfit, hnarrow]
  dsimp only
  rw [if_neg hroom]
  cases outcome <;> rfl

theorem append_appended (h : (checkAppend limits store r).isOk = true) :
    (DurableStore.append limits store disk r .ok).2.1 = appended store r := by
  obtain ⟨hopen, hfit, payloadLen, hnarrow, hroom⟩ := of_checkAppend h
  -- the two sums agree because the narrowed length is the length
  have htotal : UInt64.ofNat recordHeaderBytes + payloadLen.toUInt64 =
      UInt64.ofNat (recordHeaderBytes + r.payload.length) := by
    unfold Checked.narrowU32 at hnarrow
    split at hnarrow
    · cases hnarrow
    · obtain rfl := Option.some.inj hnarrow
      rw [UInt64.ofNat_add]
      congr 1
      apply UInt64.toNat_inj.1
      rw [UInt32.toNat_toUInt64, UInt32.toNat_ofNat', UInt64.toNat_ofNat']
      omega
  unfold DurableStore.append
  rw [if_neg hopen, if_neg hfit, hnarrow]
  dsimp only
  rw [if_neg hroom, htotal]
  rfl

/-- Wherever an append is cut short, one of the outcomes describes what is left. -/
theorem append_stands (h : Intact files disk) (hcheck : (checkAppend limits store r).isOk = true)
    (k : ℕ) : ∃ outcome, Stands (files.applyAll ((appendEffects r).take k))
      (DurableStore.append limits store disk r outcome).2.2 := by
  obtain ⟨hsnapshot, hwritable, rs, hshort, hfile, hdisk⟩ := h
  have hfiles : files.applyAll ((appendEffects r).take k) =
      { files with journal := some (journalHeader ++
        (rs.flatMap encodeRecord ++ (encodeRecord r).take k)) } := by
    rw [appendEffects, ← List.map_take, Files.applyAll_writeJournal, hfile, Option.map_some,
      List.append_assoc]
  have hr := short_of_checkAppend hcheck
  rw [hfiles]
  by_cases hwhole : (encodeRecord r).take k = encodeRecord r
  · refine ⟨.ok, ?_⟩
    rw [append_leaves hcheck, hwhole]
    refine ⟨hsnapshot, hwritable, ?_⟩
    have hbytes := itemBytes_records hshort (.record hr .nil)
    rw [List.append_nil] at hbytes
    simpa [DurableStore.leave, leftBy, hdisk] using StandsJournal.whole hbytes
  · refine ⟨.headerFailed (.torn ((encodeRecord r).take k).length), ?_⟩
    rw [append_leaves hcheck]
    refine ⟨hsnapshot, hwritable, ?_⟩
    have hbytes := itemBytes_records hshort (.torn hr (List.take_prefix k _) hwhole)
    simpa [DurableStore.leave, leftBy, hdisk] using StandsJournal.whole hbytes

theorem append_intact (h : Intact files disk) (hcheck : (checkAppend limits store r).isOk = true) :
    Intact (files.applyAll (appendEffects r))
      (DurableStore.append limits store disk r .ok).2.2 := by
  obtain ⟨hsnapshot, hwritable, rs, hshort, hfile, hdisk⟩ := h
  have hr := short_of_checkAppend hcheck
  rw [appendEffects, Files.applyAll_writeJournal, append_leaves hcheck, hfile]
  refine ⟨hsnapshot, hwritable, rs ++ [r], ?_, ?_, ?_⟩
  · intro s hs
    rcases List.mem_append.1 hs with hs | hs
    · exact hshort s hs
    · exact List.mem_singleton.1 hs ▸ hr
  · simp
  · simp [DurableStore.leave, leftBy, hdisk]

theorem of_checkCheckpoint (h : (checkCheckpoint limits store compacted).isOk = true) :
    (DurableStore.checkCompacted limits 0 compacted).isOk = true ∧ store.isOpen = true := by
  unfold checkCheckpoint at h
  dsimp only at h
  split at h
  · rename_i hvalid
    rw [h] at hvalid
    cases hvalid
  · rename_i hvalid
    split at h
    · cases h
    · rename_i hopen
      exact ⟨by simpa using hvalid, by simpa using hopen⟩

theorem writable_compacted (h : (DurableStore.checkCompacted limits 0 compacted).isOk = true) :
    Writable ⟨compacted, DurableStore.barrierOf compacted⟩ :=
  ⟨Nat.lt_trans (length_lt_of_checkCompacted h) (by decide),
    fun r hr => ((fits_of_checkCompacted h).1 r hr).2⟩

/-- Wherever a checkpoint is cut short, one of the outcomes describes what is left. -/
theorem checkpoint_stands (h : Stands files disk)
    (hcheck : (checkCheckpoint limits store compacted).isOk = true) (k : ℕ) :
    ∃ outcome, Stands (files.applyAll ((checkpointEffects compacted).take k))
      (DurableStore.checkpoint limits store disk compacted outcome).2.2 := by
  obtain ⟨hvalid, hopen⟩ := of_checkCheckpoint hcheck
  have hwritable : ∀ s, some (⟨compacted, DurableStore.barrierOf compacted⟩ : Snapshot) = some s →
      Writable s := by
    rintro s ⟨⟩
    exact writable_compacted hvalid
  rcases Files.applyAll_take_checkpointEffects files compacted k with ⟨hsnapshot, hjournal⟩ |
    ⟨hsnapshot, hjournal | ⟨n, hjournal⟩⟩
  · refine ⟨.notReplaced [], ?_⟩
    simp only [DurableStore.checkpoint, hvalid, hopen, Bool.not_true]
    exact ⟨hsnapshot.trans h.snapshot, h.writable, hjournal ▸ h.journal⟩
  · refine ⟨.notTruncated, ?_⟩
    simp only [DurableStore.checkpoint, hvalid, hopen, Bool.not_true]
    exact ⟨hsnapshot, hwritable, hjournal ▸ h.journal⟩
  · by_cases hn : n < journalHeaderBytes
    · refine ⟨.headerTorn n, ?_⟩
      simp only [DurableStore.checkpoint, hvalid, hopen, Bool.not_true]
      refine ⟨hsnapshot, hwritable, ?_⟩
      rw [hjournal, Nat.min_eq_left (Nat.le_of_lt hn)]
      exact .cut hn
    · refine ⟨.ok, ?_⟩
      simp only [DurableStore.checkpoint, hvalid, hopen, Bool.not_true]
      refine ⟨hsnapshot, hwritable, ?_⟩
      rw [hjournal, List.take_of_length_le (by
        rw [length_journalHeader]
        exact Nat.le_of_not_lt hn)]
      exact StandsJournal.whole .nil

theorem checkpoint_intact (files : Files) (disk : Disk)
    (hcheck : (checkCheckpoint limits store compacted).isOk = true) :
    Intact (files.applyAll (checkpointEffects compacted))
        (DurableStore.checkpoint limits store disk compacted .ok).2.2 ∧
      (DurableStore.checkpoint limits store disk compacted .ok).2.1 =
        checkpointed store compacted := by
  obtain ⟨hvalid, hopen⟩ := of_checkCheckpoint hcheck
  rw [Files.applyAll_checkpointEffects]
  unfold DurableStore.checkpoint
  dsimp only
  rw [if_neg (by simp [hvalid]), if_neg (by simp [hopen])]
  refine ⟨⟨rfl, ?_, [], List.forall_mem_nil _, rfl, rfl⟩, rfl⟩
  rintro s ⟨⟩
  exact writable_compacted hvalid

end

/-! ### Runs -/

theorem Intact.stands (h : Intact files disk) : Stands files disk := by
  obtain ⟨hsnapshot, hwritable, rs, hshort, hfile, hdisk⟩ := h
  refine ⟨hsnapshot, hwritable, ?_⟩
  have hbytes := itemBytes_records hshort .nil
  rw [List.append_nil, List.append_nil] at hbytes
  rw [hfile, hdisk]
  exact .whole hbytes

/-- Operations one after another that all succeed, byte by byte. -/
def runOps (limits : Limits) : List StoreOp → DurableStore → Files → Option (DurableStore × Files)
  | [], store, files => some (store, files)
  | op :: rest, store, files =>
    if (op.check limits store).isOk then
      runOps limits rest (op.done store) (files.applyAll op.effects)
    else none

/-- The same operations, record by record. -/
def performAll (limits : Limits) : List StoreOp → DurableStore → Disk → DurableStore × Disk
  | [], store, disk => (store, disk)
  | op :: rest, store, disk =>
    performAll limits rest (op.perform limits store disk {}).2.1
      (op.perform limits store disk {}).2.2

theorem StoreOp.perform_intact {store : DurableStore} (op : StoreOp) (h : Intact files disk)
    (hcheck : (op.check limits store).isOk = true) :
    Intact (files.applyAll op.effects) (op.perform limits store disk {}).2.2 ∧
      (op.perform limits store disk {}).2.1 = op.done store := by
  cases op with
  | append r => exact ⟨append_intact h hcheck, append_appended hcheck⟩
  | checkpoint compacted => exact checkpoint_intact files disk hcheck

theorem StoreOp.crash {store : DurableStore} (op : StoreOp) (h : Intact files disk)
    (hcheck : (op.check limits store).isOk = true) (k : ℕ) :
    ∃ outcome, Stands (files.applyAll (op.effects.take k))
      (op.perform limits store disk outcome).2.2 := by
  cases op with
  | append r =>
    obtain ⟨outcome, hstands⟩ := append_stands h hcheck k
    exact ⟨{ append := outcome }, hstands⟩
  | checkpoint compacted =>
    obtain ⟨outcome, hstands⟩ := checkpoint_stands h.stands hcheck k
    exact ⟨{ checkpoint := outcome }, hstands⟩

theorem runOps_intact {ops : List StoreOp} {store store' : DurableStore} {files' : Files}
    (h : Intact files disk) (hrun : runOps limits ops store files = some (store', files')) :
    Intact files' (performAll limits ops store disk).2 ∧
      (performAll limits ops store disk).1 = store' := by
  induction ops generalizing store files disk with
  | nil =>
    obtain ⟨rfl, rfl⟩ := Prod.mk.inj (Option.some.inj hrun)
    exact ⟨h, rfl⟩
  | cons op ops ih =>
    rw [runOps] at hrun
    split at hrun
    · rename_i hcheck
      obtain ⟨hintact, hdone⟩ := op.perform_intact h hcheck
      rw [performAll, hdone]
      exact ih hintact hrun
    · cases hrun

/-- Over any number of appends and checkpoints, and wherever a crash cuts the next one short:
the store object is the one the records say, and what is recovered from the bytes, or why they
are refused, is what is recovered from the records for one of the outcomes of that operation. -/
theorem crash_stands {ops : List StoreOp} {store store' : DurableStore} {files' : Files}
    (h : Intact files disk) (hrun : runOps limits ops store files = some (store', files'))
    (next : StoreOp) (hcheck : (next.check limits store').isOk = true) (k : ℕ) :
    (performAll limits ops store disk).1 = store' ∧
      ∃ outcome, (openStore limits (files'.applyAll (next.effects.take k))).1 =
        (DurableStore.openStore limits
          (next.perform limits store' (performAll limits ops store disk).2 outcome).2.2 .ok).1 := by
  obtain ⟨hintact, hstore⟩ := runOps_intact h hrun
  obtain ⟨outcome, hstands⟩ := next.crash hintact hcheck k
  exact ⟨hstore, outcome, openStore_stands hstands⟩

/-- A directory whose journal has just been created. -/
theorem fresh_intact : Intact (({} : Files).applyAll freshJournal) { journal := some {} } :=
  ⟨rfl, fun s hs => absurd hs.symm (Option.some_ne_none s), [], List.forall_mem_nil _, rfl, rfl⟩

/-- One record, and a crash inside the header of the next. -/
theorem crash_stands_torn :
    ∃ store files outcome,
      runOps {} [.append { payload := [1] }] {} (({} : Files).applyAll freshJournal) =
        some (store, files) ∧
      (openStore {} (files.applyAll ((appendEffects { payload := [2] }).take 20))).1 =
        (DurableStore.openStore {} (DurableStore.append {} store (performAll {}
          [.append { payload := [1] }] {} { journal := some {} }).2 { payload := [2] }
            outcome).2.2 .ok).1 := by
  have hrun : runOps {} [.append { payload := [1] }] {} (({} : Files).applyAll freshJournal) =
      some (appended {} { payload := [1] }, (({} : Files).applyAll freshJournal).applyAll
        (appendEffects { payload := [1] })) := by
    rw [runOps, if_pos (by decide +kernel)]
    rfl
  have hcheck : ((StoreOp.append { payload := [2] }).check {}
      (appended {} { payload := [1] })).isOk = true := by decide +kernel
  obtain ⟨-, outcome, hsame⟩ := crash_stands fresh_intact hrun _ hcheck 20
  exact ⟨_, _, outcome.append, hrun, hsame⟩

end Pacing.DurableFile
