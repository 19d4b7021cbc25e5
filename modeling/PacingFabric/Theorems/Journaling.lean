import PacingFabric.Theorems.Readback
import Mathlib.Data.List.TakeWhile

/-!
# The files of a store whose writes succeed

As long as no file operation fails, the journal is a sequence of whole records above the
barrier of the snapshot, and journaling does one of three things: it appends a record, it
first replaces everything by a compacted set, or it is refused and at most compacts.

## Main definitions

* `Disk.Sealed`, `Storage.Sealed`: files without an unfinished write, and a store that
  knows their size.
* `Storage.Draws`: how many record numbers were drawn in between.
* `Fabric.Journals`: what the files hold after journaling a record.

## Main results

* `Fabric.journal_sealed`: journaling keeps the files sealed, as long as the record number
  does not wrap.
* `Disk.Sealed.openStore`: sealed files open, and every record is recovered.
-/

namespace Pacing

variable {limits : Limits} {f : Fabric} {a : Answers}

/-- No file operation fails. -/
structure FileAnswers.Succeeds (files : FileAnswers) : Prop where
  opening : files.opening = .ok
  append : ∀ n, files.append n = .ok
  checkpoint : ∀ n, files.checkpoint n = .ok

namespace Disk

/-- The sequence up to which the journal is ignored. -/
def barrier (disk : Disk) : UInt64 := (disk.snapshot.map Snapshot.barrier).getD 0

/-- Types and payloads, which is all that replay reads besides the sequence. -/
def log (disk : Disk) : List Fabric.Compacted := disk.records.map fun r => (r.type, r.payload)

/-- Files without an unfinished write, up to `sequence`. The journal is within its bound
unless it is empty, or larger than 64 bits can tell. -/
structure Sealed (limits : Limits) (sequence : UInt64) (disk : Disk) : Prop where
  snapshot : ∀ s, disk.snapshot = some s → s.barrier = DurableStore.barrierOf s.records ∧
    ∀ r ∈ s.records, r.payload.length ≤ limits.maxDurableRecordBytes.toNat
  journal : ∀ j, disk.journal = some j → ∃ rs : List DurableRecord,
    j = { items := rs.map .record } ∧ ∀ r ∈ rs, disk.barrier < r.sequence ∧
      r.payload.length ≤ limits.maxDurableRecordBytes.toNat
  size : ∀ j, disk.journal = some j → j.size ≤ limits.maxJournalBytes.toNat ∨ j.items = [] ∨
    journalHeaderBytes ≤ limits.maxJournalBytes.toNat ∧ 2 ^ 64 ≤ j.size
  sequences : ∀ r ∈ disk.records, r.sequence ≤ sequence

end Disk

namespace Storage

/-- Sealed files, and an open store that knows the size of its journal. -/
structure Sealed (limits : Limits) (s : Storage) : Prop where
  disk : s.disk.Sealed limits s.sequence
  store : ∀ store, s.durable = some store → store.isOpen = true ∧ store.journalOpen = true ∧
    ∃ j, s.disk.journal = some j ∧ store.journalBytes = UInt64.ofNat j.size

/-- `n` record numbers were drawn between `s` and `s'`: a file operation draws one for an
appended record, or one for each element of a compacted set. -/
structure Draws (limits : Limits) (s : Storage) (n : ℕ) (s' : Storage) : Prop where
  operations : s.disk.operations ≤ s'.disk.operations
  number : n ≤ (s'.disk.operations - s.disk.operations) * (limits.maxCompactionBatch.toNat + 1)
  sequence : s'.sequence = s.sequence + UInt64.ofNat n

namespace Draws
variable {s s' s'' : Storage} {n m : ℕ}

theorem refl (limits : Limits) (s : Storage) : s.Draws limits 0 s :=
  ⟨Nat.le_refl _, Nat.zero_le _, (UInt64.add_zero _).symm⟩

theorem trans (h : s.Draws limits n s') (h' : s'.Draws limits m s'') :
    s.Draws limits (n + m) s'' := by
  refine ⟨Nat.le_trans h.operations h'.operations, ?_, ?_⟩
  · have hsplit : s''.disk.operations - s.disk.operations =
        (s'.disk.operations - s.disk.operations) + (s''.disk.operations - s'.disk.operations) := by
      have := h.operations
      have := h'.operations
      omega
    rw [hsplit, Nat.add_mul]
    exact Nat.add_le_add h.number h'.number
  · rw [h'.sequence, h.sequence, UInt64.add_assoc, UInt64.ofNat_add]

/-- Numbers that have room do not wrap. -/
theorem toNat (h : s.Draws limits n s') (hroom : s.sequence.toNat + n < 2 ^ 64) :
    s'.sequence.toNat = s.sequence.toNat + n := by
  rw [h.sequence, UInt64.toNat_add, UInt64.toNat_ofNat', Nat.mod_eq_of_lt (by omega : n < 2 ^ 64),
    Nat.mod_eq_of_lt hroom]

end Draws

end Storage

/-! ### Sequences -/

theorem DurableStore.barrierOf_le {bound : UInt64} {rs : List DurableRecord}
    (h : ∀ r ∈ rs, r.sequence ≤ bound) : DurableStore.barrierOf rs ≤ bound := by
  refine List.foldlRecOn rs (fun barrier (r : DurableRecord) => max barrier r.sequence)
    (motive := fun b => b ≤ bound) (UInt64.zero_le ..) ?_
  intro b hb r hr
  change (if b ≤ r.sequence then _ else _) ≤ _
  split
  · exact h r hr
  · exact hb

theorem Disk.Sealed.barrier_le {sequence : UInt64} {disk : Disk}
    (h : disk.Sealed limits sequence) : disk.barrier ≤ sequence := by
  unfold Disk.barrier
  cases hs : disk.snapshot with
  | none => exact UInt64.zero_le ..
  | some s =>
    change s.barrier ≤ sequence
    rw [(h.snapshot s hs).1]
    exact DurableStore.barrierOf_le fun r hr =>
      h.sequences r (Disk.mem_records.2 (.inl ⟨s, hs, hr⟩))

/-- The numbers a compacted set is given. -/
theorem Fabric.sequence_numbered {now : Instant} {cs : List Compacted} {sequence : UInt64}
    (hroom : sequence.toNat + cs.length < 2 ^ 64) :
    ∀ r ∈ numbered now (sequence + 1) cs,
      r.sequence ≤ sequence + UInt64.ofNat cs.length := by
  induction cs generalizing sequence with
  | nil => simp [numbered]
  | cons c cs ih =>
    rw [List.length_cons] at hroom
    have hnext : (sequence + 1).toNat = sequence.toNat + 1 := by
      rw [UInt64.toNat_add, UInt64.toNat_one, Nat.mod_eq_of_lt (by omega)]
    have hlength : (UInt64.ofNat (c :: cs).length).toNat = cs.length + 1 := by
      rw [List.length_cons, UInt64.toNat_ofNat', Nat.mod_eq_of_lt (by omega)]
    have hrest : (UInt64.ofNat cs.length).toNat = cs.length := by
      rw [UInt64.toNat_ofNat', Nat.mod_eq_of_lt (by omega)]
    intro r hr
    rw [UInt64.le_iff_toNat_le, UInt64.toNat_add, hlength, Nat.mod_eq_of_lt (by omega)]
    rcases List.mem_cons.1 hr with rfl | hr
    · rw [hnext]
      omega
    · have hle := UInt64.le_iff_toNat_le.1 (ih (by omega) r hr)
      rw [UInt64.toNat_add, hnext, hrest, Nat.mod_eq_of_lt (by omega)] at hle
      omega

theorem Fabric.log_numbered (now : Instant) (sequence : UInt64) (cs : List Compacted) :
    (numbered now sequence cs).map (fun r => (r.type, r.payload)) = cs := by
  induction cs generalizing sequence with
  | nil => rfl
  | cons c cs ih =>
    change c :: (numbered now (sequence + 1) cs).map _ = _
    rw [ih]

/-! ### Compaction -/

/-- What the files hold once a compaction has run, or not. -/
def Fabric.Compacts (f : Fabric) (a : Answers) (base : List Compacted) : Prop :=
  base = f.storage.disk.log ∨ f.compacted a.checkpointDescribe = .ok base

/-- The files after a compaction. -/
theorem Disk.sealed_compacted {compacted : List DurableRecord} {sequence : UInt64} (n : ℕ)
    (hsize : ∀ r ∈ compacted, r.payload.length ≤ limits.maxDurableRecordBytes.toNat)
    (hsequences : ∀ r ∈ compacted, r.sequence ≤ sequence) :
    ({ snapshot := some ⟨compacted, DurableStore.barrierOf compacted⟩, journal := some {},
       operations := n } : Disk).Sealed limits sequence where
  snapshot := by
    intro s hs
    obtain rfl := Option.some.inj hs
    exact ⟨rfl, hsize⟩
  journal := by
    intro j hj
    obtain rfl := Option.some.inj hj
    exact ⟨[], rfl, by simp⟩
  size := by
    intro j hj
    obtain rfl := Option.some.inj hj
    exact .inr (.inl rfl)
  sequences := by
    intro r hr
    rcases Disk.mem_records.1 hr with ⟨s, hs, hmem⟩ | ⟨j, hj, hmem⟩
    · obtain rfl := Option.some.inj hs
      exact hsequences r hmem
    · obtain rfl := Option.some.inj hj
      cases hmem

/-- Counting a file operation. -/
theorem Disk.Sealed.count {sequence : UInt64} {disk : Disk} (h : disk.Sealed limits sequence)
    (n : ℕ) : ({ disk with operations := n } : Disk).Sealed limits sequence :=
  ⟨h.snapshot, h.journal, h.size, h.sequences⟩

/-- The set a checkpoint accepts is no larger than the batch. -/
theorem length_of_checkCompacted {now : Instant} {sequence : UInt64} {cs : List Fabric.Compacted}
    (h : (DurableStore.checkCompacted limits 0 (Fabric.numbered now sequence cs)).isOk = true) :
    cs.length ≤ limits.maxCompactionBatch.toNat := by
  obtain ⟨-, hnumber⟩ := DurableFile.checkCompacted_isOk_iff.1 h
  rw [Fabric.length_numbered, Nat.zero_add] at hnumber
  rcases hnumber with hnil | hle
  · have hzero := congrArg List.length hnil
    rw [Fabric.length_numbered] at hzero
    exact Nat.le_trans (Nat.le_of_eq hzero) (Nat.zero_le _)
  · exact hle

/-- A compaction, or none, when no file operation fails. -/
theorem Fabric.maybeCheckpoint_sealed (hlimits : f.config.limits = limits)
    (hfiles : a.files.Succeeds) :
    ∃ n, f.storage.Draws limits n (f.maybeCheckpoint a).2 ∧
      (f.maybeCheckpoint a).2.durable.isSome = f.storage.durable.isSome ∧
      (f.storage.sequence.toNat + n < 2 ^ 64 → f.storage.Sealed limits →
        (f.maybeCheckpoint a).2.Sealed limits ∧ f.Compacts a (f.maybeCheckpoint a).2.disk.log) := by
  -- no checkpoint is due, or there is no store to write one
  have hkeep : ∀ durable, f.storage.durable = durable → ∃ n, f.storage.Draws limits n f.storage ∧
      f.storage.durable.isSome = durable.isSome ∧
      (f.storage.sequence.toNat + n < 2 ^ 64 → f.storage.Sealed limits →
        f.storage.Sealed limits ∧ f.Compacts a f.storage.disk.log) :=
    fun _ hdurable => ⟨0, .refl .., hdurable ▸ rfl, fun _ h => ⟨h, .inl rfl⟩⟩
  unfold Fabric.maybeCheckpoint
  cases hstore : f.storage.durable with
  | none => exact hkeep _ hstore
  | some store =>
    dsimp only
    split
    · exact hkeep _ hstore
    cases hcs : f.compacted a.checkpointDescribe with
    | error status => exact hkeep _ hstore
    | ok cs =>
      dsimp only
      rw [hfiles.checkpoint, hlimits]
      unfold DurableStore.checkpoint
      cases hchecked : (DurableStore.checkCompacted limits 0
          (numbered a.checkpointNow (f.storage.sequence + 1) cs)).isOk with
      | false =>
        -- the set is refused before a file is touched
        simp only [hchecked, Bool.not_false, if_true]
        refine ⟨0, ⟨Nat.le_succ _, Nat.zero_le _, (UInt64.add_zero _).symm⟩, trivial, fun _ h => ?_⟩
        refine ⟨⟨h.disk.count _, fun s hs => ?_⟩, .inl rfl⟩
        obtain rfl := Option.some.inj hs
        exact h.store store hstore
      | true =>
        cases hopen : store.isOpen with
        | false =>
          simp only [hchecked, Bool.not_true, Bool.not_false, Bool.false_eq_true, if_false, if_true]
          refine ⟨0, ⟨Nat.le_succ _, Nat.zero_le _, (UInt64.add_zero _).symm⟩, trivial,
            fun _ h => ?_⟩
          exact absurd (h.store store hstore).1 (by simp [hopen])
        | true =>
          simp only [hchecked, Bool.not_true, Bool.false_eq_true, if_false]
          obtain ⟨hfits, -⟩ := DurableFile.checkCompacted_isOk_iff.1 hchecked
          -- each compacted record draws a number, and the journal starts again empty
          refine ⟨cs.length, ⟨Nat.le_succ _, ?_, rfl⟩, rfl, fun hroom h => ⟨⟨?_, fun s hs => ?_⟩,
            .inr ?_⟩⟩
          · rw [Nat.add_sub_cancel_left, Nat.one_mul]
            exact Nat.le_succ_of_le (length_of_checkCompacted hchecked)
          · exact Disk.sealed_compacted _ (fun r hr => (hfits r hr).1) (sequence_numbered hroom)
          · obtain rfl := Option.some.inj hs
            exact ⟨rfl, rfl, _, rfl, rfl⟩
          · rw [Disk.log, Disk.records]
            simp only [Option.map_some, Option.getD_some, List.filterMap_nil, List.append_nil]
            rw [log_numbered]
            exact hcs

/-! ### Appending -/

/-- Records that a journal holds. -/
theorem Disk.records_journal {disk : Disk} {rs : List DurableRecord}
    (h : disk.journal = some { items := rs.map .record }) :
    disk.records = (disk.snapshot.map Snapshot.records).getD [] ++ rs := by
  unfold Disk.records
  rw [h, Option.map_some, Option.getD_some, List.filterMap_map]
  change _ ++ rs.filterMap some = _
  rw [List.filterMap_some]

theorem Journal.size_concat (rs : List DurableRecord) (record : DurableRecord) :
    Journal.size { items := (rs ++ [record]).map .record } =
      Journal.size { items := rs.map .record } + record.size := by
  simp [Journal.size, JournalItem.size, Nat.add_assoc]

/-- A complete record of the next number. -/
theorem Disk.Sealed.leave {disk : Disk} {sequence : UInt64} (h : disk.Sealed limits sequence)
    {j : Journal} (hj : disk.journal = some j) {record : DurableRecord}
    (hroom : sequence.toNat + 1 < 2 ^ 64) (hnumber : record.sequence = sequence + 1)
    (hpayload : record.payload.length ≤ limits.maxDurableRecordBytes.toNat)
    (hsize : j.size + record.size ≤ limits.maxJournalBytes.toNat ∨
      journalHeaderBytes ≤ limits.maxJournalBytes.toNat ∧ 2 ^ 64 ≤ j.size + record.size) :
    (DurableStore.leave disk record .record).Sealed limits (sequence + 1) ∧
      (DurableStore.leave disk record .record).log = disk.log ++ [(record.type, record.payload)] ∧
      ∃ j', (DurableStore.leave disk record .record).journal = some j' ∧
        j'.size = j.size + record.size := by
  obtain ⟨rs, rfl, hrs⟩ := h.journal j hj
  -- the new number is above the barrier and every number before
  have hlt : sequence < sequence + 1 := by
    rw [UInt64.lt_iff_toNat_lt, UInt64.toNat_add, UInt64.toNat_one, Nat.mod_eq_of_lt (by omega)]
    omega
  have hleave : (DurableStore.leave disk record .record).journal =
      some { items := (rs ++ [record]).map .record } := by
    simp [DurableStore.leave, hj]
  have hrecords : (DurableStore.leave disk record .record).records = disk.records ++ [record] := by
    rw [Disk.records_journal hleave, Disk.records_journal hj, List.append_assoc]
    rfl
  refine ⟨⟨h.snapshot, fun j' hj' => ?_, fun j' hj' => ?_, fun r hr => ?_⟩, ?_,
    _, hleave, Journal.size_concat rs record⟩
  · obtain rfl := Option.some.inj (hleave.symm.trans hj')
    refine ⟨_, rfl, fun r hr => ?_⟩
    rcases List.mem_append.1 hr with hr | hr
    · exact hrs r hr
    · obtain rfl := List.mem_singleton.1 hr
      exact ⟨UInt64.lt_of_le_of_lt h.barrier_le (hnumber ▸ hlt), hpayload⟩
  · obtain rfl := Option.some.inj (hleave.symm.trans hj')
    rw [Journal.size_concat]
    exact hsize.imp_right .inr
  · rw [hrecords] at hr
    rcases List.mem_append.1 hr with hr | hr
    · exact UInt64.le_trans (h.sequences r hr) (UInt64.le_of_lt hlt)
    · obtain rfl := List.mem_singleton.1 hr
      exact hnumber ▸ UInt64.le_refl _
  · rw [Disk.log, Disk.log, hrecords, List.map_append, List.map_singleton]

theorem narrowU32_toNat {n : ℕ} {len : UInt32} (h : Checked.narrowU32 n = some len) :
    len.toNat = n := by
  unfold Checked.narrowU32 at h
  split at h
  · cases h
  · obtain rfl := Option.some.inj h
    rw [UInt32.toNat_ofNat', Nat.mod_eq_of_lt (by omega)]

/-- What the bound on the journal admits, in numbers that cannot wrap. -/
theorem admitted {limit size total : ℕ} {bytes bound extra : UInt64}
    (hbytes : bytes = UInt64.ofNat size) (hbound : bound.toNat = limit)
    (hextra : extra.toNat = total) (hwithin : ¬ bytes + extra > bound) :
    size + total ≤ limit ∨ 2 ^ 64 ≤ size + total := by
  rcases Nat.lt_or_ge (size + total) (2 ^ 64) with hlt | hge
  · left
    have hle := UInt64.le_iff_toNat_le.1 (UInt64.not_lt.1 hwithin)
    rw [UInt64.toNat_add, hbytes, UInt64.toNat_ofNat', hextra, hbound,
      Nat.mod_eq_of_lt (by omega : size < 2 ^ 64), Nat.mod_eq_of_lt hlt] at hle
    exact hle
  · exact .inr hge

/-- A number that no record took. -/
theorem Disk.Sealed.skip {disk : Disk} {sequence : UInt64} (h : disk.Sealed limits sequence)
    (hroom : sequence.toNat + 1 < 2 ^ 64) : disk.Sealed limits (sequence + 1) where
  snapshot := h.snapshot
  journal := h.journal
  size := h.size
  sequences := by
    intro r hr
    refine UInt64.le_trans (h.sequences r hr) (UInt64.le_of_lt ?_)
    rw [UInt64.lt_iff_toNat_lt, UInt64.toNat_add, UInt64.toNat_one, Nat.mod_eq_of_lt (by omega)]
    omega

/-- The file header is within the bound once an append was admitted. -/
theorem Disk.Sealed.header_le {disk : Disk} {sequence : UInt64} (h : disk.Sealed limits sequence)
    {j : Journal} (hj : disk.journal = some j) {total : ℕ} (htotal : total < 2 ^ 33)
    (hadmitted : j.size + total ≤ limits.maxJournalBytes.toNat ∨ 2 ^ 64 ≤ j.size + total) :
    journalHeaderBytes ≤ limits.maxJournalBytes.toNat := by
  obtain ⟨rs, rfl, -⟩ := h.journal j hj
  rcases h.size _ hj with hle | hempty | ⟨hle, -⟩
  · exact Nat.le_trans (Nat.le_add_right ..) hle
  · have hnil : rs = [] := by simpa using hempty
    subst hnil
    have hsize : Journal.size { items := ([] : List DurableRecord).map .record } =
        journalHeaderBytes := rfl
    have hheader : journalHeaderBytes = 16 := rfl
    omega
  · exact hle

/-- What the files hold after journaling: the record follows what was there, or a compacted
set, unless it was refused or there is no store. -/
def Fabric.Journals (limits : Limits) (f : Fabric) (a : Answers) (c : Compacted)
    (out : Status × Storage) : Prop :=
  ∃ base, f.Compacts a base ∧
    (out.2.disk.log = base ++ [c] ∧ out.1.isOk = true ∧
        journalHeaderBytes ≤ limits.maxJournalBytes.toNat ∨
      out.2.disk.log = base ∧ (out.1.isOk = false ∨ f.storage.durable = none))

theorem DurableStore.append_operations (store : DurableStore) (disk : Disk)
    (record : DurableRecord) (outcome : AppendOutcome) :
    (append limits store disk record outcome).2.2.operations = disk.operations := by
  have hleave : ∀ left, (leave disk record left).operations = disk.operations := by
    intro left
    cases left <;> rfl
  unfold append
  split
  · rfl
  split
  · rfl
  split
  · rfl
  dsimp only
  split
  · rfl
  cases outcome <;> exact hleave _

/-- Appending to sealed files. -/
theorem DurableStore.append_sealed {s : Storage} {store : DurableStore}
    (hstore : s.durable = some store) (hsealed : s.Sealed limits)
    (hroom : s.sequence.toNat + 1 < 2 ^ 64) {record : DurableRecord}
    (hnumber : record.sequence = s.sequence + 1) (n : ℕ)
    {out : Status × DurableStore × Disk}
    (hout : DurableStore.append limits store { s.disk with operations := n } record .ok = out) :
    Storage.Sealed limits ⟨out.2.2, some out.2.1, s.sequence + 1⟩ ∧
      (out.2.2.log = s.disk.log ++ [(record.type, record.payload)] ∧ out.1.isOk = true ∧
          journalHeaderBytes ≤ limits.maxJournalBytes.toNat ∨
        out.2.2.log = s.disk.log ∧ out.1.isOk = false) := by
  have hdisk := hsealed.disk.count n
  obtain ⟨hopen, hjournalOpen, j, hj, hbytes⟩ := hsealed.store store hstore
  -- a refusal has counted the operation and changed nothing else
  have hrefused : ∀ (code : ErrorCode) (detail : Bytes), (Status.of code detail).isOk = false →
      (Status.of code detail, store, ({ s.disk with operations := n } : Disk)) = out →
      Storage.Sealed limits ⟨out.2.2, some out.2.1, s.sequence + 1⟩ ∧
        (out.2.2.log = s.disk.log ++ [(record.type, record.payload)] ∧ out.1.isOk = true ∧
            journalHeaderBytes ≤ limits.maxJournalBytes.toNat ∨
          out.2.2.log = s.disk.log ∧ out.1.isOk = false) := by
    rintro code detail hcode rfl
    refine ⟨⟨hdisk.skip hroom, fun x hx => ?_⟩, .inr ⟨rfl, hcode⟩⟩
    obtain rfl := Option.some.inj hx
    exact ⟨hopen, hjournalOpen, j, hj, hbytes⟩
  unfold DurableStore.append at hout
  rw [if_neg (by simp [hopen, hjournalOpen])] at hout
  split at hout
  · exact hrefused _ _ rfl hout
  rename_i hpayload
  split at hout
  · exact hrefused _ _ rfl hout
  rename_i len hlen
  dsimp only at hout
  split at hout
  · exact hrefused _ _ rfl hout
  rename_i hwithin
  -- the 64-bit sum of the source is the size, since a length has 32 bits
  have htotal : (UInt64.ofNat recordHeaderBytes + len.toUInt64).toNat = record.size := by
    have hlt := UInt32.toNat_lt len
    have hheader : recordHeaderBytes = 32 := rfl
    rw [UInt64.toNat_add, UInt32.toNat_toUInt64, UInt64.toNat_ofNat', DurableRecord.size,
      ← narrowU32_toNat hlen]
    omega
  have hsize := admitted hbytes rfl htotal hwithin
  have hsmall : record.size < 2 ^ 33 := by
    have hlt := UInt32.toNat_lt len
    rw [narrowU32_toNat hlen] at hlt
    have hheader : recordHeaderBytes = 32 := rfl
    unfold DurableRecord.size
    omega
  have hheader := hdisk.header_le hj hsmall hsize
  obtain ⟨hleft, hlog, j', hj', hgrown⟩ := hdisk.leave hj hroom hnumber (Nat.le_of_not_lt hpayload)
    (hsize.imp_right fun hlarge => ⟨hheader, hlarge⟩)
  subst hout
  refine ⟨⟨hleft, fun x hx => ?_⟩, .inl ⟨hlog, rfl, hheader⟩⟩
  obtain rfl := Option.some.inj hx
  refine ⟨hopen, hjournalOpen, j', hj', ?_⟩
  change store.journalBytes + (UInt64.ofNat recordHeaderBytes + len.toUInt64) = _
  rw [hbytes, hgrown, UInt64.ofNat_add, ← htotal, UInt64.ofNat_toNat]

/-- Journaling, when no file operation fails. -/
theorem Fabric.journal_sealed (hlimits : f.config.limits = limits) (hfiles : a.files.Succeeds)
    (type : DurableRecordType) (payload : Bytes) (ts : UInt64) :
    ∃ n, f.storage.Draws limits n (f.journal a type payload ts).2 ∧
      (f.journal a type payload ts).2.durable.isSome = f.storage.durable.isSome ∧
      (f.storage.sequence.toNat + n < 2 ^ 64 → f.storage.Sealed limits →
        (f.journal a type payload ts).2.Sealed limits ∧
          f.Journals limits a (type, payload) (f.journal a type payload ts)) := by
  obtain ⟨n, hdraws, hdurable, hchecked⟩ := Fabric.maybeCheckpoint_sealed (a := a) hlimits hfiles
  unfold Fabric.journal
  generalize f.maybeCheckpoint a = checkpointed at hdraws hdurable hchecked ⊢
  obtain ⟨ready, storage⟩ := checkpointed
  dsimp only at hdraws hdurable hchecked ⊢
  split
  · rename_i hready
    refine ⟨n, hdraws, hdurable, fun hroom hsealed => ?_⟩
    obtain ⟨hstorage, hbase⟩ := hchecked hroom hsealed
    exact ⟨hstorage, _, hbase, .inr ⟨rfl, .inl (by simpa using hready)⟩⟩
  cases hstore : storage.durable with
  | none =>
    refine ⟨n, hdraws, hdurable, fun hroom hsealed => ?_⟩
    obtain ⟨hstorage, hbase⟩ := hchecked hroom hsealed
    rw [hstore, Option.isSome_none] at hdurable
    exact ⟨hstorage, _, hbase,
      .inr ⟨rfl, .inr (Option.isNone_iff_eq_none.1 (by simpa using hdurable.symm))⟩⟩
  | some store =>
    dsimp only
    rw [hlimits, hfiles.append]
    cases hout : DurableStore.append limits store
        { storage.disk with operations := storage.disk.operations + 1 }
        ⟨type, storage.sequence + 1, ts, payload⟩ .ok with
    | mk status rest =>
      obtain ⟨store', disk'⟩ := rest
      have hops : disk'.operations = storage.disk.operations + 1 :=
        (congrArg (fun out => out.2.2.operations) hout).symm.trans
          (DurableStore.append_operations ..)
      -- the append itself draws one more number
      have hone : storage.Draws limits 1 ⟨disk', some store', storage.sequence + 1⟩ := by
        refine ⟨by rw [hops]; exact Nat.le_succ _, ?_, rfl⟩
        rw [hops, Nat.add_sub_cancel_left, Nat.one_mul]
        exact Nat.le_add_left ..
      refine ⟨n + 1, hdraws.trans hone, by rw [← hdurable, hstore]; rfl, fun hroom hsealed => ?_⟩
      obtain ⟨hstorage, hbase⟩ := hchecked (by omega) hsealed
      have hnumber := hdraws.toNat (by omega)
      obtain ⟨hafter, hlog⟩ := DurableStore.append_sealed hstore hstorage (by omega) rfl _ hout
      exact ⟨hafter, _, hbase, hlog.imp_right fun h => ⟨h.1, .inl h.2⟩⟩

/-! ### Opening -/

theorem Journal.readable_map (rs : List DurableRecord) :
    Journal.readable (rs.map .record) = rs := by
  induction rs with
  | nil => rfl
  | cons r rs ih =>
    change r :: Journal.readable (rs.map .record) = _
    rw [ih]

theorem Journal.size_map (rs : List DurableRecord) :
    journalHeaderBytes ≤ Journal.size { items := rs.map .record } := Nat.le_add_right ..

namespace Disk.Sealed
variable {disk disk' : Disk} {sequence : UInt64} {store : DurableStore}

theorem loadSnapshot (h : disk.Sealed limits sequence)
    (hsize : ∀ s, disk.snapshot = some s → s.size ≤ (limits.maxJournalBytes * 4).toNat) :
    DurableStore.loadSnapshot limits disk.snapshot =
      .ok ((disk.snapshot.map Snapshot.records).getD [], disk.barrier) := by
  unfold DurableStore.loadSnapshot Disk.barrier
  cases hs : disk.snapshot with
  | none => rfl
  | some s =>
    obtain ⟨-, hpayload⟩ := h.snapshot s hs
    have hsmall : ¬ s.records.any
        (fun r => decide (r.payload.length > limits.maxDurableRecordBytes.toNat)) = true := by
      simp only [List.any_eq_true, decide_eq_true_eq, not_exists, not_and, not_lt]
      exact hpayload
    dsimp only
    rw [if_neg (Nat.not_lt.2 (hsize s hs)), if_neg hsmall]
    rfl

theorem loadJournal (h : disk.Sealed limits sequence)
    (hsize : ∀ j, disk.journal = some j → j.size ≤ limits.maxJournalBytes.toNat) :
    DurableStore.loadJournal limits disk.barrier disk.journal =
      .ok (((disk.journal.map Journal.items).getD []).filterMap fun
        | .record r => some r
        | .torn _ => none) := by
  unfold DurableStore.loadJournal
  cases hj : disk.journal with
  | none => rfl
  | some j =>
    have hle := hsize j hj
    obtain ⟨rs, rfl, hrs⟩ := h.journal j hj
    have hheader : journalHeaderBytes = 16 := rfl
    dsimp only
    rw [if_neg (Nat.not_lt.2 hle), if_neg (Nat.not_lt.2 (Journal.size_map rs)),
      if_neg (by omega), if_neg (by omega), if_neg (by omega), Journal.readable_map,
      List.takeWhile_eq_self_iff.2 (by simpa using fun r hr => (hrs r hr).2),
      List.filter_eq_self.2 (by simpa using fun r hr => (hrs r hr).1), Option.map_some,
      Option.getD_some, List.filterMap_map]
    change _ = Except.ok (rs.filterMap some)
    rw [List.filterMap_some]

/-- Opening sealed files recovers every record and leaves them sealed. -/
theorem openStore (h : disk.Sealed limits sequence)
    (hopen : DurableStore.openStore limits disk .ok = (.ok store, disk')) {sequence' : UInt64}
    (hsequence : ∀ r ∈ disk.records, r.sequence ≤ sequence') :
    store.recovered = disk.records ∧ disk'.records = disk.records ∧
      disk'.operations = disk.operations ∧
      Storage.Sealed limits ⟨disk', some store, sequence'⟩ := by
  -- a file above its bound would have been refused
  have hsnapshot : ∀ s, disk.snapshot = some s → s.size ≤ (limits.maxJournalBytes * 4).toNat := by
    intro s hs
    by_contra hlarge
    unfold DurableStore.openStore DurableStore.loadSnapshot at hopen
    rw [hs] at hopen
    dsimp only at hopen
    rw [if_pos (Nat.lt_of_not_le hlarge)] at hopen
    cases hopen
  have hjournal : ∀ j, disk.journal = some j → j.size ≤ limits.maxJournalBytes.toNat := by
    intro j hj
    by_contra hlarge
    unfold DurableStore.openStore at hopen
    rw [h.loadSnapshot hsnapshot] at hopen
    dsimp only at hopen
    unfold DurableStore.loadJournal at hopen
    rw [hj] at hopen
    dsimp only at hopen
    rw [if_pos (Nat.lt_of_not_le hlarge)] at hopen
    cases hopen
  unfold DurableStore.openStore at hopen
  dsimp only at hopen
  rw [h.loadSnapshot hsnapshot] at hopen
  dsimp only at hopen
  rw [h.loadJournal hjournal] at hopen
  dsimp only at hopen
  cases hj : disk.journal with
  | none =>
    rw [hj] at hopen
    obtain ⟨hstore, rfl⟩ := Prod.mk.inj hopen
    obtain rfl := Except.ok.inj hstore
    have hrecords : ({ disk with journal := some {} } : Disk).records = disk.records := by
      simp [Disk.records, hj]
    have hrecovered : disk.records = (disk.snapshot.map Snapshot.records).getD [] ++
        ((none : Option Journal).map Journal.items |>.getD []).filterMap fun
          | .record r => some r
          | .torn _ => none := by
      rewrite [Disk.records, hj]
      rfl
    refine ⟨hrecovered.symm, hrecords, rfl, ⟨⟨h.snapshot, ?_, ?_, ?_⟩, ?_⟩⟩
    · intro j hj'
      obtain rfl := Option.some.inj hj'
      exact ⟨[], rfl, by simp⟩
    · intro j hj'
      obtain rfl := Option.some.inj hj'
      exact .inr (.inl rfl)
    · exact hrecords ▸ hsequence
    · intro x hx
      obtain rfl := Option.some.inj hx
      exact ⟨rfl, rfl, _, rfl, rfl⟩
  | some j =>
    rw [hj] at hopen
    obtain ⟨hstore, rfl⟩ := Prod.mk.inj hopen
    obtain rfl := Except.ok.inj hstore
    have hrecovered : disk.records = (disk.snapshot.map Snapshot.records).getD [] ++
        ((some j).map Journal.items |>.getD []).filterMap fun
          | .record r => some r
          | .torn _ => none := by
      rewrite [Disk.records, hj]
      rfl
    refine ⟨hrecovered.symm, rfl, rfl, ⟨⟨h.snapshot, h.journal, h.size, hsequence⟩, ?_⟩⟩
    intro x hx
    obtain rfl := Option.some.inj hx
    exact ⟨rfl, rfl, j, hj, rfl⟩

end Disk.Sealed

/-- The files before the first start. -/
theorem Disk.sealed_empty (limits : Limits) : ({} : Disk).Sealed limits 0 where
  snapshot := fun _ h => by cases h
  journal := fun _ h => by cases h
  size := fun _ h => by cases h
  sequences := fun _ h => by cases h

end Pacing
