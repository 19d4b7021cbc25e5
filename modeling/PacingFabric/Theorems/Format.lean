import PacingFabric.Model.DurableFile
import PacingFabric.Storage.Checksum
import Mathlib.Data.List.TakeDrop

/-!
# The durable formats

What the two files hold, and what reading them back yields.

## Main definitions

* `DurableFile.Fits`: the records an append or a checkpoint accepts.

## Main results

* `Crc32c.detecting`: the checksum notices a change of one byte.
* `records_lawful`: records are a framing; a record cut short is not a record.
* `loadJournal_written`, `loadSnapshot_written`: both files are read back.
-/

namespace Pacing

/-! ### The checksum -/

namespace Crc32c

/-- The inverse of `bit` on the states `bit` leads to. -/
private def unbit (c : UInt32) : UInt32 :=
  if c >>> 31 ≠ 0 then ((poly ^^^ c) <<< 1) ||| 1 else c <<< 1

/-- The top byte of a table entry determines its index. -/
private theorem unbit_table :
    ∀ n < 256, (unbit^[8] ((table (UInt8.ofNat n) >>> 24) <<< 24)).toUInt8 = UInt8.ofNat n := by
  decide +kernel

private theorem table_top_injective {i j : UInt8} (h : table i >>> 24 = table j >>> 24) :
    i = j := by
  have hi := unbit_table i.toNat i.toNat_lt
  have hj := unbit_table j.toNat j.toNat_lt
  rw [UInt8.ofNat_toNat] at hi hj
  rw [← hi, ← hj, h]

private theorem shiftRight_top (c : UInt32) : (c >>> 8) >>> 24 = 0 := by
  apply UInt32.toNat_inj.1
  have := c.toNat_lt
  simp [UInt32.toNat_shiftRight, Nat.shiftRight_eq_div_pow]
  omega

/-- The byte step determines the index it looked up. -/
private theorem byte_index {c c' : UInt32} {b b' : UInt8} (h : byte c b = byte c' b') :
    (c ^^^ b.toUInt32).toUInt8 = (c' ^^^ b'.toUInt32).toUInt8 := by
  have htop := congrArg (fun c : UInt32 => c >>> 24) h
  simp only [byte, UInt32.shiftRight_xor, shiftRight_top, UInt32.xor_zero] at htop
  exact table_top_injective htop

theorem detecting : Checksum.Detecting byte where
  state b := by
    intro c c' h
    have hindex := byte_index h
    have hshift : c >>> 8 = c' >>> 8 := by
      simpa only [byte, hindex, UInt32.xor_right_inj] using h
    -- the index gives the low byte of the state, the shift the other three
    have hlow : c.toUInt8 = c'.toUInt8 := by simpa using hindex
    have hlow' := congrArg UInt8.toNat hlow
    have hshift' := congrArg UInt32.toNat hshift
    simp only [UInt32.toNat_toUInt8, UInt32.toNat_shiftRight, Nat.shiftRight_eq_div_pow]
      at hlow' hshift'
    apply UInt32.toNat_inj.1
    simp at hlow' hshift'
    omega
  symbol c := by
    intro b b' h
    have hindex := byte_index h
    simpa using hindex

end Crc32c

/-- The checksum of a string differs from that of the string with one byte changed. -/
theorem crc32c_modify_ne {data : Bytes} {i : ℕ} (hi : i < data.length) {g : UInt8 → UInt8}
    (hg : ∀ b, g b ≠ b) : crc32c (data.modify i g) ≠ crc32c data := by
  intro h
  exact Crc32c.detecting.foldl_modify_ne hi hg _ (by simpa [crc32c, crc32cExtend] using h)

/-! ### Record types -/

namespace DurableRecordType

private theorem ofRaw_beyond {raw : UInt16} (beyond : raw = 0 ∨ 11 ≤ raw.toNat) :
    ofRaw raw = .unlisted raw beyond := by
  have hne : ∀ n : UInt16, 1 ≤ n.toNat → n.toNat ≤ 10 → raw ≠ n := by
    rintro n h₁ h₂ rfl
    rcases beyond with rfl | h
    · simp at h₁
    · omega
  simp [ofRaw, hne, beyond]

theorem ofRaw_raw (type : DurableRecordType) : ofRaw type.raw = type := by
  cases type with
  | unlisted raw beyond => exact ofRaw_beyond beyond
  | _ => rfl

theorem raw_ofRaw (value : UInt16) : (ofRaw value).raw = value := by
  by_cases beyond : value = 0 ∨ 11 ≤ value.toNat
  · rw [ofRaw_beyond beyond, DurableRecordType.raw]
  · have listed : ∀ n < 11, n ≠ 0 → (ofRaw (UInt16.ofNat n)).raw = UInt16.ofNat n := by decide
    have hzero : value.toNat ≠ 0 := fun h => beyond (.inl (UInt16.toNat_inj.1 h))
    have h := listed value.toNat (by omega) hzero
    rwa [UInt16.ofNat_toNat] at h

end DurableRecordType

namespace DurableFile

/-! ### Fields -/

/-- The field a number was written to holds the number. -/
theorem field_append (a b : Bytes) (width : ℕ) {value : ℕ} (h : value < 256 ^ width) :
    field (a ++ (littleEndian width value ++ b)) a.length width = value := by
  rw [field, List.drop_left, List.take_left' (length_littleEndian width value),
    ofLittleEndian_littleEndian, Nat.mod_eq_of_lt h]

section header
variable (type : DurableRecordType) (payloadLen : ℕ) (sequence timestamp : UInt64)
  (payloadCrc : UInt32) (rest : Bytes)

@[simp] theorem length_encodeRecordHeader :
    (encodeRecordHeader type payloadLen sequence timestamp payloadCrc).length =
      recordHeaderBytes := by
  simp [encodeRecordHeader, recordHeaderBytes]

theorem field_type :
    field (encodeRecordHeader type payloadLen sequence timestamp payloadCrc ++ rest) 0 2 =
      type.raw.toNat := by
  have h := field_append [] ([0, 0] ++ littleEndian 4 payloadLen ++
    littleEndian 8 sequence.toNat ++ littleEndian 8 timestamp.toNat ++
    littleEndian 4 payloadCrc.toNat ++ [0, 0, 0, 0] ++ rest) 2
    (by have := type.raw.toNat_lt; omega : type.raw.toNat < 256 ^ 2)
  simpa only [encodeRecordHeader, List.append_assoc, List.length_append, length_littleEndian,
    List.length_cons, List.length_nil, Nat.reduceAdd, List.nil_append] using h

theorem field_payloadLen (hlen : payloadLen < 2 ^ 32) :
    field (encodeRecordHeader type payloadLen sequence timestamp payloadCrc ++ rest) 4 4 =
      payloadLen := by
  have h := field_append (littleEndian 2 type.raw.toNat ++ [0, 0])
    (littleEndian 8 sequence.toNat ++ littleEndian 8 timestamp.toNat ++
      littleEndian 4 payloadCrc.toNat ++ [0, 0, 0, 0] ++ rest) 4
    (by omega : payloadLen < 256 ^ 4)
  simpa only [encodeRecordHeader, List.append_assoc, List.length_append, length_littleEndian,
    List.length_cons, List.length_nil, Nat.reduceAdd, List.nil_append] using h

theorem field_sequence :
    field (encodeRecordHeader type payloadLen sequence timestamp payloadCrc ++ rest) 8 8 =
      sequence.toNat := by
  have h := field_append (littleEndian 2 type.raw.toNat ++ [0, 0] ++ littleEndian 4 payloadLen)
    (littleEndian 8 timestamp.toNat ++ littleEndian 4 payloadCrc.toNat ++ [0, 0, 0, 0] ++ rest)
    8 (by have := sequence.toNat_lt; omega : sequence.toNat < 256 ^ 8)
  simpa only [encodeRecordHeader, List.append_assoc, List.length_append, length_littleEndian,
    List.length_cons, List.length_nil, Nat.reduceAdd, List.nil_append] using h

theorem field_timestamp :
    field (encodeRecordHeader type payloadLen sequence timestamp payloadCrc ++ rest) 16 8 =
      timestamp.toNat := by
  have h := field_append (littleEndian 2 type.raw.toNat ++ [0, 0] ++ littleEndian 4 payloadLen ++
    littleEndian 8 sequence.toNat) (littleEndian 4 payloadCrc.toNat ++ [0, 0, 0, 0] ++ rest)
    8 (by have := timestamp.toNat_lt; omega : timestamp.toNat < 256 ^ 8)
  simpa only [encodeRecordHeader, List.append_assoc, List.length_append, length_littleEndian,
    List.length_cons, List.length_nil, Nat.reduceAdd, List.nil_append] using h

theorem field_payloadCrc :
    field (encodeRecordHeader type payloadLen sequence timestamp payloadCrc ++ rest) 24 4 =
      payloadCrc.toNat := by
  have h := field_append (littleEndian 2 type.raw.toNat ++ [0, 0] ++ littleEndian 4 payloadLen ++
    littleEndian 8 sequence.toNat ++ littleEndian 8 timestamp.toNat) ([0, 0, 0, 0] ++ rest)
    4 (by have := payloadCrc.toNat_lt; omega : payloadCrc.toNat < 256 ^ 4)
  simpa only [encodeRecordHeader, List.append_assoc, List.length_append, length_littleEndian,
    List.length_cons, List.length_nil, Nat.reduceAdd, List.nil_append] using h

end header

/-! ### Records -/

/-- The records an append or a checkpoint accepts. -/
def Fits (limits : Limits) (r : DurableRecord) : Prop :=
  r.payload.length ≤ limits.maxDurableRecordBytes.toNat ∧ r.payload.length < 2 ^ 32

/-- The header `encodeRecord` writes. -/
def headerOf (r : DurableRecord) : Bytes :=
  encodeRecordHeader r.type r.payload.length r.sequence r.timestampNs (crc32c r.payload)

@[simp] theorem length_headerOf (r : DurableRecord) : (headerOf r).length = recordHeaderBytes :=
  length_encodeRecordHeader ..

theorem records_next (limits : Limits) : (records limits).next = nextRecord limits := rfl

theorem records_encode (limits : Limits) : (records limits).encode = encodeRecord := rfl

theorem encodeRecord_eq (r : DurableRecord) : encodeRecord r = headerOf r ++ r.payload := rfl

@[simp] theorem length_encodeRecord (r : DurableRecord) : (encodeRecord r).length = r.size := by
  simp [encodeRecord, DurableRecord.size]

theorem recordOf_headerOf (r : DurableRecord) (rest : Bytes) :
    recordOf (headerOf r ++ rest) r.payload = r := by
  unfold recordOf headerOf
  rw [field_type, field_sequence, field_timestamp, UInt16.ofNat_toNat,
    DurableRecordType.ofRaw_raw, UInt64.ofNat_toNat, UInt64.ofNat_toNat]

variable {limits : Limits}

/-- What is read of a header, whatever its payload was cut down to. -/
theorem nextRecord_headerOf {r : DurableRecord} (hr : Fits limits r) (rest : Bytes) :
    nextRecord limits (headerOf r ++ rest) =
      if rest.length < r.payload.length then none
      else if crc32c (rest.take r.payload.length) ≠ crc32c r.payload then none
      else some (recordOf (headerOf r ++ rest) (rest.take r.payload.length),
        rest.drop r.payload.length) := by
  have hlen : field (headerOf r ++ rest) 4 4 = r.payload.length := by
    exact field_payloadLen _ _ _ _ _ _ hr.2
  have hcrc : field (headerOf r ++ rest) 24 4 = (crc32c r.payload).toNat := field_payloadCrc ..
  have hdrop : (headerOf r ++ rest).drop recordHeaderBytes = rest :=
    List.drop_left' (length_headerOf r)
  have hlong : ¬ (headerOf r ++ rest).length < recordHeaderBytes := by simp
  unfold nextRecord
  rw [if_neg hlong]
  dsimp only
  rw [hlen, hcrc, hdrop, if_neg (by have := hr.1; omega)]
  simp only [ne_eq, UInt32.toNat_inj]

theorem nextRecord_shorter {bytes rest : Bytes} {r : DurableRecord}
    (h : nextRecord limits bytes = some (r, rest)) : rest.length < bytes.length := by
  unfold nextRecord at h
  generalize field bytes 4 4 = payloadLen at h
  generalize recordOf bytes = toRecord at h
  by_cases hlen : bytes.length < recordHeaderBytes
  · simp [hlen] at h
  · rw [if_neg hlen] at h
    have hrest : (bytes.drop recordHeaderBytes).length < bytes.length := by
      simp only [List.length_drop, recordHeaderBytes] at hlen ⊢
      omega
    dsimp only at h
    split at h
    · simp at h
    · split at h
      · simp at h
      · split at h
        · simp at h
        · simp only [Option.some.injEq, Prod.mk.injEq] at h
          rw [← h.2, List.length_drop]
          omega

/-- Records are a framing: what an append writes is read back, and a record cut short is not
read. -/
theorem records_lawful (limits : Limits) : (records limits).Lawful (Fits limits) where
  next_append r rest hr := by
    rw [records_next, records_encode, encodeRecord_eq, List.append_assoc,
      nextRecord_headerOf hr, if_neg (by simp), List.take_left' rfl, if_neg (by simp),
      List.drop_left' rfl, recordOf_headerOf]
  next_prefix r p hr hp hne := by
    rw [records_encode] at hp hne
    rw [records_next]
    have hlt : p.length < r.size := by
      rw [← length_encodeRecord]
      exact lt_of_le_of_ne hp.length_le fun h => hne (hp.eq_of_length h)
    by_cases hshort : p.length < recordHeaderBytes
    · unfold nextRecord
      rw [if_pos hshort]
    · -- the header is complete, the payload is not
      obtain ⟨q, rfl⟩ : headerOf r <+: p := by
        refine List.prefix_of_prefix_length_le (List.prefix_append _ _) hp ?_
        simp only [length_headerOf]
        omega
      have hq : q.length < r.payload.length := by
        simp only [List.length_append, length_headerOf, DurableRecord.size] at hlt
        omega
      rw [nextRecord_headerOf hr, if_pos hq]
  next_shorter bytes r rest h := nextRecord_shorter h

/-! ### The journal -/

theorem replay_eq (barrier : UInt64) (n : ℕ) (bytes : Bytes) :
    replay limits barrier n bytes =
      ((records limits).scan n bytes).filter fun r => decide (barrier < r.sequence) := by
  induction n generalizing bytes with
  | zero => rfl
  | succ n ih =>
    rw [replay, Framing.scan, records_next]
    cases nextRecord limits bytes with
    | none => rfl
    | some out =>
      dsimp only
      rw [ih, List.filter_cons]
      by_cases h : out.1.sequence ≤ barrier
      · rw [if_pos h, if_neg (by simpa using h)]
      · rw [if_neg h, if_pos (by simpa using h)]

theorem length_journalHeader : journalHeader.length = journalHeaderBytes := rfl

/-- A journal whose header is complete is read to the first item that is not a record. -/
theorem loadJournal_header (barrier : UInt64) {rest : Bytes}
    (hsize : (journalHeader ++ rest).length ≤ limits.maxJournalBytes.toNat) :
    loadJournal limits barrier (some (journalHeader ++ rest)) =
      .ok (((records limits).read rest).filter fun r => decide (barrier < r.sequence)) := by
  have hlong : ¬ (journalHeader ++ rest).length < journalHeaderBytes := by
    rw [List.length_append, length_journalHeader]
    omega
  have hmagic : (journalHeader ++ rest).take 4 = journalMagic := rfl
  have hversion : field (journalHeader ++ rest) 4 4 = stateFormatVersion := by
    have h := field_append journalMagic (List.replicate 8 0 ++ rest) 4
      (by decide : stateFormatVersion < 256 ^ 4)
    rwa [← List.append_assoc, ← List.append_assoc] at h
  have hdrop : (journalHeader ++ rest).drop journalHeaderBytes = rest :=
    List.drop_left' length_journalHeader
  rw [loadJournal, if_neg (by omega), if_neg hlong, if_neg (by simp [hmagic]),
    if_neg (by simp [hversion])]
  dsimp only
  rw [hdrop, replay_eq, Framing.read]

/-- A journal cut short inside its header is empty. -/
theorem loadJournal_short (barrier : UInt64) {bytes : Bytes}
    (hshort : bytes.length < journalHeaderBytes)
    (hsize : bytes.length ≤ limits.maxJournalBytes.toNat) :
    loadJournal limits barrier (some bytes) = .ok [] := by
  rw [loadJournal, if_neg (by omega), if_pos hshort]

/-! ### The snapshot -/

/-- One record of a snapshot body. -/
theorem readRecords_of_next {bytes rest : Bytes} {r : DurableRecord} (n : ℕ)
    (h : nextRecord limits bytes = some (r, rest)) :
    readRecords limits (n + 1) bytes = (readRecords limits n rest).map (r :: ·) := by
  unfold nextRecord at h
  rw [readRecords]
  generalize field bytes 4 4 = payloadLen at h ⊢
  generalize recordOf bytes = toRecord at h ⊢
  split at h
  · simp at h
  · rename_i hlen
    rw [if_neg hlen]
    dsimp only at h ⊢
    split at h
    · simp at h
    · rename_i hbound
      rw [if_neg hbound]
      split at h
      · simp at h
      · rename_i hrest
        rw [if_neg hrest]
        split at h
        · simp at h
        · rename_i hcrc
          simp only [Option.some.injEq, Prod.mk.injEq] at h
          rw [if_neg hcrc, h.1, h.2]
          cases readRecords limits n rest <;> rfl

/-- The first records of a body are read back. -/
theorem readRecords_encodeAll {items : List DurableRecord} (hfits : ∀ r ∈ items, Fits limits r)
    {n : ℕ} (hn : n ≤ items.length) (rest : Bytes) :
    readRecords limits n (items.flatMap encodeRecord ++ rest) = .ok (items.take n) := by
  induction items generalizing n with
  | nil =>
    obtain rfl : n = 0 := by simpa using hn
    rfl
  | cons r items ih =>
    cases n with
    | zero => rfl
    | succ n =>
      have hr := hfits r List.mem_cons_self
      have hnext := (records_lawful limits).next_append r (items.flatMap encodeRecord ++ rest) hr
      rw [records_next, records_encode] at hnext
      rw [List.flatMap_cons, List.append_assoc, readRecords_of_next n hnext,
        ih (fun x hx => hfits x (List.mem_cons_of_mem r hx)) (by simpa using hn)]
      rfl

/-- A body that ends before the records its header names is refused. -/
theorem readRecords_exhausted {items : List DurableRecord} (hfits : ∀ r ∈ items, Fits limits r)
    {n : ℕ} (hn : items.length < n) :
    ∃ s, readRecords limits n (items.flatMap encodeRecord) = .error s := by
  induction items generalizing n with
  | nil =>
    obtain ⟨n, rfl⟩ : ∃ k, n = k + 1 := ⟨n - 1, by simp at hn; omega⟩
    exact ⟨_, by rw [readRecords, if_pos (by simp [recordHeaderBytes])]⟩
  | cons r items ih =>
    obtain ⟨n, rfl⟩ : ∃ k, n = k + 1 := ⟨n - 1, by omega⟩
    have hr := hfits r List.mem_cons_self
    have hnext := (records_lawful limits).next_append r (items.flatMap encodeRecord) hr
    rw [records_next, records_encode] at hnext
    obtain ⟨s, hs⟩ := ih (fun x hx => hfits x (List.mem_cons_of_mem r hx))
      (by simpa using hn : items.length < n)
    exact ⟨s, by rw [List.flatMap_cons, readRecords_of_next n hnext, hs]; rfl⟩

section header
variable (count : ℕ) (barrier : UInt64) (bodyCrc : UInt32) (body : Bytes)

@[simp] theorem length_encodeSnapshotHeader :
    (encodeSnapshotHeader count barrier bodyCrc).length = snapshotHeaderBytes := by
  simp [encodeSnapshotHeader, snapshotHeaderBytes, snapshotMagic]

theorem take_encodeSnapshotHeader :
    (encodeSnapshotHeader count barrier bodyCrc ++ body).take 4 = snapshotMagic := rfl

theorem drop_encodeSnapshotHeader :
    (encodeSnapshotHeader count barrier bodyCrc ++ body).drop snapshotHeaderBytes = body :=
  List.drop_left' (length_encodeSnapshotHeader count barrier bodyCrc)

theorem field_version :
    field (encodeSnapshotHeader count barrier bodyCrc ++ body) 4 4 = stateFormatVersion := by
  have h := field_append snapshotMagic (littleEndian 4 0 ++ littleEndian 4 0 ++
    littleEndian 8 count ++ littleEndian 8 barrier.toNat ++ littleEndian 4 bodyCrc.toNat ++
    littleEndian 4 0 ++ body) 4 (by decide : stateFormatVersion < 256 ^ 4)
  simpa only [encodeSnapshotHeader, List.append_assoc, snapshotMagic, List.length_cons,
    List.length_nil, Nat.reduceAdd] using h

theorem field_count (hcount : count < 2 ^ 64) :
    field (encodeSnapshotHeader count barrier bodyCrc ++ body) 16 8 = count := by
  have h := field_append (snapshotMagic ++ littleEndian 4 stateFormatVersion ++
    littleEndian 4 0 ++ littleEndian 4 0) (littleEndian 8 barrier.toNat ++
    littleEndian 4 bodyCrc.toNat ++ littleEndian 4 0 ++ body) 8 (by omega : count < 256 ^ 8)
  simpa only [encodeSnapshotHeader, List.append_assoc, List.length_append, snapshotMagic,
    length_littleEndian, List.length_cons, List.length_nil, Nat.reduceAdd] using h

theorem field_barrier :
    field (encodeSnapshotHeader count barrier bodyCrc ++ body) 24 8 = barrier.toNat := by
  have h := field_append (snapshotMagic ++ littleEndian 4 stateFormatVersion ++
    littleEndian 4 0 ++ littleEndian 4 0 ++ littleEndian 8 count)
    (littleEndian 4 bodyCrc.toNat ++ littleEndian 4 0 ++ body) 8
    (by have := barrier.toNat_lt; omega : barrier.toNat < 256 ^ 8)
  simpa only [encodeSnapshotHeader, List.append_assoc, List.length_append, snapshotMagic,
    length_littleEndian, List.length_cons, List.length_nil, Nat.reduceAdd] using h

theorem field_bodyCrc :
    field (encodeSnapshotHeader count barrier bodyCrc ++ body) 32 4 = bodyCrc.toNat := by
  have h := field_append (snapshotMagic ++ littleEndian 4 stateFormatVersion ++
    littleEndian 4 0 ++ littleEndian 4 0 ++ littleEndian 8 count ++
    littleEndian 8 barrier.toNat) (littleEndian 4 0 ++ body) 4
    (by have := bodyCrc.toNat_lt; omega : bodyCrc.toNat < 256 ^ 4)
  simpa only [encodeSnapshotHeader, List.append_assoc, List.length_append, snapshotMagic,
    length_littleEndian, List.length_cons, List.length_nil, Nat.reduceAdd] using h

end header

theorem narrowU32_isNone_iff {n : ℕ} : (Checked.narrowU32 n).isNone = true ↔ 2 ^ 32 ≤ n := by
  unfold Checked.narrowU32
  split
  · simp
    omega
  · simp
    omega

/-- What `checkpoint` accepts. -/
theorem checkCompacted_isOk_iff {compacted : List DurableRecord} {count : ℕ} :
    (DurableStore.checkCompacted limits count compacted).isOk = true ↔
      (∀ r ∈ compacted, Fits limits r) ∧
        (compacted = [] ∨ count + compacted.length ≤ limits.maxCompactionBatch.toNat) := by
  induction compacted generalizing count with
  | nil => simp [DurableStore.checkCompacted, Status.success, Status.isOk]
  | cons r rest ih =>
    unfold DurableStore.checkCompacted
    rw [List.forall_mem_cons, List.length_cons]
    -- one refusal for each bound: record, length field, batch
    split
    · rename_i hbound
      refine iff_of_false (by simp [Status.of, Status.isOk]) ?_
      rintro ⟨⟨hfits, -⟩, -⟩
      exact absurd hfits.1 (by omega)
    · rename_i hbound
      split
      · rename_i hnarrow
        rw [narrowU32_isNone_iff] at hnarrow
        refine iff_of_false (by simp [Status.of, Status.isOk]) ?_
        rintro ⟨⟨hfits, -⟩, -⟩
        exact absurd hfits.2 (by omega)
      · rename_i hnarrow
        rw [narrowU32_isNone_iff] at hnarrow
        have hfits : Fits limits r := ⟨by omega, by omega⟩
        split
        · rename_i hcount
          refine iff_of_false (by simp [Status.of, Status.isOk]) ?_
          rintro ⟨-, hlen⟩
          rcases hlen with hnil | hlen
          · simp at hnil
          · omega
        · rw [ih]
          constructor
          · rintro ⟨hrest, hlen⟩
            refine ⟨⟨hfits, hrest⟩, .inr ?_⟩
            rcases hlen with rfl | hlen
            · simp
              omega
            · omega
          · rintro ⟨⟨-, hrest⟩, hlen⟩
            refine ⟨hrest, .inr ?_⟩
            rcases hlen with hnil | hlen
            · simp at hnil
            · omega

/-- What `checkpoint` accepts fits, and its number is small enough for the header. -/
theorem fits_of_checkCompacted {compacted : List DurableRecord} {count : ℕ}
    (h : (DurableStore.checkCompacted limits count compacted).isOk = true) :
    (∀ r ∈ compacted, Fits limits r) ∧
      (compacted = [] ∨ count + compacted.length ≤ limits.maxCompactionBatch.toNat) :=
  checkCompacted_isOk_iff.1 h

/-- Loading a snapshot whose header is intact. -/
theorem loadSnapshot_header {count : ℕ} {barrier : UInt64} {body : Bytes}
    (hcount : count < 2 ^ 64)
    (hsize : snapshotHeaderBytes + body.length ≤ (limits.maxJournalBytes * 4).toNat) :
    loadSnapshot limits (some (encodeSnapshotHeader count barrier (crc32c body) ++ body)) =
      (readRecords limits count body).map fun records => (records, barrier) := by
  have hlength : (encodeSnapshotHeader count barrier (crc32c body) ++ body).length =
      snapshotHeaderBytes + body.length := by
    rw [List.length_append, length_encodeSnapshotHeader]
  rw [loadSnapshot, if_neg (by omega), if_neg (by omega),
    if_neg (by rw [take_encodeSnapshotHeader]; simp), if_neg (by rw [field_version]; simp)]
  dsimp only
  rw [drop_encodeSnapshotHeader, field_bodyCrc, if_neg (by simp), field_count _ _ _ _ hcount,
    field_barrier, UInt64.ofNat_toNat]
  cases readRecords limits count body <;> rfl

end DurableFile

end Pacing
