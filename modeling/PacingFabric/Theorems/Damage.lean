import PacingFabric.Theorems.Checkpoint

/-!
# Damaged files

One bit of a file is flipped, and the file is loaded. The checksums cover the body of the
snapshot and the payloads of the journal; the numbers in the headers are taken as they are.

## Main definitions

* `flipBit`: a file with one bit flipped.

## Main results

* `damaged_snapshot_iff`: the flips of a snapshot that are refused or change nothing.
* `shortened_snapshot_absorbed`: a flip that drops a record silently.
-/

namespace Pacing

/-! ### Flipping one bit -/

/-- A byte with bit `j` flipped. -/
def flipByte (j : Fin 8) (b : UInt8) : UInt8 := b ^^^ (1 <<< UInt8.ofNat j)

/-- The file with bit `j` of byte `i` flipped. -/
def flipBit (bytes : Bytes) (i : ℕ) (j : Fin 8) : Bytes := bytes.modify i (flipByte j)

theorem flipByte_ne (j : Fin 8) (b : UInt8) : flipByte j b ≠ b := by
  have hbit : ∀ j : Fin 8, (1 : UInt8) <<< UInt8.ofNat j ≠ 0 := by decide
  intro h
  have hzero : b ^^^ (1 <<< UInt8.ofNat j) = b ^^^ 0 := by simpa [flipByte] using h
  exact hbit j ((UInt8.xor_right_inj b).1 hzero)

/-- A flip makes a byte smaller when the bit was set, and larger otherwise. -/
theorem flipByte_toNat (j : Fin 8) (b : UInt8) :
    if b.toNat.testBit j then (flipByte j b).toNat < b.toNat
    else b.toNat < (flipByte j b).toNat := by
  have hall : ∀ j : Fin 8, ∀ n < 256, if n.testBit j then
      (flipByte j (UInt8.ofNat n)).toNat < n else n < (flipByte j (UInt8.ofNat n)).toNat := by
    decide +kernel
  have h := hall j b.toNat b.toNat_lt
  rwa [UInt8.ofNat_toNat] at h

@[simp] theorem length_flipBit (bytes : Bytes) (i : ℕ) (j : Fin 8) :
    (flipBit bytes i j).length = bytes.length := List.length_modify ..

theorem flipBit_ne {bytes : Bytes} {i : ℕ} (hi : i < bytes.length) (j : Fin 8) :
    flipBit bytes i j ≠ bytes := by
  intro h
  have hget : (bytes.modify i (flipByte j))[i]? = bytes[i]? := congrArg (·[i]?) h
  rw [List.getElem?_modify_eq, List.getElem?_eq_getElem hi] at hget
  exact flipByte_ne j _ (Option.some.inj hget)

theorem drop_flipBit_of_lt (bytes : Bytes) {i n : ℕ} (h : i < n) (j : Fin 8) :
    (flipBit bytes i j).drop n = bytes.drop n := List.drop_modify_of_lt _ _ _ _ h

theorem drop_flipBit_of_ge (bytes : Bytes) {i n : ℕ} (h : n ≤ i) (j : Fin 8) :
    (flipBit bytes i j).drop n = flipBit (bytes.drop n) (i - n) j :=
  List.drop_modify_of_ge _ _ _ _ h

theorem take_flipBit (bytes : Bytes) (i n : ℕ) (j : Fin 8) :
    (flipBit bytes i j).take n = flipBit (bytes.take n) i j := List.take_modify ..

theorem flipBit_of_le (bytes : Bytes) {i : ℕ} (h : bytes.length ≤ i) (j : Fin 8) :
    flipBit bytes i j = bytes := List.modify_eq_self h

/-! ### Numbers under a flip -/

/-- A flip makes a number smaller when the bit was set, and larger otherwise. -/
theorem ofLittleEndian_flipBit {bytes : Bytes} {k : ℕ} (hk : k < bytes.length) (j : Fin 8) :
    if (ofLittleEndian bytes).testBit (8 * k + j) then
      ofLittleEndian (flipBit bytes k j) < ofLittleEndian bytes
    else ofLittleEndian bytes < ofLittleEndian (flipBit bytes k j) := by
  induction bytes generalizing k with
  | nil => simp at hk
  | cons b bytes ih =>
    have hb := b.toNat_lt
    have hcons : ofLittleEndian (b :: bytes) = 2 ^ 8 * ofLittleEndian bytes + b.toNat := by
      simp only [ofLittleEndian]
      omega
    -- the bit is in the lowest byte or in the rest
    cases k with
    | zero =>
      have hbit : (ofLittleEndian (b :: bytes)).testBit (8 * 0 + j) = b.toNat.testBit j := by
        rw [hcons, Nat.testBit_two_pow_mul_add _ hb, if_pos (by omega), Nat.mul_zero,
          Nat.zero_add]
      have hflip := flipByte_toNat j b
      rw [hbit]
      simp only [flipBit, List.modify_zero_cons, ofLittleEndian]
      split_ifs with h
      · rw [if_pos h] at hflip
        omega
      · rw [if_neg h] at hflip
        omega
    | succ k =>
      have hbit : (ofLittleEndian (b :: bytes)).testBit (8 * (k + 1) + j) =
          (ofLittleEndian bytes).testBit (8 * k + j) := by
        rw [hcons, Nat.testBit_two_pow_mul_add _ hb, if_neg (by omega),
          show 8 * (k + 1) + (j : ℕ) - 8 = 8 * k + j by omega]
      have hrest := ih (k := k) (by simpa using hk)
      rw [hbit]
      simp only [flipBit, List.modify_succ_cons, ofLittleEndian] at hrest ⊢
      split_ifs with h
      · rw [if_pos h] at hrest
        omega
      · rw [if_neg h] at hrest
        omega

namespace DurableFile

/-- A field the flip is not in. -/
theorem field_flipBit_of_outside (bytes : Bytes) (offset width : ℕ) {i : ℕ}
    (h : i < offset ∨ offset + width ≤ i) (j : Fin 8) :
    field (flipBit bytes i j) offset width = field bytes offset width := by
  unfold field
  rcases h with h | h
  · rw [drop_flipBit_of_lt bytes h]
  · rw [drop_flipBit_of_ge bytes (by omega), take_flipBit, flipBit_of_le]
    rw [List.length_take]
    omega

/-- A field the flip is in. -/
theorem field_flipBit_of_inside {bytes : Bytes} (offset width : ℕ) {i : ℕ} (h : offset ≤ i)
    (h' : i < offset + width) (hi : i < bytes.length) (j : Fin 8) :
    if (field bytes offset width).testBit (8 * (i - offset) + j) then
      field (flipBit bytes i j) offset width < field bytes offset width
    else field bytes offset width < field (flipBit bytes i j) offset width := by
  unfold field
  rw [drop_flipBit_of_ge bytes h, take_flipBit]
  refine ofLittleEndian_flipBit ?_ j
  rw [List.length_take, List.length_drop]
  omega

theorem field_flipBit_ne {bytes : Bytes} (offset width : ℕ) {i : ℕ} (h : offset ≤ i)
    (h' : i < offset + width) (hi : i < bytes.length) (j : Fin 8) :
    field (flipBit bytes i j) offset width ≠ field bytes offset width := by
  have hflip := field_flipBit_of_inside offset width h h' hi j
  split_ifs at hflip
  · exact Nat.ne_of_lt hflip
  · exact Nat.ne_of_gt hflip

/-! ### The snapshot -/

variable {limits : Limits} {compacted : List DurableRecord}

/-- A snapshot any of whose checks fails is refused. -/
theorem loadSnapshot_refused {bytes : Bytes}
    (h : (limits.maxJournalBytes * 4).toNat < bytes.length ∨ bytes.take 4 ≠ snapshotMagic ∨
      field bytes 4 4 ≠ stateFormatVersion ∨
      (crc32c (bytes.drop snapshotHeaderBytes)).toNat ≠ field bytes 32 4) :
    ∃ s, loadSnapshot limits (some bytes) = .error s := by
  rw [loadSnapshot]
  split_ifs with h₁ h₂ h₃ h₄
  · exact ⟨_, rfl⟩
  · exact ⟨_, rfl⟩
  · exact ⟨_, rfl⟩
  · exact ⟨_, rfl⟩
  · dsimp only
    rcases h with h | h | h | h
    · exact absurd h h₁
    · exact absurd h h₃
    · exact absurd h h₄
    · exact ⟨_, if_pos h⟩

/-- A snapshot whose checks all pass yields what its header names. -/
theorem loadSnapshot_accepted {bytes : Bytes}
    (hsize : bytes.length ≤ (limits.maxJournalBytes * 4).toNat)
    (hlong : snapshotHeaderBytes ≤ bytes.length) (hmagic : bytes.take 4 = snapshotMagic)
    (hversion : field bytes 4 4 = stateFormatVersion)
    (hcrc : (crc32c (bytes.drop snapshotHeaderBytes)).toNat = field bytes 32 4) :
    loadSnapshot limits (some bytes) =
      (readRecords limits (field bytes 16 8) (bytes.drop snapshotHeaderBytes)).map
        fun records => (records, UInt64.ofNat (field bytes 24 8)) := by
  rw [loadSnapshot, if_neg (by omega), if_neg (by omega), if_neg (by simp [hmagic]),
    if_neg (by simp [hversion])]
  dsimp only
  rw [if_neg (by simp [hcrc])]
  cases readRecords limits (field bytes 16 8) (bytes.drop snapshotHeaderBytes) <;> rfl

/-- What is known of a snapshot file `checkpoint` wrote. -/
structure Written (limits : Limits) (compacted : List DurableRecord) (file : Bytes) : Prop where
  fits : ∀ r ∈ compacted, Fits limits r
  number : compacted.length < 2 ^ 32
  long : snapshotHeaderBytes ≤ file.length
  magic : file.take 4 = snapshotMagic
  version : field file 4 4 = stateFormatVersion
  count : field file 16 8 = compacted.length
  barrier : field file 24 8 = (DurableStore.barrierOf compacted).toNat
  body : file.drop snapshotHeaderBytes = compacted.flatMap encodeRecord
  crc : (crc32c (file.drop snapshotHeaderBytes)).toNat = field file 32 4

theorem written_snapshotFile (h : (DurableStore.checkCompacted limits 0 compacted).isOk = true) :
    Written limits compacted (snapshotFile compacted) where
  fits := (fits_of_checkCompacted h).1
  number := length_lt_of_checkCompacted h
  long := by
    rw [length_snapshotFile]
    exact Nat.le_add_right _ _
  magic := take_encodeSnapshotHeader ..
  version := field_version ..
  count := field_count _ _ _ _ (by have := length_lt_of_checkCompacted h; omega)
  barrier := field_barrier ..
  body := drop_encodeSnapshotHeader ..
  crc := by
    have hbody : (snapshotFile compacted).drop snapshotHeaderBytes =
        compacted.flatMap encodeRecord := drop_encodeSnapshotHeader ..
    rw [hbody]
    exact (field_bodyCrc ..).symm

namespace Written

variable {file : Bytes} {i : ℕ}

/-- A flip in the magic, the version, the checksum or the body is refused. -/
theorem flip_refused (h : Written limits compacted file) (hi : i < file.length)
    (hwhere : i < 8 ∨ 32 ≤ i ∧ i < 36 ∨ snapshotHeaderBytes ≤ i) (j : Fin 8) :
    ∃ s, loadSnapshot limits (some (flipBit file i j)) = .error s := by
  apply loadSnapshot_refused
  rw [length_flipBit]
  by_cases h₁ : i < 4
  · refine .inr (.inl ?_)
    rw [take_flipBit, ← h.magic]
    exact flipBit_ne (by rw [List.length_take]; omega) j
  by_cases h₂ : i < 8
  · refine .inr (.inr (.inl ?_))
    rw [← h.version]
    exact field_flipBit_ne 4 4 (by omega) (by omega) hi j
  refine .inr (.inr (.inr ?_))
  by_cases h₃ : i < snapshotHeaderBytes
  · -- the checksum itself
    simp only [snapshotHeaderBytes] at h₃ hwhere
    rw [drop_flipBit_of_lt _ (by simpa [snapshotHeaderBytes] using h₃), h.crc]
    exact (field_flipBit_ne 32 4 (by omega) (by omega) hi j).symm
  · -- the body
    have hlong := h.long
    simp only [snapshotHeaderBytes] at h₃ hlong
    rw [drop_flipBit_of_ge _ (by simpa [snapshotHeaderBytes] using h₃),
      field_flipBit_of_outside _ 32 4 (.inr (by omega)), ← h.crc]
    intro heq
    refine crc32c_modify_ne ?_ (flipByte_ne j) (UInt32.toNat_inj.1 heq)
    rw [List.length_drop]
    simp only [snapshotHeaderBytes]
    omega

/-- A flip in the header that leaves magic, version and checksum alone is not noticed; the
numbers are read as they are. -/
theorem flip_header (h : Written limits compacted file)
    (hsize : file.length ≤ (limits.maxJournalBytes * 4).toNat)
    (hwhere : 8 ≤ i ∧ i < 32 ∨ 36 ≤ i ∧ i < snapshotHeaderBytes) (j : Fin 8) :
    loadSnapshot limits (some (flipBit file i j)) =
      (readRecords limits (field (flipBit file i j) 16 8) (compacted.flatMap encodeRecord)).map
        fun records => (records, UInt64.ofNat (field (flipBit file i j) 24 8)) := by
  simp only [snapshotHeaderBytes] at hwhere
  have hdrop : (flipBit file i j).drop snapshotHeaderBytes = file.drop snapshotHeaderBytes :=
    drop_flipBit_of_lt _ (by simp only [snapshotHeaderBytes]; omega) j
  rw [loadSnapshot_accepted, hdrop, h.body]
  · rw [length_flipBit]
    exact hsize
  · rw [length_flipBit]
    exact h.long
  · rw [take_flipBit, flipBit_of_le _ (by rw [List.length_take]; omega), h.magic]
  · rw [field_flipBit_of_outside _ 4 4 (.inr (by omega)), h.version]
  · rw [hdrop, field_flipBit_of_outside _ 32 4 (by omega), h.crc]

/-- The records are all there. -/
theorem readRecords_all (h : Written limits compacted file) :
    readRecords limits compacted.length (compacted.flatMap encodeRecord) = .ok compacted := by
  have hread := readRecords_encodeAll h.fits (Nat.le_refl _) []
  rwa [List.append_nil, List.take_length] at hread

/-- A flip in a field that nothing reads changes nothing. -/
theorem flip_unread (h : Written limits compacted file)
    (hsize : file.length ≤ (limits.maxJournalBytes * 4).toNat)
    (hwhere : 8 ≤ i ∧ i < 16 ∨ 36 ≤ i ∧ i < snapshotHeaderBytes) (j : Fin 8) :
    loadSnapshot limits (some (flipBit file i j)) =
      .ok (compacted, DurableStore.barrierOf compacted) := by
  simp only [snapshotHeaderBytes] at hwhere
  rw [h.flip_header hsize (by simp only [snapshotHeaderBytes]; omega),
    field_flipBit_of_outside _ 16 8 (by omega), field_flipBit_of_outside _ 24 8 (by omega), h.count,
    h.barrier, h.readRecords_all, UInt64.ofNat_toNat]
  rfl

/-- A flip in the barrier is taken for the barrier. -/
theorem flip_barrier (h : Written limits compacted file) (hi : i < file.length)
    (hsize : file.length ≤ (limits.maxJournalBytes * 4).toNat)
    (hwhere : 24 ≤ i ∧ i < 32) (j : Fin 8) :
    ∃ barrier, barrier ≠ DurableStore.barrierOf compacted ∧
      loadSnapshot limits (some (flipBit file i j)) = .ok (compacted, barrier) := by
  refine ⟨UInt64.ofNat (field (flipBit file i j) 24 8), ?_, ?_⟩
  · intro heq
    have hne := field_flipBit_ne 24 8 hwhere.1 (by omega) hi j
    have hlt := field_lt (flipBit file i j) 24 8
    have hnat := congrArg UInt64.toNat heq
    rw [UInt64.toNat_ofNat', Nat.mod_eq_of_lt (by omega), ← h.barrier] at hnat
    exact hne hnat
  · rw [h.flip_header hsize (by omega), field_flipBit_of_outside _ 16 8 (by omega), h.count,
      h.readRecords_all]
    rfl

/-- A flip that makes the count larger is refused; one that makes it smaller drops records. -/
theorem flip_count (h : Written limits compacted file) (hi : i < file.length)
    (hsize : file.length ≤ (limits.maxJournalBytes * 4).toNat)
    (hwhere : 16 ≤ i ∧ i < 24) (j : Fin 8) :
    if compacted.length.testBit (8 * (i - 16) + j) then
      ∃ n < compacted.length, loadSnapshot limits (some (flipBit file i j)) =
        .ok (compacted.take n, DurableStore.barrierOf compacted)
    else ∃ s, loadSnapshot limits (some (flipBit file i j)) = .error s := by
  have hcount := field_flipBit_of_inside 16 8 hwhere.1 (by omega) hi j
  have hload := h.flip_header hsize (i := i) (by omega) j
  rw [field_flipBit_of_outside _ 24 8 (by omega), h.barrier,
    UInt64.ofNat_toNat] at hload
  rw [h.count] at hcount
  split_ifs at hcount ⊢
  · refine ⟨_, hcount, ?_⟩
    have hread := readRecords_encodeAll h.fits (Nat.le_of_lt hcount) []
    rw [List.append_nil] at hread
    rw [hload, hread]
    rfl
  · obtain ⟨s, hs⟩ := readRecords_exhausted h.fits hcount
    exact ⟨s, by rw [hload, hs]; rfl⟩

end Written

/-- Every flip of a snapshot is refused or yields the records and the barrier unchanged,
except those in the barrier and those that clear a bit of the record count. -/
theorem damaged_snapshot_iff
    (h : (DurableStore.checkCompacted limits 0 compacted).isOk = true) {i : ℕ}
    (hi : i < (snapshotFile compacted).length) (j : Fin 8) :
    ((∃ s, loadSnapshot limits (some (flipBit (snapshotFile compacted) i j)) = .error s) ∨
      loadSnapshot limits (some (flipBit (snapshotFile compacted) i j)) =
        .ok (compacted, DurableStore.barrierOf compacted)) ↔
    (limits.maxJournalBytes * 4).toNat < (snapshotFile compacted).length ∨
      ¬ (24 ≤ i ∧ i < 32) ∧
        ¬ (16 ≤ i ∧ i < 24 ∧ compacted.length.testBit (8 * (i - 16) + j) = true) := by
  have hw := written_snapshotFile h
  by_cases hsize : (limits.maxJournalBytes * 4).toNat < (snapshotFile compacted).length
  · refine iff_of_true (.inl (loadSnapshot_refused (.inl ?_))) (.inl hsize)
    rwa [length_flipBit]
  have hsize' : (snapshotFile compacted).length ≤ (limits.maxJournalBytes * 4).toNat := by omega
  -- by where the bit is: barrier, record count, a field not read, or one that is compared
  by_cases hbarrier : 24 ≤ i ∧ i < 32
  · obtain ⟨barrier, hne, hload⟩ := hw.flip_barrier hi hsize' hbarrier j
    refine iff_of_false ?_ (by tauto)
    rw [hload]
    rintro (⟨s, hs⟩ | heq)
    · cases hs
    · simp only [Except.ok.injEq, Prod.mk.injEq, true_and] at heq
      exact hne heq
  by_cases hcount : 16 ≤ i ∧ i < 24
  · have hflip := hw.flip_count hi hsize' hcount j
    split_ifs at hflip with hbit
    · obtain ⟨n, hn, hload⟩ := hflip
      refine iff_of_false ?_ (by tauto)
      rw [hload]
      rintro (⟨s, hs⟩ | heq)
      · cases hs
      · simp only [Except.ok.injEq, Prod.mk.injEq, and_true] at heq
        have hlen := congrArg List.length heq
        rw [List.length_take] at hlen
        omega
    · exact iff_of_true (.inl hflip) (.inr ⟨hbarrier, fun hc => hbit hc.2.2⟩)
  refine iff_of_true ?_ (.inr ⟨hbarrier, fun hc => hcount ⟨hc.1, hc.2.1⟩⟩)
  by_cases hunread : 8 ≤ i ∧ i < 16 ∨ 36 ≤ i ∧ i < snapshotHeaderBytes
  · exact .inr (hw.flip_unread hsize' hunread j)
  · refine .inl (hw.flip_refused hi ?_ j)
    simp only [snapshotHeaderBytes] at hunread ⊢
    omega

/-- A flip in the magic of a snapshot of one record is refused. -/
theorem damaged_snapshot_magic :
    ((∃ s, loadSnapshot {} (some (flipBit (snapshotFile [{ type := .epochAdvance, sequence := 1 }])
        0 3)) = .error s) ∨
      loadSnapshot {} (some (flipBit (snapshotFile [{ type := .epochAdvance, sequence := 1 }])
        0 3)) = .ok ([{ type := .epochAdvance, sequence := 1 }], 1)) ↔
    (({} : Limits).maxJournalBytes * 4).toNat <
        (snapshotFile [{ type := .epochAdvance, sequence := 1 }]).length ∨
      ¬ (24 ≤ 0 ∧ 0 < 32) ∧ ¬ (16 ≤ 0 ∧ 0 < 24 ∧
        [({ type := .epochAdvance, sequence := 1 } : DurableRecord)].length.testBit
          (8 * (0 - 16) + (3 : Fin 8)) = true) :=
  @damaged_snapshot_iff {} _ (by decide) _ (by rw [length_snapshotFile]; decide) 3

/-- Clearing the lowest bit of the record count of a snapshot of one record: the file is
accepted, without the record. -/
theorem shortened_snapshot_absorbed :
    let compacted : List DurableRecord := [{ type := .epochAdvance, sequence := 1 }]
    (checkCheckpoint {} {} compacted).isOk = true ∧
      16 < (snapshotFile compacted).length ∧
      loadSnapshot {} (some (flipBit (snapshotFile compacted) 16 0)) = .ok ([], 1) := by
  decide +kernel

end DurableFile

end Pacing
