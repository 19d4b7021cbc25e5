import PacingFabric.Theorems.Damage

/-!
# Damaged journals

The checksum of a journal record covers its payload. A flip that the checksum, the length or
the bound of a payload gives away ends replay at the record; a flip of the type, the
sequence or the timestamp is replayed.

## Main definitions

* `Unnoticed`: the flips replay takes for data.

## Main results

* `damaged_journal_iff`: after any other flip the journal yields a prefix of its records.
* `forged_timestamp_replayed`: a flip that is replayed as a record that was never appended.
-/

namespace Pacing

namespace DurableFile

variable {limits : Limits}

/-! ### What appends write -/

theorem fits_of_checkAppend {store : DurableStore} {r : DurableRecord}
    (h : (checkAppend limits store r).isOk = true) : Fits limits r := by
  unfold checkAppend at h
  split at h
  · simp [Status.of, Status.isOk] at h
  · split at h
    · simp [Status.of, Status.isOk] at h
    · rename_i hbound
      refine ⟨by omega, ?_⟩
      unfold Checked.narrowU32 at h
      by_cases hlarge : r.payload.length > 0xFFFFFFFF
      · simp [hlarge, Status.of, Status.isOk] at h
      · omega

/-- Successful appends leave their records in the journal, one after another. -/
theorem appendAll_journal {store store' : DurableStore} {files files' : Files}
    {rs : List DurableRecord} (h : appendAll limits store files rs = some (store', files')) :
    files'.journal = files.journal.map (· ++ rs.flatMap encodeRecord) ∧
      ∀ r ∈ rs, Fits limits r := by
  induction rs generalizing store files with
  | nil =>
    simp only [appendAll, Option.some.injEq, Prod.mk.injEq] at h
    rw [← h.2]
    simp
  | cons r rs ih =>
    rw [appendAll] at h
    split at h
    · rename_i hcheck
      obtain ⟨hjournal, hfits⟩ := ih h
      refine ⟨?_, ?_⟩
      · rw [hjournal, appendEffects, Files.applyAll_writeJournal, Option.map_map]
        simp [Function.comp_def]
      · intro x hx
        rcases List.mem_cons.1 hx with rfl | hx
        · exact fits_of_checkAppend hcheck
        · exact hfits x hx
    · cases h

/-! ### One record under a flip -/

theorem flipBit_append_right (a b : Bytes) (k : ℕ) (j : Fin 8) :
    flipBit (a ++ b) (a.length + k) j = a ++ flipBit b k j := by
  induction a with
  | nil => simp
  | cons x a ih =>
    rw [List.cons_append, List.length_cons, Nat.succ_add]
    exact congrArg (x :: ·) ih

theorem flipBit_append_left {a : Bytes} (b : Bytes) {k : ℕ} (hk : k < a.length) (j : Fin 8) :
    flipBit (a ++ b) k j = flipBit a k j ++ b := by
  induction a generalizing k with
  | nil => simp at hk
  | cons x a ih =>
    cases k with
    | zero => rfl
    | succ k => exact congrArg (x :: ·) (ih (by simpa using hk))

/-- A field of the front of a string. -/
theorem field_append_left {a : Bytes} (b : Bytes) {offset width : ℕ}
    (h : offset + width ≤ a.length) : field (a ++ b) offset width = field a offset width := by
  unfold field
  rw [List.drop_append_of_le_length (by omega), List.take_append_of_le_length]
  rw [List.length_drop]
  omega

section
variable {r : DurableRecord} {tail : Bytes} {o : ℕ} {j : Fin 8}

/-- The bytes of a record followed by `tail`, with one bit of the record flipped. -/
private def flipped (r : DurableRecord) (tail : Bytes) (o : ℕ) (j : Fin 8) : Bytes :=
  flipBit (headerOf r ++ (r.payload ++ tail)) o j

private theorem length_flipped :
    (flipped r tail o j).length = recordHeaderBytes + (r.payload ++ tail).length := by
  rw [flipped, length_flipBit, List.length_append, length_headerOf]

/-- The record a header names, under a flip of the header. -/
private theorem field_flipped (offset width : ℕ) (h : o < offset ∨ offset + width ≤ o) :
    field (flipped r tail o j) offset width =
      field (headerOf r ++ (r.payload ++ tail)) offset width :=
  field_flipBit_of_outside _ offset width h j

private theorem field_flipped_ne (offset width : ℕ) (h : offset ≤ o) (h' : o < offset + width)
    (ho : o < recordHeaderBytes) :
    field (flipped r tail o j) offset width ≠
      field (headerOf r ++ (r.payload ++ tail)) offset width := by
  refine field_flipBit_ne offset width h h' ?_ j
  rw [List.length_append, length_headerOf]
  omega

private theorem drop_flipped (ho : o < recordHeaderBytes) :
    (flipped r tail o j).drop recordHeaderBytes = r.payload ++ tail := by
  rw [flipped, drop_flipBit_of_lt _ ho, List.drop_left' (length_headerOf r)]

/-- What is read of bytes that hold at least a header. -/
theorem nextRecord_long {bytes : Bytes} (hlong : recordHeaderBytes ≤ bytes.length) :
    nextRecord limits bytes =
      if limits.maxDurableRecordBytes.toNat < field bytes 4 4 then none
      else if (bytes.drop recordHeaderBytes).length < field bytes 4 4 then none
      else if (crc32c ((bytes.drop recordHeaderBytes).take (field bytes 4 4))).toNat ≠
        field bytes 24 4 then none
      else some (recordOf bytes ((bytes.drop recordHeaderBytes).take (field bytes 4 4)),
        (bytes.drop recordHeaderBytes).drop (field bytes 4 4)) := by
  unfold nextRecord
  rw [if_neg (by omega)]

private theorem long_flipped : recordHeaderBytes ≤ (flipped r tail o j).length := by
  rw [length_flipped]
  exact Nat.le_add_right _ _

/-- A flip outside the length and the checksum of a header: the record is read, under the
header as it is. -/
private theorem nextRecord_flipped_header (hr : Fits limits r) (ho : o < recordHeaderBytes)
    (hlen : o < 4 ∨ 8 ≤ o) (hcrc : o < 24 ∨ 28 ≤ o) :
    nextRecord limits (flipped r tail o j) =
      some (recordOf (flipped r tail o j) r.payload, tail) := by
  have hpayloadLen : field (headerOf r ++ (r.payload ++ tail)) 4 4 = r.payload.length :=
    field_payloadLen _ _ _ _ _ _ hr.2
  have hpayloadCrc : field (headerOf r ++ (r.payload ++ tail)) 24 4 =
      (crc32c r.payload).toNat := field_payloadCrc ..
  have hbound := hr.1
  rw [nextRecord_long long_flipped, drop_flipped ho, field_flipped 4 4 hlen,
    field_flipped 24 4 hcrc, hpayloadLen, hpayloadCrc, if_neg (by omega),
    if_neg (by rw [List.length_append]; omega), List.take_left' rfl, if_neg (by simp),
    List.drop_left' rfl]

/-- A flip of the checksum or of the payload ends replay. -/
private theorem nextRecord_flipped_stopped (hr : Fits limits r)
    (hwhere : 24 ≤ o ∧ o < 28 ∨ recordHeaderBytes ≤ o ∧ o < r.size) :
    nextRecord limits (flipped r tail o j) = none := by
  have hpayloadLen : field (headerOf r ++ (r.payload ++ tail)) 4 4 = r.payload.length :=
    field_payloadLen _ _ _ _ _ _ hr.2
  have hpayloadCrc : field (headerOf r ++ (r.payload ++ tail)) 24 4 =
      (crc32c r.payload).toNat := field_payloadCrc ..
  have hbound := hr.1
  rcases hwhere with ⟨h₁, h₂⟩ | ⟨h₁, h₂⟩
  · have ho : o < recordHeaderBytes := by
      simp only [recordHeaderBytes]
      omega
    rw [nextRecord_long long_flipped, drop_flipped ho, field_flipped 4 4 (.inr (by omega)),
      hpayloadLen, if_neg (by omega), if_neg (by rw [List.length_append]; omega),
      List.take_left' rfl, if_pos]
    rw [← hpayloadCrc]
    exact (field_flipped_ne 24 4 h₁ (by omega) ho).symm
  · have hsize : o - recordHeaderBytes < r.payload.length := by
      simp only [DurableRecord.size] at h₂
      omega
    have hdrop : (flipped r tail o j).drop recordHeaderBytes =
        flipBit (r.payload ++ tail) (o - recordHeaderBytes) j := by
      rw [flipped, drop_flipBit_of_ge _ h₁, List.drop_left' (length_headerOf r)]
    simp only [recordHeaderBytes] at h₁
    rw [nextRecord_long long_flipped, hdrop, field_flipped 4 4 (.inr (by omega)), hpayloadLen,
      if_neg (by omega), if_neg (by rw [length_flipBit, List.length_append]; omega),
      take_flipBit, List.take_left' rfl, if_pos]
    rw [field_flipped 24 4 (.inr (by omega)), hpayloadCrc]
    exact fun h => crc32c_modify_ne hsize (flipByte_ne j) (UInt32.toNat_inj.1 h)

/-- A flip of the length is read as another payload when everything about it fits. -/
private theorem nextRecord_flipped_length (ho : 4 ≤ o ∧ o < 8) :
    nextRecord limits (flipped r tail o j) =
      if limits.maxDurableRecordBytes.toNat < field (flipped r tail o j) 4 4 then none
      else if (r.payload ++ tail).length < field (flipped r tail o j) 4 4 then none
      else if crc32c ((r.payload ++ tail).take (field (flipped r tail o j) 4 4)) ≠
        crc32c r.payload then none
      else some (recordOf (flipped r tail o j)
          ((r.payload ++ tail).take (field (flipped r tail o j) 4 4)),
        (r.payload ++ tail).drop (field (flipped r tail o j) 4 4)) := by
  have hlt : o < recordHeaderBytes := by
    simp only [recordHeaderBytes]
    omega
  have hpayloadCrc : field (headerOf r ++ (r.payload ++ tail)) 24 4 =
      (crc32c r.payload).toNat := field_payloadCrc ..
  rw [nextRecord_long long_flipped, drop_flipped hlt, field_flipped 24 4 (.inl (by omega)),
    hpayloadCrc]
  simp only [ne_eq, UInt32.toNat_inj]

/-- The fields a record was read from. -/
private theorem fields_recordOf {bytes payload : Bytes} {x : DurableRecord}
    (h : recordOf bytes payload = x) :
    field bytes 0 2 = x.type.raw.toNat ∧ field bytes 8 8 = x.sequence.toNat ∧
      field bytes 16 8 = x.timestampNs.toNat := by
  have htype := field_lt bytes 0 2
  have hsequence := field_lt bytes 8 8
  have htimestamp := field_lt bytes 16 8
  subst h
  simp only [recordOf, DurableRecordType.raw_ofRaw, UInt16.toNat_ofNat', UInt64.toNat_ofNat']
  refine ⟨?_, ?_, ?_⟩
  · rw [Nat.mod_eq_of_lt (by omega)]
  · rw [Nat.mod_eq_of_lt (by omega)]
  · rw [Nat.mod_eq_of_lt (by omega)]

/-- The fields of the record a flipped header names. -/
private theorem recordOf_flipped (hwhere : 2 ≤ o ∧ o < 8 ∨ 24 ≤ o) (payload : Bytes) :
    recordOf (flipped r tail o j) payload = { r with payload := payload } := by
  have h := congrArg (fun x : DurableRecord => { x with payload := payload })
    (recordOf_headerOf r (r.payload ++ tail))
  unfold recordOf at h ⊢
  rw [field_flipped 0 2 (by omega), field_flipped 8 8 (by omega), field_flipped 16 8 (by omega)]
  exact h

private theorem recordOf_flipped_ne (hwhere : o < 2 ∨ 8 ≤ o ∧ o < 24) :
    recordOf (flipped r tail o j) r.payload ≠ r := by
  have ho : o < recordHeaderBytes := by
    simp only [recordHeaderBytes]
    omega
  intro h
  obtain ⟨htype, hsequence, htimestamp⟩ := fields_recordOf h
  obtain ⟨htype', hsequence', htimestamp'⟩ := fields_recordOf
    (recordOf_headerOf r (r.payload ++ tail))
  rcases hwhere with hwhere | hwhere
  · exact @field_flipped_ne r tail o j 0 2 (Nat.zero_le o) (by omega) ho
      (htype.trans htype'.symm)
  by_cases hseq : o < 16
  · exact @field_flipped_ne r tail o j 8 8 hwhere.1 (by omega) ho
      (hsequence.trans hsequence'.symm)
  · exact @field_flipped_ne r tail o j 16 8 (by omega) (by omega) ho
      (htimestamp.trans htimestamp'.symm)

end

/-! ### The journal under a flip -/

/-- The flips of byte `o` of a record that replay takes for data: the type, the timestamp, a
sequence above the barrier, and a length whose payload has the checksum of the old one. A
sequence that falls to the barrier drops the record, which shows unless the records that
follow are copies of it. -/
inductive Unnoticed (limits : Limits) (r : DurableRecord) (post : List DurableRecord) (o : ℕ)
    (j : Fin 8) : Prop
  | type (here : o < 2)
  | timestamp (here : 16 ≤ o ∧ o < 24)
  | sequence (here : 8 ≤ o ∧ o < 16)
      (shows : field (flipBit (encodeRecord r) o j) 8 8 ≠ 0 ∨ ∃ x ∈ post, x ≠ r)
  | length (here : 4 ≤ o ∧ o < 8)
      (bound : field (flipBit (encodeRecord r) o j) 4 4 ≤ limits.maxDurableRecordBytes.toNat)
      (room : field (flipBit (encodeRecord r) o j) 4 4 ≤
        (r.payload ++ post.flatMap encodeRecord).length)
      (collision : crc32c ((r.payload ++ post.flatMap encodeRecord).take
        (field (flipBit (encodeRecord r) o j) 4 4)) = crc32c r.payload)

section
variable {pre post rs : List DurableRecord} {r : DurableRecord} {o : ℕ} {j : Fin 8}

private theorem flipped_eq (tail : Bytes) (ho : o < r.size) :
    flipped r tail o j = flipBit (encodeRecord r) o j ++ tail := by
  rw [flipped, ← List.append_assoc, ← encodeRecord_eq]
  exact flipBit_append_left tail (by rwa [length_encodeRecord]) j

private theorem field_flipped_record (tail : Bytes) (ho : o < r.size) {offset width : ℕ}
    (h : offset + width ≤ recordHeaderBytes) :
    field (flipped r tail o j) offset width =
      field (flipBit (encodeRecord r) o j) offset width := by
  rw [flipped_eq tail ho, field_append_left]
  rw [length_flipBit, length_encodeRecord]
  exact Nat.le_trans h (Nat.le_add_right _ _)

/-- What loading yields after a flip in the record between `pre` and `post`. -/
private theorem loadJournal_flipped (hfits : ∀ x ∈ pre, Fits limits x)
    (hseq : ∀ x ∈ pre, 0 < x.sequence) (ho : o < r.size)
    (hsize : (journalHeader ++ (pre ++ r :: post).flatMap encodeRecord).length ≤
      limits.maxJournalBytes.toNat) :
    loadJournal limits 0 (some (flipBit
        (journalHeader ++ (pre ++ r :: post).flatMap encodeRecord)
        (journalHeaderBytes + (pre.flatMap encodeRecord).length + o) j)) =
      .ok (pre ++ ((records limits).read (flipped r (post.flatMap encodeRecord) o j)).filter
        fun x => decide (0 < x.sequence)) := by
  have hflip : flipBit (journalHeader ++ (pre ++ r :: post).flatMap encodeRecord)
      (journalHeaderBytes + (pre.flatMap encodeRecord).length + o) j =
      journalHeader ++ (pre.flatMap encodeRecord ++
        flipped r (post.flatMap encodeRecord) o j) := by
    rw [← length_journalHeader, Nat.add_assoc, flipBit_append_right, List.flatMap_append,
      flipBit_append_right, List.flatMap_cons, flipped_eq _ ho,
      flipBit_append_left _ (by rwa [length_encodeRecord])]
  have hlength := congrArg List.length hflip
  rw [length_flipBit] at hlength
  rw [hflip, loadJournal_header 0 (by rw [← hlength]; exact hsize)]
  have hread := (records_lawful limits).read_append hfits
    (flipped r (post.flatMap encodeRecord) o j)
  rw [Framing.encodeAll, records_encode] at hread
  rw [hread, List.filter_append, List.filter_eq_self.2]
  intro x hx
  simpa using hseq x hx

/-- What is read from the flipped record on. -/
private theorem read_flipped_some {x : DurableRecord} {rest : Bytes}
    (h : nextRecord limits (flipped r (post.flatMap encodeRecord) o j) = some (x, rest)) :
    (records limits).read (flipped r (post.flatMap encodeRecord) o j) =
      x :: (records limits).read rest := by
  rw [← records_next] at h
  exact (records_lawful limits).read_of_next h

private theorem read_flipped_none
    (h : nextRecord limits (flipped r (post.flatMap encodeRecord) o j) = none) :
    (records limits).read (flipped r (post.flatMap encodeRecord) o j) = [] := by
  rw [← records_next] at h
  exact Framing.Lawful.read_of_none h

private theorem read_post (hfits : ∀ x ∈ post, Fits limits x) :
    (records limits).read (post.flatMap encodeRecord) = post := by
  have h := (records_lawful limits).read_append hfits []
  have hnil : (records limits).read [] = [] := rfl
  rwa [List.append_nil, Framing.encodeAll, records_encode, hnil, List.append_nil] at h

/-- A tail of copies is a prefix of itself with one more copy, and no other tail is. -/
private theorem prefix_cons_iff {α : Type*} {x : α} {l : List α} :
    l <+: x :: l ↔ ∀ y ∈ l, y = x := by
  induction l with
  | nil => simp
  | cons y l ih =>
    rw [List.cons_prefix_cons, List.forall_mem_cons]
    constructor
    · rintro ⟨rfl, h⟩
      exact ⟨rfl, ih.1 h⟩
    · rintro ⟨rfl, h⟩
      exact ⟨rfl, ih.2 h⟩

private theorem not_prefix {α : Type*} {x y : α} {l xs ys : List α} (h : x ≠ y) :
    ¬ l ++ x :: xs <+: l ++ y :: ys := by
  rw [List.prefix_append_right_inj, List.cons_prefix_cons]
  exact fun hp => h hp.1

private theorem sequence_flipped (payload : Bytes) (hwhere : o < 8 ∨ 16 ≤ o) :
    (recordOf (flipped r (post.flatMap encodeRecord) o j) payload).sequence = r.sequence := by
  obtain ⟨-, hsequence, -⟩ := fields_recordOf
    (recordOf_headerOf r (r.payload ++ post.flatMap encodeRecord))
  simp only [recordOf]
  rw [field_flipped 8 8 hwhere, hsequence, UInt64.ofNat_toNat]

/-- A flip that replay takes for data yields a record that was not there, or leaves one out. -/
private theorem not_prefix_of_unnoticed (hr : Fits limits r) (hpost : ∀ x ∈ post, Fits limits x)
    (hseq : 0 < r.sequence) (hseqs : ∀ x ∈ post, 0 < x.sequence) (ho : o < r.size)
    (h : Unnoticed limits r post o j) :
    ¬ pre ++ ((records limits).read (flipped r (post.flatMap encodeRecord) o j)).filter
        (fun x => decide (0 < x.sequence)) <+: pre ++ r :: post := by
  -- a changed record above the barrier
  have hchanged : ∀ {x : DurableRecord} {rest : Bytes}, x ≠ r → 0 < x.sequence →
      nextRecord limits (flipped r (post.flatMap encodeRecord) o j) = some (x, rest) →
      ¬ pre ++ ((records limits).read (flipped r (post.flatMap encodeRecord) o j)).filter
        (fun x => decide (0 < x.sequence)) <+: pre ++ r :: post := by
    intro x rest hne hpos hnext
    rw [read_flipped_some hnext, List.filter_cons, if_pos (by simpa using hpos)]
    exact not_prefix hne
  have hheader : o < 4 ∨ 8 ≤ o ∧ o < 24 →
      nextRecord limits (flipped r (post.flatMap encodeRecord) o j) =
        some (recordOf (flipped r (post.flatMap encodeRecord) o j) r.payload,
          post.flatMap encodeRecord) := fun hwhere =>
    nextRecord_flipped_header hr (by simp only [recordHeaderBytes]; omega) (by omega) (by omega)
  cases h with
  | type here =>
    refine hchanged (recordOf_flipped_ne (.inl here)) ?_ (hheader (by omega))
    rwa [sequence_flipped _ (by omega)]
  | timestamp here =>
    refine hchanged (recordOf_flipped_ne (.inr (by omega))) ?_ (hheader (by omega))
    rwa [sequence_flipped _ (by omega)]
  | sequence here shows =>
    have hnext := hheader (by omega)
    rw [← field_flipped_record (post.flatMap encodeRecord) ho
      (by simp only [recordHeaderBytes]; omega)] at shows
    by_cases hzero : field (flipped r (post.flatMap encodeRecord) o j) 8 8 = 0
    · -- the record falls to the barrier
      obtain ⟨x, hx, hne⟩ := shows.resolve_left (not_not_intro hzero)
      rw [read_flipped_some hnext, List.filter_cons, if_neg (by simp [recordOf, hzero]),
        read_post hpost, List.filter_eq_self.2 fun y hy => by simpa using hseqs y hy,
        List.prefix_append_right_inj, prefix_cons_iff]
      exact fun hall => hne (hall x hx)
    · refine hchanged (recordOf_flipped_ne (.inr (by omega))) ?_ hnext
      have hlt := field_lt (flipped r (post.flatMap encodeRecord) o j) 8 8
      simp only [recordOf]
      rw [UInt64.lt_iff_toNat_lt, UInt64.toNat_ofNat', Nat.mod_eq_of_lt (by omega)]
      exact Nat.pos_of_ne_zero hzero
  | length here bound room collision =>
    have hlen := @field_flipped_record r o j (post.flatMap encodeRecord) ho 4 4
      (by simp only [recordHeaderBytes]; omega)
    rw [← hlen] at bound room collision
    have hnext := @nextRecord_flipped_length limits r (post.flatMap encodeRecord) o j here
    rw [if_neg (by omega), if_neg (by omega), if_neg (not_not_intro collision)] at hnext
    refine hchanged ?_ ?_ hnext
    · intro heq
      have hpayload := congrArg List.length (congrArg DurableRecord.payload heq)
      have hpayloadLen : field (headerOf r ++ (r.payload ++ post.flatMap encodeRecord)) 4 4 =
          r.payload.length := field_payloadLen _ _ _ _ _ _ hr.2
      refine @field_flipped_ne r (post.flatMap encodeRecord) o j 4 4 here.1 (by omega)
        (by simp only [recordHeaderBytes]; omega) ?_
      rw [hpayloadLen, ← hpayload]
      simp only [recordOf, List.length_take]
      omega
    · rwa [sequence_flipped _ (by omega)]

/-- Any other flip ends replay at the record, or changes nothing, or drops a copy. -/
private theorem prefix_of_noticed (hr : Fits limits r) (hpost : ∀ x ∈ post, Fits limits x)
    (hseq : 0 < r.sequence) (hseqs : ∀ x ∈ post, 0 < x.sequence) (ho : o < r.size)
    (h : ¬ Unnoticed limits r post o j) :
    pre ++ ((records limits).read (flipped r (post.flatMap encodeRecord) o j)).filter
        (fun x => decide (0 < x.sequence)) <+: pre ++ r :: post := by
  have hstops : nextRecord limits (flipped r (post.flatMap encodeRecord) o j) = none →
      pre ++ ((records limits).read (flipped r (post.flatMap encodeRecord) o j)).filter
        (fun x => decide (0 < x.sequence)) <+: pre ++ r :: post := by
    intro hnext
    rw [read_flipped_none hnext, List.filter_nil, List.append_nil]
    exact List.prefix_append _ _
  have htail : ((records limits).read (post.flatMap encodeRecord)).filter
      (fun x => decide (0 < x.sequence)) = post := by
    rw [read_post hpost, List.filter_eq_self.2 fun y hy => by simpa using hseqs y hy]
  -- by the field the bit is in: checksum or payload, length, sequence, or one not read
  by_cases hstop : 24 ≤ o ∧ o < 28 ∨ recordHeaderBytes ≤ o ∧ o < r.size
  · exact hstops (nextRecord_flipped_stopped hr hstop)
  by_cases hlength : 4 ≤ o ∧ o < 8
  · have hlen := @field_flipped_record r o j (post.flatMap encodeRecord) ho 4 4
      (by simp only [recordHeaderBytes]; omega)
    refine hstops ?_
    rw [nextRecord_flipped_length hlength, hlen]
    by_cases hbound : limits.maxDurableRecordBytes.toNat < field (flipBit (encodeRecord r) o j) 4 4
    · rw [if_pos hbound]
    by_cases hroom : (r.payload ++ post.flatMap encodeRecord).length <
        field (flipBit (encodeRecord r) o j) 4 4
    · rw [if_neg hbound, if_pos hroom]
    rw [if_neg hbound, if_neg hroom, if_pos]
    exact fun hcollision => h (.length hlength (by omega) (by omega) hcollision)
  have hheader : o < recordHeaderBytes := by omega
  have hnext := @nextRecord_flipped_header limits r (post.flatMap encodeRecord) o j hr hheader
    (by omega) (by omega)
  rw [read_flipped_some hnext, List.filter_cons, htail]
  by_cases hsequence : 8 ≤ o ∧ o < 16
  · have hshows : ¬ (field (flipBit (encodeRecord r) o j) 8 8 ≠ 0 ∨ ∃ x ∈ post, x ≠ r) :=
      fun hs => h (.sequence hsequence hs)
    rw [← field_flipped_record (post.flatMap encodeRecord) ho
      (by simp only [recordHeaderBytes]; omega), not_or, not_not] at hshows
    rw [if_neg (by simp [recordOf, hshows.1]), List.prefix_append_right_inj, prefix_cons_iff]
    intro y hy
    by_contra hne
    exact hshows.2 ⟨y, hy, hne⟩
  · -- a field that nothing reads
    have hunread : 2 ≤ o ∧ o < 8 ∨ 24 ≤ o := by
      by_contra hread
      by_cases htype : o < 2
      · exact h (.type htype)
      · exact h (.timestamp (by omega))
    rewrite [recordOf_flipped hunread, if_pos (by simpa using hseq)]
    exact List.prefix_rfl

/-- A byte of the records of a journal lies in one of them. -/
private theorem exists_record {k : ℕ} (hk : k < (rs.flatMap encodeRecord).length) :
    ∃ pre r post o, rs = pre ++ r :: post ∧ o < r.size ∧
      k = (pre.flatMap encodeRecord).length + o := by
  induction rs generalizing k with
  | nil => simp at hk
  | cons x rs ih =>
    rw [List.flatMap_cons, List.length_append, length_encodeRecord] at hk
    by_cases hx : k < x.size
    · exact ⟨[], x, rs, k, rfl, hx, by simp⟩
    · obtain ⟨pre, r, post, o, rfl, ho, hk'⟩ := ih (k := k - x.size) (by omega)
      refine ⟨x :: pre, r, post, o, rfl, ho, ?_⟩
      rw [List.flatMap_cons, List.length_append, length_encodeRecord]
      omega

end

/-- A flip behind the header of a journal that successful appends wrote is refused or yields
a prefix of the records, exactly when it is not one that replay takes for data. -/
theorem damaged_journal_iff {store store' : DurableStore} {files' : Files}
    {rs : List DurableRecord} {file : Bytes}
    (happend : appendAll limits store { journal := some journalHeader } rs = some (store', files'))
    (hfile : files'.journal = some file) (hseq : ∀ r ∈ rs, 0 < r.sequence) {i : ℕ}
    (hi : journalHeaderBytes ≤ i) (hi' : i < file.length) (j : Fin 8) :
    ((∃ s, loadJournal limits 0 (some (flipBit file i j)) = .error s) ∨
      ∃ out, loadJournal limits 0 (some (flipBit file i j)) = .ok out ∧ out <+: rs) ↔
    limits.maxJournalBytes.toNat < file.length ∨
      ∀ pre r post o, rs = pre ++ r :: post → o < r.size →
        i = journalHeaderBytes + (pre.flatMap encodeRecord).length + o →
        ¬ Unnoticed limits r post o j := by
  obtain ⟨hjournal, hfits⟩ := appendAll_journal happend
  rw [hfile, Option.map_some, Option.some.injEq] at hjournal
  subst hjournal
  by_cases hsize : limits.maxJournalBytes.toNat <
      (journalHeader ++ rs.flatMap encodeRecord).length
  · exact iff_of_true (.inl ⟨_, by rw [loadJournal, if_pos (by rwa [length_flipBit])]⟩)
      (.inl hsize)
  have hsize' := Nat.le_of_not_lt hsize
  -- what is loaded, for each way to place the flip in a record
  have hload : ∀ pre r post o, rs = pre ++ r :: post → o < r.size →
      i = journalHeaderBytes + (pre.flatMap encodeRecord).length + o →
      loadJournal limits 0 (some (flipBit (journalHeader ++ rs.flatMap encodeRecord) i j)) =
        .ok (pre ++ ((records limits).read (flipped r (post.flatMap encodeRecord) o j)).filter
          fun x => decide (0 < x.sequence)) := by
    rintro pre r post o rfl ho rfl
    exact loadJournal_flipped (fun x hx => hfits x (by simp [hx]))
      (fun x hx => hseq x (by simp [hx])) ho hsize'
  constructor
  · rintro h
    refine .inr ?_
    intro pre r post o hrs ho hio hbad
    rw [hload pre r post o hrs ho hio] at h
    subst hrs
    rcases h with ⟨s, hs⟩ | ⟨out, hout, hprefix⟩
    · cases hs
    · cases hout
      exact not_prefix_of_unnoticed (hfits r (by simp)) (fun x hx => hfits x (by simp [hx]))
        (hseq r (by simp)) (fun x hx => hseq x (by simp [hx])) ho hbad hprefix
  · rintro (h | h)
    · exact absurd h hsize
    · rw [List.length_append, length_journalHeader] at hi'
      obtain ⟨pre, r, post, o, hrs, ho, hk⟩ := @exists_record rs (i - journalHeaderBytes)
        (by omega)
      have hio : i = journalHeaderBytes + (pre.flatMap encodeRecord).length + o := by omega
      refine .inr ⟨_, hload pre r post o hrs ho hio, ?_⟩
      have hgood := h pre r post o hrs ho hio
      subst hrs
      exact prefix_of_noticed (hfits r (by simp)) (fun x hx => hfits x (by simp [hx]))
        (hseq r (by simp)) (fun x hx => hseq x (by simp [hx])) ho hgood

/-- The journal of one appended record without payload. -/
def oneRecordJournal : Bytes :=
  journalHeader ++ encodeRecord { type := .epochAdvance, sequence := 1, timestampNs := 5 }

private theorem appendAll_oneRecord :
    appendAll {} {} { journal := some journalHeader }
      [{ type := .epochAdvance, sequence := 1, timestampNs := 5 }] =
      some (appended {} { type := .epochAdvance, sequence := 1, timestampNs := 5 },
        { journal := some oneRecordJournal }) := by
  have hfiles : Files.applyAll { journal := some journalHeader }
      (appendEffects { type := .epochAdvance, sequence := 1, timestampNs := 5 }) =
      { journal := some oneRecordJournal } := by
    decide +kernel
  rw [appendAll, if_pos (by decide), hfiles, appendAll]

/-- A flip in the stored checksum of a journal of one record is given away. -/
theorem damaged_journal_crc :
    ((∃ s, loadJournal {} 0 (some (flipBit oneRecordJournal 44 3)) = .error s) ∨
      ∃ out, loadJournal {} 0 (some (flipBit oneRecordJournal 44 3)) = .ok out ∧
        out <+: [{ type := .epochAdvance, sequence := 1, timestampNs := 5 }]) ↔
    ({} : Limits).maxJournalBytes.toNat < oneRecordJournal.length ∨
      ∀ pre r post o,
        [{ type := .epochAdvance, sequence := 1, timestampNs := 5 }] = pre ++ r :: post →
        o < r.size → 44 = journalHeaderBytes + (pre.flatMap encodeRecord).length + o →
        ¬ Unnoticed {} r post o 3 :=
  damaged_journal_iff appendAll_oneRecord rfl (by decide) (by decide) (by decide +kernel) 3

/-- A flipped bit of the timestamp: replay yields a record that was never appended. -/
theorem forged_timestamp_replayed :
    appendAll {} {} { journal := some journalHeader }
        [{ type := .epochAdvance, sequence := 1, timestampNs := 5 }] =
      some (appended {} { type := .epochAdvance, sequence := 1, timestampNs := 5 },
        { journal := some oneRecordJournal }) ∧
    journalHeaderBytes ≤ 32 ∧ 32 < oneRecordJournal.length ∧
    loadJournal {} 0 (some (flipBit oneRecordJournal 32 1)) =
      .ok [{ type := .epochAdvance, sequence := 1, timestampNs := 7 }] :=
  ⟨appendAll_oneRecord, by decide, by decide +kernel, by decide +kernel⟩

end DurableFile

end Pacing
