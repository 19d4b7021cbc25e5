import PacingFabric.Theorems.Format

/-!
# Checkpoints

A checkpoint writes a temporary file, renames it over the snapshot and truncates the
journal. Until the rename the old files are in force; from the rename on, the barrier of the
new snapshot covers every record the journal may still hold.

## Main results

* `checkpoint_reopens_iff`: when a snapshot that was written is read back.
* `checkpoint_crash_atomic`: a crash at any point leaves the old contents or the new.
-/

namespace Pacing

namespace DurableFile

variable {limits : Limits} {compacted : List DurableRecord}

/-! ### The snapshot that was written -/

theorem length_flatMap_encodeRecord (items : List DurableRecord) :
    (items.flatMap encodeRecord).length = (items.map DurableRecord.size).sum := by
  rw [List.length_flatMap]
  simp only [length_encodeRecord]

theorem length_snapshotFile : (snapshotFile compacted).length =
    snapshotHeaderBytes + (compacted.map DurableRecord.size).sum := by
  rw [snapshotFile, List.length_append, length_encodeSnapshotHeader,
    length_flatMap_encodeRecord]

theorem length_lt_of_checkCompacted
    (h : (DurableStore.checkCompacted limits 0 compacted).isOk = true) :
    compacted.length < 2 ^ 32 := by
  have hlt := limits.maxCompactionBatch.toNat_lt
  rcases (fits_of_checkCompacted h).2 with rfl | hlen
  · simp
  · omega

/-- A snapshot within the bound of the loader is read back as it was written. -/
theorem loadSnapshot_snapshotFile
    (h : (DurableStore.checkCompacted limits 0 compacted).isOk = true)
    (hsize : snapshotHeaderBytes + (compacted.map DurableRecord.size).sum ≤
      (limits.maxJournalBytes * 4).toNat) :
    loadSnapshot limits (some (snapshotFile compacted)) =
      .ok (compacted, DurableStore.barrierOf compacted) := by
  have hcount := length_lt_of_checkCompacted h
  have hread := readRecords_encodeAll (fits_of_checkCompacted h).1 (Nat.le_refl _) []
  rw [List.append_nil, List.take_length] at hread
  rw [snapshotFile, loadSnapshot_header (by omega)
    (by rw [length_flatMap_encodeRecord]; exact hsize), hread]
  rfl

/-! ### The effects of a checkpoint -/

namespace Files

variable (files : Files)

theorem applyAll_append (xs ys : List Effect) :
    files.applyAll (xs ++ ys) = (files.applyAll xs).applyAll ys := List.foldl_append

theorem applyAll_writeTemporary (bytes : Bytes) :
    files.applyAll (bytes.map .writeTemporary) =
      { files with temporary := files.temporary.map (· ++ bytes) } := by
  induction bytes generalizing files with
  | nil => simp [applyAll]
  | cons b bytes ih =>
    rw [List.map_cons, applyAll, List.foldl_cons]
    change (files.apply (.writeTemporary b)).applyAll _ = _
    rw [ih]
    simp [apply, Function.comp_def]

theorem applyAll_writeJournal (bytes : Bytes) :
    files.applyAll (bytes.map .writeJournal) =
      { files with journal := files.journal.map (· ++ bytes) } := by
  induction bytes generalizing files with
  | nil => simp [applyAll]
  | cons b bytes ih =>
    rw [List.map_cons, applyAll, List.foldl_cons]
    change (files.apply (.writeJournal b)).applyAll _ = _
    rw [ih]
    simp [apply, Function.comp_def]

/-- A part of the effects that recreate the journal leaves a part of its header. -/
theorem applyAll_take_freshJournal (n : ℕ) :
    files.applyAll (freshJournal.take n) =
      if n = 0 then files else { files with journal := some (journalHeader.take (n - 1)) } := by
  cases n with
  | zero => rfl
  | succ n =>
    rw [freshJournal, List.take_succ_cons, ← List.map_take, if_neg (by omega),
      Nat.add_sub_cancel]
    change (files.apply .createJournal).applyAll _ = _
    rw [applyAll_writeJournal]
    simp [apply]

/-- The files in force after any part of a checkpoint. -/
theorem applyAll_take_checkpointEffects (compacted : List DurableRecord) (n : ℕ) :
    ((files.applyAll ((checkpointEffects compacted).take n)).snapshot = files.snapshot ∧
      (files.applyAll ((checkpointEffects compacted).take n)).journal = files.journal) ∨
    ((files.applyAll ((checkpointEffects compacted).take n)).snapshot =
        some (snapshotFile compacted) ∧
      ((files.applyAll ((checkpointEffects compacted).take n)).journal = files.journal ∨
        ∃ k, (files.applyAll ((checkpointEffects compacted).take n)).journal =
          some (journalHeader.take k))) := by
  have hcreate : ∀ g : List Effect, files.applyAll (.createTemporary :: g) =
      ({ files with temporary := some [] } : Files).applyAll g := fun _ => rfl
  cases n with
  | zero => exact .inl ⟨rfl, rfl⟩
  | succ n =>
    rw [checkpointEffects, List.cons_append, List.take_succ_cons, hcreate, List.take_append,
      applyAll_append, ← List.map_take, applyAll_writeTemporary]
    cases hm : n - ((snapshotFile compacted).map Effect.writeTemporary).length with
    | zero => exact .inl ⟨rfl, rfl⟩
    | succ m =>
      -- the temporary file is complete before the first effect that follows it
      have hfull : (snapshotFile compacted).take n = snapshotFile compacted := by
        rw [List.length_map] at hm
        exact List.take_of_length_le (by omega)
      rw [hfull, List.take_succ_cons]
      change (_ ∧ _) ∨ ((Files.applyAll (Files.apply _ .replaceSnapshot) _).snapshot = _ ∧
        ((Files.applyAll (Files.apply _ .replaceSnapshot) _).journal = _ ∨
          ∃ k, (Files.applyAll (Files.apply _ .replaceSnapshot) _).journal = _))
      rw [applyAll_take_freshJournal]
      refine .inr ?_
      split
      · exact ⟨rfl, .inl rfl⟩
      · exact ⟨rfl, .inr ⟨_, rfl⟩⟩

/-- The files once a checkpoint is complete. -/
theorem applyAll_checkpointEffects (compacted : List DurableRecord) :
    files.applyAll (checkpointEffects compacted) =
      { snapshot := some (snapshotFile compacted), journal := some journalHeader } := by
  have hcreate : ∀ g : List Effect, files.applyAll (.createTemporary :: g) =
      ({ files with temporary := some [] } : Files).applyAll g := fun _ => rfl
  have hreplace : ∀ g : Files,
      g.applyAll (.replaceSnapshot :: freshJournal) =
        { snapshot := g.temporary, journal := some journalHeader } := by
    intro g
    have h := applyAll_take_freshJournal (g.apply .replaceSnapshot) freshJournal.length
    rw [List.take_length, if_neg (by decide)] at h
    exact h
  rw [checkpointEffects, List.cons_append, hcreate, applyAll_append, applyAll_writeTemporary,
    hreplace]
  simp

end Files

/-- A checkpoint that succeeded is loaded by the next `open` exactly when the file it wrote is
within four times the bound of the journal. -/
theorem checkpoint_reopens_iff {store : DurableStore} (files : Files)
    (h : (checkCheckpoint limits store compacted).isOk = true) :
    (∃ out, loadSnapshot limits (files.applyAll (checkpointEffects compacted)).snapshot = .ok out) ↔
      snapshotHeaderBytes + (compacted.map DurableRecord.size).sum ≤
        (limits.maxJournalBytes * 4).toNat := by
  have hcheck : (DurableStore.checkCompacted limits 0 compacted).isOk = true := by
    unfold checkCheckpoint at h
    dsimp only at h
    split at h
    · simp_all
    · simp_all
  rw [Files.applyAll_checkpointEffects]
  constructor
  · rintro ⟨out, hout⟩
    by_contra hlarge
    rw [loadSnapshot, if_pos (by rw [length_snapshotFile]; omega)] at hout
    cases hout
  · intro hsize
    exact ⟨_, loadSnapshot_snapshotFile hcheck hsize⟩

/-- One small record is within the bound of the default limits. -/
theorem checkpoint_reopens_oneRecord :
    (∃ out, loadSnapshot {} ((({} : Files).applyAll
      (checkpointEffects [{ type := .flowUnbound, sequence := 1 }])).snapshot) = .ok out) ↔
      snapshotHeaderBytes +
        (([{ type := .flowUnbound, sequence := 1 }] : List DurableRecord).map
          DurableRecord.size).sum ≤ (({} : Limits).maxJournalBytes * 4).toNat :=
  @checkpoint_reopens_iff _ _ {} {} (by decide)

/-- Coherent limits under which a checkpoint of one record succeeds and the next `open`
refuses the snapshot it left. -/
theorem checkpoint_refused_at_reopen :
    ∃ (limits : Limits) (store : DurableStore) (compacted : List DurableRecord),
      limits.coherent = true ∧ (checkCheckpoint limits store compacted).isOk = true ∧
      ∃ s, loadSnapshot limits
        (({} : Files).applyAll (checkpointEffects compacted)).snapshot = .error s := by
  refine ⟨{ maxJournalBytes := 16, maxDurableRecordBytes := 16 }, {},
    [{ type := .flowUnbound, sequence := 1 }], by decide, by decide, ?_⟩
  rw [Files.applyAll_checkpointEffects]
  exact ⟨_, by rw [loadSnapshot, if_pos (by rw [length_snapshotFile]; decide)]⟩

/-! ### Crashes -/

private theorem le_max_sequence (a b : UInt64) : a ≤ max a b ∧ b ≤ max a b := by
  change a ≤ (if a ≤ b then b else a) ∧ b ≤ (if a ≤ b then b else a)
  split_ifs with h
  · exact ⟨h, UInt64.le_refl b⟩
  · exact ⟨UInt64.le_refl a, UInt64.le_of_lt (UInt64.not_le.1 h)⟩

theorem le_barrierOf {r : DurableRecord} (hr : r ∈ compacted) :
    r.sequence ≤ DurableStore.barrierOf compacted := by
  have hfold : ∀ (l : List DurableRecord) (b : UInt64),
      b ≤ l.foldl (fun barrier r => max barrier r.sequence) b ∧
        ∀ r ∈ l, r.sequence ≤ l.foldl (fun barrier r => max barrier r.sequence) b := by
    intro l
    induction l with
    | nil => simp
    | cons x l ih =>
      intro b
      obtain ⟨hb, hl⟩ := ih (max b x.sequence)
      refine ⟨UInt64.le_trans (le_max_sequence _ _).1 hb, ?_⟩
      intro y hy
      rcases List.mem_cons.1 hy with rfl | hy
      · exact UInt64.le_trans (le_max_sequence _ _).2 hb
      · exact hl y hy
  exact (hfold compacted 0).2 r hr

/-- The records `open` recovers, which depend on the two files only. -/
theorem openStore_recovered {files : Files} {base tail : List DurableRecord} {barrier : UInt64}
    (hsnapshot : loadSnapshot limits files.snapshot = .ok (base, barrier))
    (hjournal : loadJournal limits barrier files.journal = .ok tail) :
    ∃ store, (openStore limits files).1 = .ok store ∧ store.recovered = base ++ tail := by
  unfold openStore
  rw [hsnapshot]
  dsimp only
  rw [hjournal]
  exact ⟨_, rfl, rfl⟩

theorem openStore_ok {files : Files} {store : DurableStore}
    (h : (openStore limits files).1 = .ok store) :
    ∃ base barrier tail, loadSnapshot limits files.snapshot = .ok (base, barrier) ∧
      loadJournal limits barrier files.journal = .ok tail ∧ store.recovered = base ++ tail := by
  unfold openStore at h
  split at h
  · cases h
  · rename_i base barrier hsnapshot
    split at h
    · cases h
    · rename_i tail hjournal
      cases h
      exact ⟨base, barrier, tail, hsnapshot, hjournal, rfl⟩

/-- A journal that is read under one barrier is read under every other one. -/
theorem loadJournal_barrier {journal : Bytes} {barrier : UInt64} {tail : List DurableRecord}
    (hlong : journalHeaderBytes ≤ journal.length)
    (h : loadJournal limits barrier (some journal) = .ok tail) (barrier' : UInt64) :
    loadJournal limits barrier' (some journal) =
      .ok (((records limits).read (journal.drop journalHeaderBytes)).filter
        fun r => decide (barrier' < r.sequence)) := by
  rw [loadJournal] at h ⊢
  split at h
  · cases h
  · rename_i hsize
    rw [if_neg hsize]
    split at h
    · omega
    · rename_i hshort
      rw [if_neg hshort]
      split at h
      · cases h
      · rename_i hmagic
        rw [if_neg hmagic]
        split at h
        · cases h
        · rename_i hversion
          rw [if_neg hversion]
          dsimp only
          rw [replay_eq, Framing.read]

/-- A crash after any part of the effects of a checkpoint leaves files that open, with the
records recovered before the checkpoint or with the compacted ones. -/
theorem checkpoint_crash_atomic {files : Files} {before : DurableStore} {journal : Bytes}
    (hopen : (openStore limits files).1 = .ok before)
    (hjournal : files.journal = some journal) (hheader : journalHeaderBytes ≤ journal.length)
    (hne : compacted ≠ [])
    (hcheck : (DurableStore.checkCompacted limits 0 compacted).isOk = true)
    (hsize : snapshotHeaderBytes + (compacted.map DurableRecord.size).sum ≤
      (limits.maxJournalBytes * 4).toNat)
    (habove : ∀ r ∈ (records limits).read (journal.drop journalHeaderBytes), ∀ c ∈ compacted,
      r.sequence < c.sequence) (n : ℕ) :
    ∃ after, (openStore limits (files.applyAll ((checkpointEffects compacted).take n))).1 =
        .ok after ∧ (after.recovered = before.recovered ∨ after.recovered = compacted) := by
  obtain ⟨base, barrier, tail, hbase, htail, hbefore⟩ := openStore_ok hopen
  have hfits : journalHeaderBytes ≤ limits.maxJournalBytes.toNat := by
    rw [hjournal, loadJournal] at htail
    split at htail
    · cases htail
    · omega
  have hnew := loadSnapshot_snapshotFile hcheck hsize
  rcases files.applyAll_take_checkpointEffects compacted n with ⟨hs, hj⟩ | ⟨hs, hj | ⟨k, hj⟩⟩
  · -- the old files are in force
    rw [← hs] at hbase
    rw [← hj] at htail
    obtain ⟨after, hafter, hrecovered⟩ := openStore_recovered hbase htail
    exact ⟨after, hafter, .inl (hrecovered.trans hbefore.symm)⟩
  · -- the new snapshot covers the old journal
    rw [← hs] at hnew
    rw [hjournal] at htail
    have hcovered := loadJournal_barrier hheader htail (DurableStore.barrierOf compacted)
    rw [List.filter_eq_nil_iff.2, ← hjournal, ← hj] at hcovered
    · obtain ⟨after, hafter, hrecovered⟩ := openStore_recovered hnew hcovered
      exact ⟨after, hafter, .inr (by rw [hrecovered, List.append_nil])⟩
    · intro r hr
      obtain ⟨c, hc⟩ := List.exists_mem_of_ne_nil compacted hne
      have hlt := UInt64.lt_of_lt_of_le (habove r hr c hc) (le_barrierOf hc)
      simpa using UInt64.le_of_lt hlt
  · -- the journal was truncated and holds a part of its header
    rw [← hs] at hnew
    have hempty : loadJournal limits (DurableStore.barrierOf compacted)
        (some (journalHeader.take k)) = .ok [] := by
      by_cases hk : k < journalHeaderBytes
      · refine loadJournal_short _ ?_ ?_
        · simp [List.length_take]
          omega
        · simp only [List.length_take, length_journalHeader]
          omega
      · have hall : journalHeader.take k = journalHeader ++ [] := by
          rw [List.append_nil]
          exact List.take_of_length_le (by rw [length_journalHeader]; omega)
        rw [hall, loadJournal_header _ (by simpa [length_journalHeader] using hfits)]
        rfl
    rw [← hj] at hempty
    obtain ⟨after, hafter, hrecovered⟩ := openStore_recovered hnew hempty
    exact ⟨after, hafter, .inr (by rw [hrecovered, List.append_nil])⟩

/-- A crash between the rename and the truncation of a journal of one record. -/
theorem checkpoint_crash_atomic_renamed :
    let files : Files :=
      { journal := some (journalHeader ++ encodeRecord { type := .flowUnbound, sequence := 1 }) }
    let compacted : List DurableRecord := [{ type := .policyRemoved, sequence := 2 }]
    ∃ before after, (openStore {} files).1 = .ok before ∧
      (openStore {} (files.applyAll ((checkpointEffects compacted).take 74))).1 = .ok after ∧
      (after.recovered = before.recovered ∨ after.recovered = compacted) := by
  intro files compacted
  obtain ⟨before, hbefore⟩ : ∃ before, (openStore {} files).1 = .ok before := ⟨_, rfl⟩
  obtain ⟨after, hafter⟩ := @checkpoint_crash_atomic _ compacted _ _ _ hbefore rfl (by decide)
    (List.cons_ne_nil _ _) (by decide) (by decide) (by decide +kernel) 74
  exact ⟨before, after, hbefore, hafter⟩

end DurableFile

end Pacing
