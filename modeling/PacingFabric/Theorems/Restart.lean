import PacingFabric.Theorems.Starts

/-!
# What a restart makes of the recovered records

Replay folds the recovered records in order, so the ledger it builds maps each identity to
the last attempt record that decodes. Recovery then revokes every envelope, strips every
attempt of its effect, and moves epoch and boot above every pair it replayed.

## Main definitions

* `lastReplayed`: the last attempt record of an identity that decodes.
* `Fabric.opened`: the coordinator as its store has opened and before recovery.
* `Normalized`: what a start owes to the records it recovered.

## Main results

* `Fabric.replay_record`: the ledger replay builds, as a map.
* `restart_normalizes`: every start that succeeds normalizes what it recovered.
-/

namespace Pacing

/-- The last attempt record of `id` that decodes. -/
def lastReplayed (limits : Limits) (records : List DurableRecord) (id : AttemptId) :
    Option ApplicationRecord :=
  records.reverse.findSome? fun record =>
    (Replay.attemptOf limits record).filter fun r => r.attempt == id

theorem lastReplayed_append (limits : Limits) (records : List DurableRecord)
    (record : DurableRecord) :
    lastReplayed limits (records ++ [record]) =
      match Replay.attemptOf limits record with
      | none => lastReplayed limits records
      | some r => Function.update (lastReplayed limits records) r.attempt (some r) := by
  funext id
  unfold lastReplayed
  rw [List.reverse_append, List.reverse_singleton, List.singleton_append, List.findSome?_cons]
  cases Replay.attemptOf limits record with
  | none => rfl
  | some r =>
    dsimp only
    by_cases hid : id = r.attempt
    · rw [hid, Function.update_self, Option.filter_some_pos (by simp)]
    · rw [Function.update_of_ne hid, Option.filter_some_neg (by simpa using Ne.symm hid)]

namespace Replay

variable (s : Replay) (nonce : UInt64) (record : DurableRecord)

/-- Epoch and boot counter after one turn of the loop: what they were, raised to the pair of
an epoch record. -/
theorem record_epoch :
    s.fabric.epoch.value ≤ (Replay.record nonce s record).fabric.epoch.value ∧
      s.fabric.boot.counter ≤ (Replay.record nonce s record).fabric.boot.counter ∧
      ∀ persisted boot, record.type = .epochAdvance →
        decodePayload decodeEpoch record.payload = some (persisted, boot) →
        persisted.value ≤ (Replay.record nonce s record).fabric.epoch.value ∧
          boot.counter ≤ (Replay.record nonce s record).fabric.boot.counter := by
  have hkeep : ∀ s' : Replay, s'.fabric.epoch = s.fabric.epoch →
      s'.fabric.boot = s.fabric.boot → record.type ≠ .epochAdvance →
      s.fabric.epoch.value ≤ s'.fabric.epoch.value ∧
        s.fabric.boot.counter ≤ s'.fabric.boot.counter ∧
        ∀ persisted boot, record.type = .epochAdvance →
          decodePayload decodeEpoch record.payload = some (persisted, boot) →
          persisted.value ≤ s'.fabric.epoch.value ∧
            boot.counter ≤ s'.fabric.boot.counter := by
    intro s' hepoch hboot hne
    rw [hepoch, hboot]
    exact ⟨UInt64.le_refl _, UInt64.le_refl _, fun _ _ h => absurd h hne⟩
  unfold Replay.record
  cases htype : record.type with
  | epochAdvance =>
    dsimp only
    split
    · rename_i hdecode
      refine ⟨UInt64.le_refl _, UInt64.le_refl _, ?_⟩
      intro persisted boot _ h
      rw [hdecode] at h
      cases h
    · rename_i persisted boot hdecode
      unfold epochAdvance
      dsimp only
      have hepoch : s.fabric.epoch.value ≤
            (if persisted.value > s.fabric.epoch.value then persisted
              else s.fabric.epoch).value ∧
          persisted.value ≤ (if persisted.value > s.fabric.epoch.value then persisted
            else s.fabric.epoch).value := by
        split_ifs with h
        · exact ⟨UInt64.le_of_lt h, UInt64.le_refl _⟩
        · exact ⟨UInt64.le_refl _, UInt64.not_lt.1 h⟩
      have hboot : s.fabric.boot.counter ≤
            (if boot.counter ≥ s.fabric.boot.counter then ⟨boot.counter, nonce⟩
              else s.fabric.boot : BootId).counter ∧
          boot.counter ≤ (if boot.counter ≥ s.fabric.boot.counter then ⟨boot.counter, nonce⟩
            else s.fabric.boot : BootId).counter := by
        split_ifs with h
        · exact ⟨h, UInt64.le_refl _⟩
        · exact ⟨UInt64.le_refl _, UInt64.le_of_lt (UInt64.not_le.1 h)⟩
      refine ⟨hepoch.1, hboot.1, ?_⟩
      intro persisted' boot' _ h
      obtain ⟨rfl, rfl⟩ := Prod.mk.inj (Option.some.inj (hdecode.symm.trans h))
      exact ⟨hepoch.2, hboot.2⟩
  | attempt =>
    rw [htype] at hkeep
    dsimp only
    split
    · exact hkeep _ rfl rfl (by simp)
    · unfold Replay.attempt
      dsimp only
      split <;> exact hkeep _ rfl rfl (by simp)
  | envelope =>
    rw [htype] at hkeep
    dsimp only
    split
    · exact hkeep _ rfl rfl (by simp)
    · unfold Replay.envelope
      dsimp only
      split <;> exact hkeep _ rfl rfl (by simp)
  | envelopeRevocation =>
    rw [htype] at hkeep
    dsimp only
    split
    · exact hkeep _ rfl rfl (by simp)
    · unfold Replay.revocation
      dsimp only
      split <;> exact hkeep _ rfl rfl (by simp)
  | metaRecord | unlisted =>
    rw [htype] at hkeep
    exact hkeep _ rfl rfl (by simp)
  | _ =>
    rw [htype] at hkeep
    dsimp only
    split <;> exact hkeep _ rfl rfl (by simp)

end Replay

/-- Replaying one attempt, as an operation of the ledger. -/
def AttemptLedger.replayed (l : AttemptLedger) (r : ApplicationRecord) : AttemptLedger :=
  match l.find r.attempt with
  | some (i, entry) => l.overwrite i entry r
  | none => l.insert r

theorem Replay.attempt_ledger (s : Replay) (r : ApplicationRecord) :
    (s.attempt r).fabric.attempts = s.fabric.attempts.replayed r := by
  unfold attempt AttemptLedger.replayed
  dsimp only
  cases s.fabric.attempts.find r.attempt <;> rfl

namespace Fabric

variable {f : Fabric} (a : Answers)

/-! ### Replay -/

theorem replay_append (f : Fabric) (records : List DurableRecord) (record : DurableRecord) :
    f.replay a (records ++ [record]) =
      Replay.record (nonZeroNonce (a.nonce 1)) (f.replay a records) record := by
  simp only [replay, List.foldl_append, List.foldl_cons, List.foldl_nil]

/-- The ledger replay builds is the map of the last records. -/
theorem replay_record (h : f.attempts = {}) (records : List DurableRecord) :
    (f.replay a records).fabric.attempts.record =
      lastReplayed f.config.limits records := by
  induction records using List.reverseRecOn with
  | nil =>
    funext id
    simp [replay, lastReplayed, h, AttemptLedger.record, AttemptLedger.find]
  | append_singleton records record ih =>
    have hempty : f.attempts.WellFormed := h ▸ AttemptLedger.wellFormed_empty
    obtain ⟨hwf, hconfig, -⟩ := replay_keeps a hempty records
    rw [replay_append, lastReplayed_append, ← ih]
    rcases Replay.record_keeps (f.replay a records) (nonZeroNonce (a.nonce 1)) record with
      ⟨hnone, hk⟩ | ⟨r, hsome, hk⟩
    · rw [hconfig] at hnone
      rw [hnone, hk.attempts]
    · rw [hconfig] at hsome
      rw [hsome, hk.attempts, Replay.attempt_record hwf]

/-- The ledger replay builds from the attempts it decodes. -/
theorem replay_ledger (h : f.attempts = {}) (records : List DurableRecord) :
    (f.replay a records).fabric.attempts =
      (records.filterMap (Replay.attemptOf f.config.limits)).foldl AttemptLedger.replayed {} := by
  induction records using List.reverseRecOn with
  | nil => exact h
  | append_singleton records record ih =>
    have hempty : f.attempts.WellFormed := h ▸ AttemptLedger.wellFormed_empty
    obtain ⟨-, hconfig, -⟩ := replay_keeps a hempty records
    rw [replay_append, List.filterMap_append, List.foldl_append, ← ih]
    rcases Replay.record_keeps (f.replay a records) (nonZeroNonce (a.nonce 1)) record with
      ⟨hnone, hk⟩ | ⟨r, hsome, hk⟩
    · rw [hconfig] at hnone
      rw [hk.attempts, List.filterMap_cons_none hnone]
      rfl
    · rw [hconfig] at hsome
      rw [hk.attempts, List.filterMap_cons_some hsome, Replay.attempt_ledger]
      rfl

/-- Replay ends with epoch and boot at or above every pair it met. -/
theorem replay_epoch (f : Fabric) (records : List DurableRecord) :
    ∀ record ∈ records, record.type = .epochAdvance → ∀ persisted boot,
      decodePayload decodeEpoch record.payload = some (persisted, boot) →
      persisted.value ≤ (f.replay a records).fabric.epoch.value ∧
        boot.counter ≤ (f.replay a records).fabric.boot.counter := by
  induction records using List.reverseRecOn with
  | nil => simp
  | append_singleton records record ih =>
    intro r hr htype persisted boot hdecode
    rw [replay_append]
    obtain ⟨hepoch, hboot, hnew⟩ := Replay.record_epoch (f.replay a records)
      (nonZeroNonce (a.nonce 1)) record
    rcases List.mem_append.1 hr with hr | hr
    · obtain ⟨h₁, h₂⟩ := ih r hr htype persisted boot hdecode
      exact ⟨UInt64.le_trans h₁ hepoch, UInt64.le_trans h₂ hboot⟩
    · obtain rfl := List.mem_singleton.1 hr
      exact hnew persisted boot htype hdecode

/-! ### Recovery -/

/-- The coordinator after a recovery that succeeded. -/
structure Recovered (limits : Limits) (records : List DurableRecord) (g : Fabric) : Prop where
  wellFormed : g.attempts.WellFormed
  envelopes : ∀ e ∈ g.envelopes.entries, e.live = true → e.revoked = true
  attempts : g.attempts.record = fun id =>
    (lastReplayed limits records id).map ApplicationRecord.recovered
  pending : g.attempts.pending = 0
  epochs : ∀ record ∈ records, record.type = .epochAdvance → ∀ persisted boot,
    decodePayload decodeEpoch record.payload = some (persisted, boot) →
    persisted.value < g.epoch.value ∧ boot.counter < g.boot.counter

/-- Settling a replayed ledger: every record is recovered, and none is pending. -/
theorem settle_ledger (h : f.attempts.WellFormed) (replay : Replay) :
    (f.settle a replay).attempts.WellFormed ∧
      (f.settle a replay).attempts.record =
        (fun id => (f.attempts.record id).map ApplicationRecord.recovered) ∧
      (f.settle a replay).attempts.pending = 0 := by
  obtain ⟨_, hatt⟩ := (turns_recoverAttempt a).foldl f.invalidateEnvelopes
  have hlive : ∀ e, (recoveredEntry e).live = e.live := by
    intro e
    unfold recoveredEntry
    split <;> rfl
  have hid : ∀ e, (recoveredEntry e).record.attempt = e.record.attempt := by
    intro e
    unfold recoveredEntry
    split <;> simp
  have hwf := h.mapEntries hlive hid
  obtain ⟨pending, hsettle⟩ : ∃ pending, (f.settle a replay).attempts =
      { f.attempts.mapEntries recoveredEntry with pending := pending } := by
    have hcount : (f.settle a replay).attempts =
        { (f.invalidateEnvelopes.recoverAttempts a).attempts with
          pending := (f.settle a replay).attempts.pending } := rfl
    refine ⟨(f.settle a replay).attempts.pending, hcount.trans ?_⟩
    rw [recoverAttempts, hatt]
    rfl
  refine ⟨?_, ?_, ?_⟩
  · rw [hsettle]
    exact ⟨hwf.live, hwf.dead, hwf.indexed, hwf.sound⟩
  · rw [hsettle]
    funext id
    change (f.attempts.mapEntries recoveredEntry).record id = _
    rw [AttemptLedger.record_mapEntries h hlive hid, AttemptLedger.record, Option.map_map]
    cases hf : f.attempts.find id with
    | none => rfl
    | some slot =>
      have he := h.live slot.2 (List.mem_of_getElem? (h.find_eq_some_iff.1 hf).1)
      simp [recoveredEntry, he]
  · -- every live record is terminal once it is recovered
    change UInt32.ofNat ((f.settle a replay).attempts.entries.filter _).length = 0
    rw [hsettle, List.filter_eq_nil_iff.2]
    · rfl
    · intro x hx
      obtain ⟨e, he, rfl⟩ := List.mem_map.1 hx
      simp [recoveredEntry, h.live e he, e.record.recovered_isTerminal]

/-- Recovery of an empty coordinator. -/
theorem recover_recovered (hatt : f.attempts = {}) (records : List DurableRecord)
    (hok : (f.recover a records).1.isOk = true) :
    Recovered f.config.limits records (f.recover a records).2 := by
  have hempty : (f.beginRecovery a records).attempts.WellFormed :=
    (show (f.beginRecovery a records).attempts = {} from hatt) ▸ AttemptLedger.wellFormed_empty
  obtain ⟨hwf, _, _⟩ := replay_keeps a hempty records
  have hrecord := replay_record (f := f.beginRecovery a records) a hatt records
  have hepochs := replay_epoch a (f.beginRecovery a records) records
  obtain ⟨_, _, _, hepoch, hboot, heq⟩ := (recover_recovers a f records).isOk a hok
  rw [heq]
  generalize (f.beginRecovery a records).replay a records = replay at *
  generalize hgo : ({ replay.fabric.countRestored with
    epoch := _, boot := _, recovery := _ } : Fabric) = go
  have hatts : go.attempts = replay.fabric.attempts := by rw [← hgo]; rfl
  obtain ⟨hwf', hrec', hpend'⟩ := settle_ledger a (hatts ▸ hwf) replay
  obtain ⟨_, _, _, _, _, _, hsettle⟩ := settle_frame (f := go) a replay
  refine ⟨hwf', ?_, ?_, hpend', ?_⟩
  · intro e he hlive
    change e ∈ (go.settle a replay).envelopes.entries at he
    rw [hsettle] at he
    obtain ⟨e₀, -, rfl⟩ := List.mem_map.1 he
    split at hlive
    · rw [if_pos (by assumption)]
    · contradiction
  · change (go.settle a replay).attempts.record = _
    rw [hrec', hatts, hrecord]
    rfl
  · intro record hr htype persisted boot' hdecode
    obtain ⟨h₁, h₂⟩ := hepochs record hr htype persisted boot' hdecode
    change _ < (go.settle a replay).epoch.value ∧ _ < (go.settle a replay).boot.counter
    rw [hsettle, ← hgo]
    exact ⟨UInt64.lt_of_le_of_lt h₁ hepoch, UInt64.lt_of_le_of_lt h₂ hboot⟩

/-- The coordinator when `initialize` has checked its configuration. -/
def begun (config : FabricConfig) (disk : Disk) : Fabric where
  config := config
  clock := ({} : ClockWatch).observe a.now
  boot := ⟨1, nonZeroNonce (a.nonce 0)⟩
  epoch := ⟨1⟩
  storage := { disk := disk }
  recovery := { bootAfter := ⟨1, nonZeroNonce (a.nonce 0)⟩, epochAfter := ⟨1⟩ }

/-- The coordinator when its store has opened and recovery begins. -/
def opened (config : FabricConfig) (disk : Disk) (store : DurableStore) : Fabric :=
  { begun a config disk with
    storage := { disk := disk, durable := some store }
    recovery := { (begun a config disk).recovery with durableDirectoryUsed := true } }

variable {config : FabricConfig} {disk disk' : Disk} {store : DurableStore}

theorem initializeFabric_ok (hok : ((construct config disk).initializeFabric a).1.isOk = true) :
    ((begun a config disk).openDurable a).1.isOk = true ∧
      ((construct config disk).initializeFabric a).2 =
        { ((begun a config disk).openDurable a).2 with
          initialized := true, running := true } := by
  unfold initializeFabric initializeLocked at hok ⊢
  rw [if_neg (show ¬ ((construct config disk).sample a.now).initialized = true from
    Bool.false_ne_true)] at hok ⊢
  dsimp only [construct, sample] at hok ⊢
  split at hok
  · rename_i hvalid
    rw [hok] at hvalid
    simp at hvalid
  · rename_i hvalid
    rw [if_neg hvalid]
    have hopen : ((begun a config disk).openDurable a).1.isOk = true := hok
    exact ⟨hopen, if_pos hopen⟩

/-- A durable directory is configured and used. -/
def usesDirectory (config : FabricConfig) : Bool :=
  config.enableDurability && !config.durableDirectory.isEmpty

/-- A start that succeeds over a durable directory has opened it. -/
theorem initializeFabric_opened (hdurable : usesDirectory config = true)
    (hok : ((construct config disk).initializeFabric a).1.isOk = true) :
    ∃ store disk', DurableStore.openStore config.limits disk a.files.opening =
      (.ok store, disk') := by
  have hused : ((begun a config disk).config.enableDurability &&
      !(begun a config disk).config.durableDirectory.isEmpty) = true := hdurable
  obtain ⟨hok', -⟩ := initializeFabric_ok a hok
  cases hopen : DurableStore.openStore config.limits disk a.files.opening with
  | mk opened disk' =>
    cases opened with
    | ok store => exact ⟨store, disk', rfl⟩
    | error status =>
      have hload : DurableStore.openStore (begun a config disk).config.limits
          (begun a config disk).storage.disk a.files.opening = (.error status, disk') := hopen
      rw [openDurable, if_pos hused, hload] at hok'
      have hfail : status.isOk = true := hok'
      rw [openStore_error hopen] at hfail
      cases hfail

/-- A start that succeeds over a durable directory is the recovery of what it opened. -/
theorem initializeFabric_recover (hdurable : usesDirectory config = true)
    (hopen : DurableStore.openStore config.limits disk a.files.opening = (.ok store, disk'))
    (hok : ((construct config disk).initializeFabric a).1.isOk = true) :
    ((opened a config disk' store).recover a store.recovered).1.isOk = true ∧
      ((construct config disk).initializeFabric a).2 =
        { ((opened a config disk' store).recover a store.recovered).2 with
          initialized := true, running := true } := by
  obtain ⟨hok', heq⟩ := initializeFabric_ok a hok
  rw [heq]
  have hused : ((begun a config disk).config.enableDurability &&
      !(begun a config disk).config.durableDirectory.isEmpty) = true := hdurable
  have hload : DurableStore.openStore (begun a config disk).config.limits
      (begun a config disk).storage.disk a.files.opening = (.ok store, disk') := hopen
  rw [openDurable, if_pos hused, hload] at hok' ⊢
  dsimp only at hok'
  split at hok'
  · rename_i h
    exact ⟨h, congrArg (fun out : Status × Fabric =>
      { out.2 with initialized := true, running := true }) (if_pos h)⟩
  · rename_i h
    exact absurd hok' h

/-- Configuration, flags and the count of guards are the same. -/
structure SameFlags (f g : Fabric) : Prop where
  config : g.config = f.config
  initialized : g.initialized = f.initialized
  running : g.running = f.running
  activeOperations : g.activeOperations = f.activeOperations

theorem SameFlags.trans {g h : Fabric} (hfg : SameFlags f g) (hgh : SameFlags g h) :
    SameFlags f h :=
  ⟨hgh.config.trans hfg.config, hgh.initialized.trans hfg.initialized,
    hgh.running.trans hfg.running, hgh.activeOperations.trans hfg.activeOperations⟩

/-- Replay touches neither the flags nor the clock nor the store and its files. -/
theorem replay_kept (f : Fabric) (records : List DurableRecord) :
    SameFlags f (f.replay a records).fabric ∧
      (f.replay a records).fabric.clock = f.clock ∧
      (f.replay a records).fabric.storage.durable = f.storage.durable ∧
      (f.replay a records).fabric.storage.disk = f.storage.disk := by
  refine List.foldlRecOn records (Replay.record (nonZeroNonce (a.nonce 1)))
    (motive := fun s : Replay => SameFlags f s.fabric ∧ s.fabric.clock = f.clock ∧
      s.fabric.storage.durable = f.storage.durable ∧ s.fabric.storage.disk = f.storage.disk)
    ⟨⟨rfl, rfl, rfl, rfl⟩, rfl, rfl, rfl⟩ ?_
  rintro s ⟨hflags, hclock, hdurable, hdisk⟩ record -
  rw [← hclock, ← hdurable, ← hdisk]
  suffices h : SameFlags s.fabric (Replay.record (nonZeroNonce (a.nonce 1)) s record).fabric ∧ _
    from ⟨hflags.trans h.1, h.2⟩
  unfold Replay.record
  cases record.type with
  | envelope =>
    simp only [Replay.envelope]
    repeat' split
    all_goals exact ⟨⟨rfl, rfl, rfl, rfl⟩, rfl, rfl, rfl⟩
  | envelopeRevocation =>
    simp only [Replay.revocation]
    repeat' split
    all_goals exact ⟨⟨rfl, rfl, rfl, rfl⟩, rfl, rfl, rfl⟩
  | attempt =>
    simp only [Replay.attempt]
    repeat' split
    all_goals exact ⟨⟨rfl, rfl, rfl, rfl⟩, rfl, rfl, rfl⟩
  | _ =>
    dsimp only
    repeat' split
    all_goals exact ⟨⟨rfl, rfl, rfl, rfl⟩, rfl, rfl, rfl⟩

/-- Recovery folds one reading into the clock and leaves the flags alone. -/
theorem recover_kept (f : Fabric) (records : List DurableRecord) :
    SameFlags f (f.recover a records).2 ∧
      (f.recover a records).2.clock = f.clock.observe a.recoverNow := by
  obtain ⟨⟨hconfig, hinitialized, hrunning, hactive⟩, hclock, -⟩ :=
    replay_kept a (f.beginRecovery a records) records
  have hrecovers := recover_recovers a f records
  generalize f.recover a records = result at hrecovers ⊢
  generalize (f.beginRecovery a records).replay a records = replay at *
  cases hrecovers with
  | exhausted => exact ⟨⟨hconfig, hinitialized, hrunning, hactive⟩, hclock⟩
  | settled =>
    obtain ⟨_, _, _, _, _, _, hsettle⟩ := settle_frame (f := { replay.fabric.countRestored with
      epoch := _, boot := _, recovery := _ }) a replay
    rw [hsettle]
    exact ⟨⟨hconfig, hinitialized, hrunning, hactive⟩, hclock⟩

/-- The durable part of a start leaves the tables empty, or is the recovery of what it
opened. -/
theorem openDurable_cases (config : FabricConfig) (disk : Disk) :
    (∃ storage recovery, ((begun a config disk).openDurable a).2 =
        { begun a config disk with storage := storage, recovery := recovery } ∧
      (usesDirectory config = true → ((begun a config disk).openDurable a).1.isOk = false)) ∨
    ∃ store disk' recovery,
      DurableStore.openStore config.limits disk a.files.opening = (.ok store, disk') ∧
      (((begun a config disk).openDurable a).1.isOk = true →
        ((opened a config disk' store).recover a store.recovered).1.isOk = true) ∧
      ((begun a config disk).openDurable a).2 =
        { ((opened a config disk' store).recover a store.recovered).2 with
          recovery := recovery } := by
  by_cases hdurable : usesDirectory config = true
  · have hused : ((begun a config disk).config.enableDurability &&
        !(begun a config disk).config.durableDirectory.isEmpty) = true := hdurable
    unfold openDurable
    rw [if_pos hused]
    cases hopen : DurableStore.openStore (begun a config disk).config.limits
        (begun a config disk).storage.disk a.files.opening with
    | mk result disk' =>
      cases result with
      | error status => exact .inl ⟨_, _, rfl, fun _ => openStore_error hopen⟩
      | ok store =>
        right
        dsimp only
        split
        · rename_i hok
          exact ⟨store, disk', _, hopen, fun _ => hok, rfl⟩
        · exact ⟨store, disk', _, hopen, fun hok => hok, rfl⟩
  · have hunused : ¬ ((begun a config disk).config.enableDurability &&
        !(begun a config disk).config.durableDirectory.isEmpty) = true := hdurable
    left
    unfold openDurable
    rw [if_neg hunused]
    exact ⟨_, _, rfl, fun h => absurd h hdurable⟩

/-- A start is refused by its configuration, or is its durable part with the flags set. -/
theorem initializeFabric_snd (config : FabricConfig) (disk : Disk) :
    ((construct config disk).initializeFabric a).2 = (construct config disk).sample a.now ∨
      ((construct config disk).initializeFabric a).2 =
        { ((begun a config disk).openDurable a).2 with
          initialized := if ((begun a config disk).openDurable a).1.isOk = true then true
            else ((begun a config disk).openDurable a).2.initialized
          running := if ((begun a config disk).openDurable a).1.isOk = true then true
            else ((begun a config disk).openDurable a).2.running } := by
  have hflags : ∀ out : Status × Fabric, (if out.1.isOk = true then
      ({ out.2 with initialized := true, running := true } : Fabric) else out.2) =
      { out.2 with
        initialized := if out.1.isOk = true then true else out.2.initialized
        running := if out.1.isOk = true then true else out.2.running } := by
    rintro ⟨status, f⟩
    dsimp only
    split <;> rfl
  unfold initializeFabric initializeLocked
  dsimp only
  split
  · exact .inl rfl
  split
  · exact .inl rfl
  · exact .inr (hflags ((begun a config disk).openDurable a))

/-- A start leaves the tables empty, or is the recovery of what it opened. -/
theorem initializeFabric_cases (config : FabricConfig) (disk : Disk) :
    (∃ clock boot epoch recovery storage initialized running,
      ((construct config disk).initializeFabric a).2 =
        { construct config disk with
          clock := clock
          boot := boot
          epoch := epoch
          recovery := recovery
          storage := storage
          initialized := initialized
          running := running } ∧
      (usesDirectory config = true → running = false)) ∨
    ∃ store disk' recovery initialized running,
      DurableStore.openStore config.limits disk a.files.opening = (.ok store, disk') ∧
      (running = true →
        ((opened a config disk' store).recover a store.recovered).1.isOk = true) ∧
      ((construct config disk).initializeFabric a).2 =
        { ((opened a config disk' store).recover a store.recovered).2 with
          recovery := recovery
          initialized := initialized
          running := running } := by
  rcases initializeFabric_snd a config disk with hsample | hflags
  · exact .inl ⟨_, _, _, _, _, _, _, hsample, fun _ => rfl⟩
  rcases openDurable_cases a config disk with ⟨storage, recovery, heq, hdurable⟩ |
    ⟨store, disk', recovery, hopen, hok, heq⟩
  · -- no store was opened
    left
    rw [heq] at hflags
    refine ⟨_, _, _, _, _, _, _, hflags, fun h => ?_⟩
    rw [hdurable h]
    rfl
  · -- recovery ran on what the store had recovered
    right
    rw [heq] at hflags
    refine ⟨store, disk', _, _, _, hopen, fun hrunning => ?_, hflags⟩
    split at hrunning
    · rename_i h
      exact hok h
    · have hstopped := (recover_kept a (opened a config disk' store) store.recovered).1.running
      rw [show _ = false from hstopped] at hrunning
      cases hrunning

/-- The ledger holds recovered attempts only and counts none of them as pending. -/
structure LedgerRecovered (f : Fabric) : Prop where
  wellFormed : f.attempts.WellFormed
  recovered : ∀ id r, f.attempts.record id = some r → ∃ r₀ : ApplicationRecord, r = r₀.recovered
  pending : f.attempts.pending = 0

/-- Every start over the disk that replays finds an epoch and a boot counter it can advance. -/
def AdvancesOver (disk : Disk) : Prop :=
  ∀ config a store disk',
    DurableStore.openStore config.limits disk a.files.opening = (.ok store, disk') →
    ((((opened a config disk' store).beginRecovery a store.recovered).replay a
      store.recovered).fabric.countRestored.advanceIncarnation a).1.isOk = true

/-- An empty directory holds nothing to replay. -/
theorem advancesOver_empty : AdvancesOver {} := by
  intro config a store disk' hopen
  have hrecovered : store.recovered = [] := by
    unfold DurableStore.openStore at hopen
    simp only [DurableStore.loadSnapshot, DurableStore.loadJournal] at hopen
    split at hopen
    · cases hopen
    · split at hopen
      · cases hopen
      · obtain ⟨hstore, -⟩ := Prod.mk.inj hopen
        cases hstore
        rfl
      · cases ‹none = some _›
  rw [hrecovered]
  rfl

theorem ledgerRecovered_of_empty (h : f.attempts = {}) : f.LedgerRecovered where
  wellFormed := h ▸ AttemptLedger.wellFormed_empty
  recovered id r hr := by
    rw [h] at hr
    cases hr
  pending := by rw [h]

/-- Settling a replayed ledger recovers it, whatever the files take of it. -/
theorem settle_ledgerRecovered (h : f.attempts.WellFormed) (replay : Replay) (storage : Storage) :
    ({ f.settle a replay with storage := storage } : Fabric).LedgerRecovered := by
  obtain ⟨hwf, hrecord, hpending⟩ := settle_ledger a h replay
  refine ⟨hwf, fun id r hr => ?_, hpending⟩
  have hr : (f.settle a replay).attempts.record id = some r := hr
  rw [hrecord] at hr
  obtain ⟨r₀, -, rfl⟩ := Option.map_eq_some_iff.1 hr
  exact ⟨r₀, rfl⟩

/-- A recovery that advances recovers the ledger, whether its epoch is journaled or not. -/
theorem recover_ledgerRecovered (hempty : f.attempts = {}) (records : List DurableRecord)
    (hadvances : (((f.beginRecovery a records).replay a
      records).fabric.countRestored.advanceIncarnation a).1.isOk = true) :
    (f.recover a records).2.LedgerRecovered := by
  obtain ⟨hwf, -, -⟩ := replay_keeps (f := f.beginRecovery a records) a
    (show f.attempts.WellFormed from hempty ▸ AttemptLedger.wellFormed_empty) records
  unfold recover
  dsimp only
  rw [if_neg (by simp [hadvances])]
  generalize (f.beginRecovery a records).replay a records = replay at hwf ⊢
  obtain ⟨_, _, _, hadv⟩ := advanceIncarnation_frame (f := replay.fabric.countRestored) a
  obtain ⟨storage, hjournal⟩ := journalEpoch_frame
    (f := (replay.fabric.countRestored.advanceIncarnation a).2.settle a replay) a a.recoverNow
  rw [hjournal]
  exact settle_ledgerRecovered a (by rw [hadv]; exact hwf) replay storage

/-- So does a start over files that let it advance. -/
theorem initializeFabric_ledgerRecovered (config : FabricConfig) {disk : Disk}
    (h : AdvancesOver disk) : ((construct config disk).initializeFabric a).2.LedgerRecovered := by
  rcases initializeFabric_cases a config disk with ⟨_, _, _, _, _, _, _, heq, -⟩ |
    ⟨store, disk', _, _, _, hopen, -, heq⟩
  · rw [heq]
    exact ledgerRecovered_of_empty rfl
  · rw [heq]
    obtain ⟨hwf, hrecovered, hpending⟩ := recover_ledgerRecovered (f := opened a config disk' store)
      a rfl store.recovered (h config a store disk' hopen)
    exact ⟨hwf, hrecovered, hpending⟩

/-- The ledger of a coordinator that has just started. -/
theorem initializeFabric_ledger
    (hok : ((construct config disk).initializeFabric a).1.isOk = true) :
    ∃ (records : List ApplicationRecord) (pending : UInt32),
      ((construct config disk).initializeFabric a).2.attempts =
        { (records.foldl AttemptLedger.replayed {}).mapEntries recoveredEntry with
          pending := pending } := by
  cases hdurable : usesDirectory config with
  | false =>
    obtain ⟨-, heq⟩ := initializeFabric_ok a hok
    have hopen : (begun a config disk).openDurable a = (.success, begun a config disk) :=
      if_neg (by simpa [usesDirectory, begun] using hdurable)
    rw [heq, hopen]
    exact ⟨[], 0, rfl⟩
  | true =>
    obtain ⟨store, disk', hopen⟩ := initializeFabric_opened a hdurable hok
    obtain ⟨hrec, heq⟩ := initializeFabric_recover a hdurable hopen hok
    refine ⟨store.recovered.filterMap (Replay.attemptOf config.limits), ?_⟩
    have hledger := replay_ledger (f := (opened a config disk' store).beginRecovery a
      store.recovered) a rfl store.recovered
    rw [heq]
    change ∃ pending, ((opened a config disk' store).recover a store.recovered).2.attempts = _
    obtain ⟨_, _, _, -, -, heq⟩ := (recover_recovers a (opened a config disk' store)
      store.recovered).isOk a hrec
    rw [heq]
    generalize ((opened a config disk' store).beginRecovery a store.recovered).replay a
      store.recovered = replay at hledger ⊢
    generalize hgo : ({ replay.fabric.countRestored with
      epoch := _, boot := _, recovery := _ } : Fabric) = go
    have hatts : go.attempts = replay.fabric.attempts := by rw [← hgo]; rfl
    obtain ⟨_, hturn⟩ := (turns_recoverAttempt a).foldl go.invalidateEnvelopes
    refine ⟨(go.settle a replay).attempts.pending, ?_⟩
    have hcount : (go.settle a replay).attempts =
        { (go.invalidateEnvelopes.recoverAttempts a).attempts with
          pending := (go.settle a replay).attempts.pending } := rfl
    change (go.settle a replay).attempts = _
    have hcfg : ((opened a config disk' store).beginRecovery a store.recovered).config.limits =
      config.limits := rfl
    rw [hcfg] at hledger
    rw [hcount, recoverAttempts, hturn, ← hledger, ← hatts]
    rfl

end Fabric

/-- What a start owes to the records it recovered. -/
structure Normalized (limits : Limits) (records : List DurableRecord) (g : Fabric) : Prop where
  envelopes : ∀ e ∈ g.envelopes.entries, e.live = true → e.revoked = true
  attempts : ∀ e ∈ g.attempts.entries, e.live = true →
    ∃ r, lastReplayed limits records e.record.attempt = some r ∧
      e.record.effect = .none ∧ e.record.requiresRevalidation = true ∧
      (r.state.isTerminal = false →
        e.record.state = .ambiguous ∧ e.record.lastKnownState = r.state) ∧
      (r.state = .applied ∨ r.state = .appliedUnverified ∨ r.state = .mismatched →
        e.record.state = .requiresRevalidation ∧ e.record.lastKnownState = r.state) ∧
      (r.state.isTerminal = true → r.state ≠ .applied → r.state ≠ .appliedUnverified →
        r.state ≠ .mismatched → e.record.state = r.state)
  pending : g.attempts.pending = 0
  epochs : ∀ record ∈ records, record.type = .epochAdvance → ∀ persisted boot,
    decodePayload decodeEpoch record.payload = some (persisted, boot) →
    persisted.value < g.epoch.value ∧ boot.counter < g.boot.counter

/-- For every durable content that opens, a start that succeeds normalizes what it
recovered. -/
theorem restart_normalizes (a : Answers) {config : FabricConfig} {disk disk' : Disk}
    {store : DurableStore} (hdurable : Fabric.usesDirectory config = true)
    (hopen : DurableStore.openStore config.limits disk a.files.opening = (.ok store, disk'))
    (hok : ((Fabric.construct config disk).initializeFabric a).1.isOk = true) :
    Normalized config.limits store.recovered
      ((Fabric.construct config disk).initializeFabric a).2 := by
  obtain ⟨hok', heq⟩ := Fabric.initializeFabric_recover a hdurable hopen hok
  have h := Fabric.recover_recovered a (f := Fabric.opened a config disk' store) rfl _ hok'
  rw [heq]
  refine ⟨h.envelopes, fun e he hlive => ?_, h.pending, h.epochs⟩
  obtain ⟨i, hi⟩ := List.getElem?_of_mem he
  have hrecord := h.wellFormed.record_of_getElem? hi
  rw [h.attempts, Option.map_eq_some_iff] at hrecord
  obtain ⟨r, hr, hrecovered⟩ := hrecord
  refine ⟨r, hr, ?_⟩
  rw [← hrecovered]
  refine ⟨r.recovered_effect, r.recovered_requiresRevalidation, ?_, ?_, ?_⟩
  · intro hstate
    simp [ApplicationRecord.recovered, hstate]
  · rintro (hstate | hstate | hstate) <;>
      simp [ApplicationRecord.recovered, hstate, ApplicationState.isTerminal,
        ApplicationState.assertsEffect]
  · intro hterminal h₁ h₂ h₃
    simp [ApplicationRecord.recovered, hterminal, ApplicationState.assertsEffect, h₁, h₂, h₃]

/-- The records of a directory that was left with an attempt in flight. -/
def crashedRecords : List DurableRecord :=
  [{ type := .epochAdvance, sequence := 1,
     payload := (encodeEpoch ⟨256, [], none⟩ ⟨7⟩ ⟨3, 1⟩).buf },
   { type := .attempt, sequence := 2,
     payload := (encodeAttempt ⟨encodeCapacityBytes, [], none⟩
      { attempt := ⟨1⟩
        authority :=
          { flow := ⟨⟨1⟩, ⟨1⟩⟩, resource := ⟨⟨1⟩, ⟨1⟩⟩, policy := ⟨⟨1⟩, ⟨1⟩⟩,
            rateGrant := ⟨⟨1⟩, ⟨1⟩⟩, path := ⟨⟨1⟩, ⟨1⟩⟩, epoch := ⟨7⟩,
            coordinatorBoot := ⟨3, 1⟩ }
        state := .submitted }).buf }]

/-- Opening a directory that holds a snapshot only. -/
theorem openStore_snapshot {limits : Limits} {s : Snapshot}
    (h : DurableStore.loadSnapshot limits (some s) = .ok (s.records, s.barrier)) :
    DurableStore.openStore limits { snapshot := some s } .ok =
      (.ok { journalBytes := UInt64.ofNat journalHeaderBytes, sequenceBarrier := s.barrier,
             recovered := s.records },
        { snapshot := some s, journal := some {} }) := by
  simp [DurableStore.openStore, h, DurableStore.loadJournal]

/-- A start over a snapshot with an attempt in flight. -/
theorem restart_normalizes_crashed :
    Normalized {} crashedRecords
      ((Fabric.construct { durableDirectory := [100] }
        { snapshot := some ⟨crashedRecords, 2⟩ }).initializeFabric {}).2 :=
  @restart_normalizes {} { durableDirectory := [100] } _ _ _ rfl
    (openStore_snapshot (s := ⟨crashedRecords, 2⟩) (by decide +kernel)) (by decide +kernel)

end Pacing
