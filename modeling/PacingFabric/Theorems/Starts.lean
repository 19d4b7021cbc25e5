import PacingFabric.Theorems.Moves

/-!
# What a start leaves

Whatever the files hold, replay builds a well-formed ledger, and a start that succeeds
leaves no attempt in flight and no attempt with an effect.

## Main results

* `Fabric.Started`: the state of the ledger and the backends after a successful start.
* `initializeFabric_started`: every successful start leaves such a state.
-/

namespace Pacing

namespace ApplicationRecord

variable (r : ApplicationRecord)

@[simp] theorem recovered_attempt : r.recovered.attempt = r.attempt := by
  unfold recovered
  split_ifs <;> rfl

@[simp] theorem recovered_effect : r.recovered.effect = .none := by
  unfold recovered
  split_ifs <;> rfl

@[simp] theorem recovered_requiresRevalidation : r.recovered.requiresRevalidation = true := by
  unfold recovered
  split_ifs <;> rfl

theorem recovered_isTerminal : r.recovered.state.isTerminal = true := by
  unfold recovered
  split_ifs with h
  · rfl
  · rfl
  · simpa using h

/-- No recovered record is in a state that carries an effect label. -/
theorem recovered_labelFor : r.recovered.labelFor r.recovered.state = .none := by
  unfold recovered
  split_ifs with h h'
  · rfl
  · rfl
  · unfold labelFor
    cases hs : r.state <;> simp_all [ApplicationState.assertsEffect]

end ApplicationRecord

namespace Replay

variable {s : Replay}

/-- Replaying an attempt keeps the ledger well formed: it replaces the record of the same
identity or adds one. -/
theorem attempt_wellFormed (h : s.fabric.attempts.WellFormed) (r : ApplicationRecord) :
    (s.attempt r).fabric.attempts.WellFormed := by
  unfold attempt
  dsimp only
  split
  · rename_i i e hf
    obtain ⟨he, hid⟩ := h.find_eq_some_iff.1 hf
    exact h.overwrite he hid.symm
  · rename_i hf
    have hfresh : s.fabric.attempts.record r.attempt = none := by
      simp [AttemptLedger.record, hf]
    exact h.insert hfresh

/-- `s'` has the configuration, the backends and the ledger of `s`. -/
structure Keeps (s s' : Replay) : Prop where
  config : s'.fabric.config = s.fabric.config
  backends : s'.fabric.backends = s.fabric.backends
  attempts : s'.fabric.attempts = s.fabric.attempts

variable {t : Replay}

theorem Keeps.envelope (h : Keeps s t) (envelope : PacingEnvelope) :
    Keeps s (t.envelope envelope) := by
  unfold Replay.envelope
  dsimp only
  split <;> exact ⟨h.config, h.backends, h.attempts⟩

theorem Keeps.revocation (h : Keeps s t) (ref : EnvelopeRef) (reason : Bytes) :
    Keeps s (t.revocation ref reason) := by
  unfold Replay.revocation
  dsimp only
  split
  · exact ⟨h.config, h.backends, h.attempts⟩
  · exact h

theorem Keeps.attempt (h : Keeps s t) (r : ApplicationRecord) :
    Keeps (s.attempt r) (t.attempt r) := by
  unfold Replay.attempt
  dsimp only
  rw [h.attempts]
  split <;> exact ⟨h.config, h.backends, by simp⟩

/-- The attempt a record holds, as replay decodes it. -/
def attemptOf (limits : Limits) (record : DurableRecord) : Option ApplicationRecord :=
  if record.type = .attempt then decodePayload (decodeAttempt limits) record.payload else none

/-- One turn of the loop keeps the ledger, or replays one attempt into it. -/
theorem record_keeps (s : Replay) (nonce : UInt64) (record : DurableRecord) :
    (attemptOf s.fabric.config.limits record = none ∧
        Keeps s (Replay.record nonce s record)) ∨
      ∃ r, attemptOf s.fabric.config.limits record = some r ∧
        Keeps (s.attempt r) (Replay.record nonce s record) := by
  have hself : Keeps s { s with fabric := { s.fabric with storage := { s.fabric.storage with
      sequence := max s.fabric.storage.sequence record.sequence } } } := ⟨rfl, rfl, rfl⟩
  have hother : record.type ≠ .attempt → attemptOf s.fabric.config.limits record = none :=
    fun hne => if_neg hne
  unfold Replay.record
  cases htype : record.type with
  | attempt =>
    dsimp only
    split
    · rename_i hdecode
      exact .inl ⟨by rw [attemptOf, if_pos htype, hdecode], rfl, rfl, rfl⟩
    · rename_i hdecode
      exact .inr ⟨_, by rw [attemptOf, if_pos htype, hdecode], hself.attempt _⟩
  | envelope =>
    dsimp only
    split
    · exact .inl ⟨hother (by simp [htype]), rfl, rfl, rfl⟩
    · exact .inl ⟨hother (by simp [htype]), hself.envelope _⟩
  | envelopeRevocation =>
    dsimp only
    split
    · exact .inl ⟨hother (by simp [htype]), rfl, rfl, rfl⟩
    · exact .inl ⟨hother (by simp [htype]), hself.revocation _ _⟩
  | metaRecord => exact .inl ⟨hother (by simp [htype]), rfl, rfl, rfl⟩
  | unlisted raw beyond => exact .inl ⟨hother (by simp [htype]), rfl, rfl, rfl⟩
  | _ =>
    dsimp only
    split <;> exact .inl ⟨hother (by simp [htype]), rfl, rfl, rfl⟩

/-- Replaying an attempt updates the ledger as a map. -/
theorem attempt_record (h : s.fabric.attempts.WellFormed) (r : ApplicationRecord) :
    (s.attempt r).fabric.attempts.record =
      Function.update s.fabric.attempts.record r.attempt (some r) := by
  unfold attempt
  dsimp only
  split
  · rename_i i e hf
    obtain ⟨he, hid⟩ := h.find_eq_some_iff.1 hf
    rw [← hid]
    exact AttemptLedger.record_overwrite h he hid.symm
  · rename_i hf
    exact AttemptLedger.record_insert h (by simp [AttemptLedger.record, hf])

end Replay

/-- A store that fails to open says so. -/
theorem openStore_error {limits : Limits} {disk disk' : Disk} {outcome : OpenOutcome}
    {status : Status}
    (h : DurableStore.openStore limits disk outcome = (.error status, disk')) :
    status.isOk = false := by
  have hsnapshot : ∀ status', DurableStore.loadSnapshot limits disk.snapshot = .error status' →
      status'.isOk = false := by
    intro status' hload
    unfold DurableStore.loadSnapshot at hload
    repeat' split at hload
    all_goals first | (cases hload; rfl) | cases hload
  have hjournal : ∀ barrier status', DurableStore.loadJournal limits barrier disk.journal =
      .error status' → status'.isOk = false := by
    intro barrier status' hload
    unfold DurableStore.loadJournal at hload
    repeat' split at hload
    all_goals first | (cases hload; rfl) | cases hload
  unfold DurableStore.openStore at h
  split at h
  · obtain ⟨h, -⟩ := Prod.mk.inj h
    cases h
    rfl
  · split at h
    · rename_i status' hload
      obtain ⟨h, -⟩ := Prod.mk.inj h
      cases h
      exact hsnapshot _ hload
    · split at h
      · rename_i status' hload
        obtain ⟨h, -⟩ := Prod.mk.inj h
        cases h
        exact hjournal _ _ hload
      · split at h
        all_goals
          obtain ⟨h, -⟩ := Prod.mk.inj h
          cases h
        rfl

namespace Fabric

variable {f : Fabric} (a : Answers)

/-- Replay builds a well-formed ledger and leaves configuration and backends alone. -/
theorem replay_keeps (h : f.attempts.WellFormed) (records : List DurableRecord) :
    (f.replay a records).fabric.attempts.WellFormed ∧
      (f.replay a records).fabric.config = f.config ∧
      (f.replay a records).fabric.backends = f.backends := by
  refine List.foldlRecOn records (Replay.record (nonZeroNonce (a.nonce 1)))
    (motive := fun s : Replay => s.fabric.attempts.WellFormed ∧ s.fabric.config = f.config ∧
      s.fabric.backends = f.backends) ⟨h, rfl, rfl⟩ ?_
  rintro s ⟨hwf, hconfig, hback⟩ record -
  have hattempt : ∀ r, (s.attempt r).fabric.config = s.fabric.config ∧
      (s.attempt r).fabric.backends = s.fabric.backends := by
    intro r
    unfold Replay.attempt
    dsimp only
    split <;> exact ⟨rfl, rfl⟩
  rcases Replay.record_keeps s (nonZeroNonce (a.nonce 1)) record with ⟨-, hk⟩ | ⟨r, -, hk⟩
  · exact ⟨hk.attempts ▸ hwf, hk.config.trans hconfig, hk.backends.trans hback⟩
  · exact ⟨hk.attempts ▸ Replay.attempt_wellFormed hwf r,
      (hk.config.trans (hattempt r).1).trans hconfig,
      (hk.backends.trans (hattempt r).2).trans hback⟩

/-- What recovery makes of an entry of a ledger without dead slots. -/
def recoveredEntry (e : AttemptEntry) : AttemptEntry :=
  if e.live then { e with record := e.record.recovered } else e

theorem turns_recoverAttempt : Turns (recoverAttempt a) recoveredEntry := by
  intro f i
  unfold recoverAttempt
  cases he : f.attempts.entries[i]? with
  | none =>
    rw [List.modify_eq_self (List.getElem?_eq_none_iff.1 he)]
    exact ⟨_, rfl⟩
  | some e =>
    rw [modify_eq_set_of_getElem? _ he]
    dsimp only
    split
    · rename_i hdead
      have heq : recoveredEntry e = e := if_neg (by simpa using hdead)
      obtain ⟨hi, rfl⟩ := List.getElem?_eq_some_iff.1 he
      rw [heq, List.set_getElem_self]
      exact ⟨_, rfl⟩
    · rename_i hlive
      have heq : recoveredEntry e = { e with record := e.record.recovered } :=
        if_pos (by simpa using hlive)
      rw [heq]
      exact ⟨f.attempts.pending, rfl⟩

theorem recoverAttempts_record (h : f.attempts.WellFormed) :
    (f.recoverAttempts a).attempts.WellFormed ∧
      ∀ id r, (f.recoverAttempts a).attempts.record id = some r →
        ∃ r₀, f.attempts.record id = some r₀ ∧ r = r₀.recovered := by
  obtain ⟨pending, hatt⟩ := (turns_recoverAttempt a).foldl f
  have hlive : ∀ e, (recoveredEntry e).live = e.live := by
    intro e
    unfold recoveredEntry
    split <;> rfl
  have hid : ∀ e, (recoveredEntry e).record.attempt = e.record.attempt := by
    intro e
    unfold recoveredEntry
    split <;> simp
  have hwf := h.mapEntries hlive hid
  rw [recoverAttempts, hatt]
  refine ⟨⟨hwf.live, hwf.dead, hwf.indexed, hwf.sound⟩, fun id r hr => ?_⟩
  change (f.attempts.mapEntries recoveredEntry).record id = some r at hr
  rw [AttemptLedger.record_mapEntries h hlive hid, Option.map_eq_some_iff] at hr
  obtain ⟨⟨i, e⟩, hf, rfl⟩ := hr
  have he := h.live e (List.mem_of_getElem? (h.find_eq_some_iff.1 hf).1)
  exact ⟨e.record, by simp [AttemptLedger.record, hf], by simp [recoveredEntry, he]⟩

/-- The coordinator after a successful start. -/
structure Started (f : Fabric) : Prop where
  wellFormed : f.attempts.WellFormed
  recovered : ∀ id r, f.attempts.record id = some r → ∃ r₀ : ApplicationRecord, r = r₀.recovered
  backends : f.backends = []

theorem advanceIncarnation_frame :
    ∃ epoch boot recovery, (f.advanceIncarnation a).2 =
      { f with epoch := epoch, boot := boot, recovery := recovery } := by
  unfold advanceIncarnation
  dsimp only
  split
  · exact ⟨_, _, _, rfl⟩
  · split
    all_goals exact ⟨_, _, _, rfl⟩

theorem journalEpoch_eq (now : Instant) :
    ∃ status storage, f.journalEpoch a now = (status, { f with storage := storage }) := by
  unfold journalEpoch
  split
  all_goals exact ⟨_, _, rfl⟩

theorem journalEpoch_frame (now : Instant) :
    ∃ storage, (f.journalEpoch a now).2 = { f with storage := storage } := by
  obtain ⟨_, storage, h⟩ := journalEpoch_eq (f := f) a now
  exact ⟨storage, congrArg Prod.snd h⟩

theorem recoverAttempts_frame :
    ∃ attempts storage recovery, f.recoverAttempts a =
      { f with attempts := attempts, storage := storage, recovery := recovery } := by
  refine List.foldlRecOn (List.range f.attempts.entries.length) (recoverAttempt a)
    (motive := fun g => ∃ attempts storage recovery, g =
      { f with attempts := attempts, storage := storage, recovery := recovery })
    ⟨f.attempts, f.storage, f.recovery, rfl⟩ ?_
  rintro g ⟨attempts, storage, recovery, rfl⟩ i -
  unfold recoverAttempt
  repeat' split
  all_goals exact ⟨_, _, _, rfl⟩

theorem settle_frame (replay : Replay) :
    ∃ attempts storage recovery envelopeIds attemptIds provenanceIds, f.settle a replay =
      { f.invalidateEnvelopes with
        attempts := attempts
        storage := storage
        recovery := recovery
        envelopeIds := envelopeIds
        attemptIds := attemptIds
        provenanceIds := provenanceIds } := by
  obtain ⟨_, _, _, h⟩ := recoverAttempts_frame (f := f.invalidateEnvelopes) a
  rw [settle, h]
  exact ⟨_, _, _, _, _, _, rfl⟩

/-- How the advance of epoch and boot ends: refused by an exhausted counter, or with both
counters raised. -/
inductive Advances (f : Fabric) : Status × Fabric → Prop
  | exhausted {status : Status} {epoch : Epoch}
      (named : status = .of .resourceExhausted "coordinator epoch is exhausted" ∨
        status = .of .resourceExhausted "boot counter is exhausted") :
      Advances f (status, { f with epoch := epoch })
  | advanced {epoch : Epoch} {boot : BootId} (epoch_lt : f.epoch.value < epoch.value)
      (boot_lt : f.boot.counter < boot.counter) :
      Advances f (.success, { f with
        epoch := epoch
        boot := boot
        recovery := { f.recovery with epochAfter := epoch, bootAfter := boot } })

theorem advanceIncarnation_advances (f : Fabric) : f.Advances (f.advanceIncarnation a) := by
  unfold advanceIncarnation Epoch.advanced
  by_cases hepoch : f.epoch.value = Checked.u64Max
  · rw [if_pos (beq_iff_eq.2 hepoch)]
    exact .exhausted (.inl rfl)
  rw [if_neg (by simpa using hepoch)]
  dsimp only
  by_cases hboot : f.boot.counter = Checked.u64Max
  · rw [if_neg (by simp), if_pos hboot]
    exact .exhausted (.inr rfl)
  · rw [if_neg (by simp), if_neg hboot]
    exact .advanced (UInt64.lt_add_one hepoch) (UInt64.lt_add_one hboot)

/-- How a recovery ends, from what replay leaves: an exhausted counter refuses it, or the next
incarnation is settled and its epoch journaled. -/
inductive Recovers (a : Answers) (s : Replay) : Status × Fabric → Prop
  | exhausted {status : Status} {epoch : Epoch}
      (named : status = .of .resourceExhausted "coordinator epoch is exhausted" ∨
        status = .of .resourceExhausted "boot counter is exhausted") :
      Recovers a s (status, { s.fabric.countRestored with epoch := epoch })
  | settled {status : Status} {epoch : Epoch} {boot : BootId} {storage : Storage}
      (epoch_lt : s.fabric.epoch.value < epoch.value)
      (boot_lt : s.fabric.boot.counter < boot.counter) :
      Recovers a s (status, { settle { s.fabric.countRestored with
        epoch := epoch
        boot := boot
        recovery := { s.fabric.countRestored.recovery with
          epochAfter := epoch, bootAfter := boot } } a s with storage := storage })

theorem recover_recovers (f : Fabric) (records : List DurableRecord) :
    Recovers a ((f.beginRecovery a records).replay a records) (f.recover a records) := by
  unfold recover
  dsimp only
  generalize (f.beginRecovery a records).replay a records = s
  have hadvance := advanceIncarnation_advances a s.fabric.countRestored
  generalize s.fabric.countRestored.advanceIncarnation a = advanced at hadvance ⊢
  cases hadvance with
  | exhausted named =>
    rw [if_pos (by rcases named with rfl | rfl <;> rfl)]
    exact .exhausted named
  | @advanced epoch boot epoch_lt boot_lt =>
    rw [if_neg (by simp [Status.success, Status.isOk])]
    -- journaling the epoch changes the storage of whatever has settled
    have hjournaled : ∀ g : Fabric,
        (∀ status storage, Recovers a s (status, { g.settle a s with storage := storage })) →
        Recovers a s ((g.settle a s).journalEpoch a a.recoverNow) := by
      intro g hg
      obtain ⟨status, storage, hjournal⟩ := journalEpoch_eq (f := g.settle a s) a a.recoverNow
      rw [hjournal]
      exact hg status storage
    exact hjournaled _ fun _ _ => .settled epoch_lt boot_lt

/-- A recovery that succeeds has settled. -/
theorem Recovers.isOk {s : Replay} {result : Status × Fabric} (h : Recovers a s result)
    (hok : result.1.isOk = true) : ∃ epoch boot storage,
    s.fabric.epoch.value < epoch.value ∧ s.fabric.boot.counter < boot.counter ∧
    result.2 = { settle { s.fabric.countRestored with
      epoch := epoch
      boot := boot
      recovery := { s.fabric.countRestored.recovery with
        epochAfter := epoch, bootAfter := boot } } a s with storage := storage } := by
  cases h with
  | exhausted named => rcases named with rfl | rfl <;> cases hok
  | settled epoch_lt boot_lt => exact ⟨_, _, _, epoch_lt, boot_lt, rfl⟩

theorem recover_started (h : f.attempts.WellFormed) (hback : f.backends = [])
    (records : List DurableRecord) (hok : (f.recover a records).1.isOk = true) :
    (f.recover a records).2.Started := by
  obtain ⟨hwf, _, hb⟩ := replay_keeps (f := f.beginRecovery a records) a h records
  obtain ⟨_, _, storage, -, -, heq⟩ := (recover_recovers a f records).isOk a hok
  rw [heq]
  generalize (f.beginRecovery a records).replay a records = replay at hwf hb ⊢
  generalize hgo : ({ replay.fabric.countRestored with
    epoch := _, boot := _, recovery := _ } : Fabric) = go
  obtain ⟨hwf', hrec⟩ := recoverAttempts_record (f := go.invalidateEnvelopes) a
    (by rw [← hgo]; exact hwf)
  refine ⟨⟨hwf'.live, hwf'.dead, hwf'.indexed, hwf'.sound⟩, fun id r hr => ?_, ?_⟩
  · obtain ⟨r₀, _, heq⟩ := hrec id r hr
    exact ⟨r₀, heq⟩
  · obtain ⟨_, _, _, _, _, _, hsettle⟩ := settle_frame (f := go) a replay
    rw [hsettle, ← hgo]
    exact hb.trans hback

theorem openDurable_started (h : f.attempts = {}) (hback : f.backends = [])
    (hok : (f.openDurable a).1.isOk = true) : (f.openDurable a).2.Started := by
  have hempty : f.attempts.WellFormed := h ▸ AttemptLedger.wellFormed_empty
  unfold openDurable at hok ⊢
  split
  · rename_i hdurable
    rw [if_pos hdurable] at hok
    cases hopen : DurableStore.openStore f.config.limits f.storage.disk a.files.opening with
    | mk opened disk =>
      rw [hopen] at hok
      cases opened with
      | error status =>
        have hne := openStore_error hopen
        rw [show status.isOk = true from hok] at hne
        exact absurd hne (by simp)
      | ok store =>
        dsimp only at hok ⊢
        split at hok
        · rename_i hrec
          rw [if_pos hrec]
          exact recover_started (f := { f with
            storage := { f.storage with disk := disk, durable := some store }
            recovery := { f.recovery with durableDirectoryUsed := true } }) a hempty hback _ hrec
        · rename_i hrec
          exact absurd hok hrec
  · refine ⟨hempty, fun id r hr => ?_, hback⟩
    simp [h, AttemptLedger.record, AttemptLedger.find] at hr

/-- Every start that succeeds leaves a well-formed ledger of recovered records. -/
theorem initializeFabric_started (config : FabricConfig) (disk : Disk)
    (hok : ((construct config disk).initializeFabric a).1.isOk = true) :
    ((construct config disk).initializeFabric a).2.Started := by
  unfold initializeFabric initializeLocked at hok ⊢
  rw [if_neg (show ¬ ((construct config disk).sample a.now).initialized = true from
    Bool.false_ne_true)] at hok ⊢
  dsimp only [construct, sample] at hok ⊢
  split at hok
  · rename_i hvalid
    rw [hok] at hvalid
    simp at hvalid
  · rename_i hvalid
    rw [if_neg hvalid]
    dsimp only at hok ⊢
    rw [if_pos hok]
    have h := openDurable_started a (f := _) rfl rfl hok
    exact ⟨h.wellFormed, h.recovered, h.backends⟩

end Fabric

end Pacing
