import PacingFabric.Theorems.Issuance
import PacingFabric.Theorems.Atomicity
import PacingFabric.Theorems.Draining
import PacingFabric.Theorems.Pending

/-!
# What a revocation leaves behind

`revoke_envelope` marks the envelope, journals the mark, and takes it back when journaling
fails. An envelope that is marked already is not journaled again.

## Main definitions

* `EnvelopeTable.Reasoned`: an envelope that is not revoked has no reason.
* `Storage.Filed`: an open store has a journal file.
* `Fabric.revoke`: `revoke_envelope` up to the release of the lock.

## Main results

* `revoke_kept_or_recorded`: a refused revocation changes neither the table nor the ledger, and
  one that succeeds finds the mark or has its record in the files.
-/

namespace Pacing

open Interleaving

variable {f : Fabric} {a : Answers} {now : Instant} {limits : Limits}

/-! ### Reasons of marks -/

/-- A live envelope that is not revoked has no reason. -/
def EnvelopeEntry.Reasoned (e : EnvelopeEntry) : Prop :=
  e.live = true → e.revoked = false → e.revokeReason = []

def EnvelopeTable.Reasoned (t : EnvelopeTable) : Prop := ∀ e ∈ t.entries, e.Reasoned

theorem EnvelopeEntry.reasoned_revoked {e : EnvelopeEntry} (h : e.revoked = true) :
    e.Reasoned := by
  intro _ hrevoked
  rw [h] at hrevoked
  cases hrevoked

namespace EnvelopeTable.Reasoned
variable {t t' : EnvelopeTable}

theorem set (h : t.Reasoned) {i : ℕ} {e : EnvelopeEntry} (he : e.Reasoned)
    (hentries : t'.entries = t.entries.set i e) : t'.Reasoned := by
  intro e' he'
  rw [hentries] at he'
  rcases List.mem_or_eq_of_mem_set he' with he' | rfl
  · exact h e' he'
  · exact he

theorem map (h : t.Reasoned) {mark : EnvelopeEntry → EnvelopeEntry}
    (hmark : ∀ e, e.Reasoned → (mark e).Reasoned) (hentries : t'.entries = t.entries.map mark) :
    t'.Reasoned := by
  intro e' he'
  rw [hentries] at he'
  obtain ⟨e, he, rfl⟩ := List.mem_map.1 he'
  exact hmark e (h e he)

theorem insert (h : t.Reasoned) (envelope : PacingEnvelope) : (t.insert envelope).Reasoned := by
  intro e he
  rcases List.mem_append.1 he with he | he
  · exact h e he
  · obtain rfl := List.mem_singleton.1 he
    exact fun _ _ => rfl

end EnvelopeTable.Reasoned

namespace Fabric

theorem compactTables_reasoned (h : f.envelopes.Reasoned) :
    f.compactTables.envelopes.Reasoned := by
  unfold compactTables
  dsimp only
  split
  · exact fun e he => h e (List.mem_filter.1 he).1
  · exact h

theorem evictAndCompact_reasoned (h : f.envelopes.Reasoned) :
    f.evictAndCompact.envelopes.Reasoned := by
  have hcompact := compactTables_reasoned h
  have hentries := f.evictAndCompact_entries
  cases hvictim : f.victim with
  | none =>
    rw [hvictim] at hentries
    intro e he
    rw [hentries] at he
    exact hcompact e he
  | some slot =>
    rw [hvictim] at hentries
    exact hcompact.set (fun hlive => absurd hlive Bool.false_ne_true) hentries

theorem setRevoked_reasoned (h : f.envelopes.Reasoned) (i : ℕ) (entry : EnvelopeEntry)
    {revoked : Bool} {reason : Bytes} (hreason : revoked = false → reason = []) :
    (f.setRevoked i entry revoked reason).envelopes.Reasoned :=
  h.set (fun _ hrevoked => hreason hrevoked) rfl

theorem fenceEnvelopes_reasoned (h : f.envelopes.Reasoned) (epoch : Epoch) (reason : Bytes) :
    (f.fenceEnvelopes epoch reason).envelopes.Reasoned := by
  refine h.map (fun e he => ?_) rfl
  split
  · exact EnvelopeEntry.reasoned_revoked rfl
  · exact he

theorem revokeEnvelope_reasoned (h : f.envelopes.Reasoned) (ref : EnvelopeRef) (reason : Bytes) :
    (f.revokeEnvelope a now ref reason).2.2.envelopes.Reasoned := by
  unfold revokeEnvelope
  split
  · exact h
  split
  · exact h
  rename_i i entry _
  split
  · exact h
  split
  · rwa [revokeAttempts_envelopes]
  have hmarked := @setRevoked_reasoned f h i entry true reason nofun
  dsimp only
  split
  · exact hmarked
  split
  · exact setRevoked_reasoned (f := ((f.setRevoked i entry true reason).journalRecord a
      .envelopeRevocation _ now.ns).2) hmarked i entry fun _ => rfl
  · rw [revokeAttempts_envelopes]
    exact hmarked

theorem fenceBelow_reasoned (h : f.envelopes.Reasoned) (epoch : Epoch) :
    (f.fenceBelow a now epoch).2.2.envelopes.Reasoned := by
  unfold fenceBelow
  split
  · exact h
  · dsimp only
    obtain ⟨_, _, hfence⟩ := fenceAttempts_frame
      (f.fenceEnvelopes epoch "fenced by coordinator epoch") a now epoch
      "fenced by coordinator epoch"
    rw [hfence]
    exact fenceEnvelopes_reasoned h epoch _

theorem advanceEpoch_reasoned (h : f.envelopes.Reasoned) :
    (f.advanceEpoch a now).2.envelopes.Reasoned := by
  unfold advanceEpoch
  split
  · exact h
  · unfold advanceEpochLocked
    dsimp only
    split
    · exact h
    · obtain ⟨_, _, hfence⟩ := fenceAttempts_frame
        (fenceEnvelopes { f with epoch := f.epoch.advanced.1 } f.epoch.advanced.1
          "coordinator epoch advanced") a now f.epoch.advanced.1
        "coordinator epoch advanced past this attempt"
      rw [hfence]
      have hmarked := fenceEnvelopes_reasoned (f := { f with epoch := f.epoch.advanced.1 }) h
        f.epoch.advanced.1 "coordinator epoch advanced"
      split <;> exact hmarked

end Fabric

theorem Call.step_reasoned (hwf : f.attempts.WellFormed) (h : f.envelopes.Reasoned) (k : Call) :
    (Call.step f a k).1.envelopes.Reasoned := by
  have hsame : ∀ {t : EnvelopeTable}, t = f.envelopes → t.Reasoned := by
    rintro t rfl
    exact h
  have hevicted : ∀ {t : EnvelopeTable}, t = f.evictAndCompact.envelopes → t.Reasoned := by
    rintro t rfl
    exact Fabric.evictAndCompact_reasoned h
  -- the frame settles the steps that write no envelope
  cases hwrites : k.writesEnvelopes with
  | false => exact hsame ((Call.step_frame f a k).envelopes hwrites)
  | true =>
    cases k with
    | derive inputs now =>
      change (f.deriveEnvelope a inputs now).2.envelopes.Reasoned
      have hderives := f.deriveEnvelope_derives a inputs now
      generalize f.deriveEnvelope a inputs now = result at hderives ⊢
      cases hderives with
      | refused _ henvelopes | unjournaled _ _ henvelopes => exact hsame henvelopes
      | unadmitted _ _ _ henvelopes => exact hevicted henvelopes
      | issued _ _ _ henvelopes =>
        rw [henvelopes]
        exact (Fabric.evictAndCompact_reasoned h).insert _
    | reserve p =>
      rw [Call.step_reserve_fst]
      have hresult := reserveAttempt_result (a := a) hwf p.now p.ref p.backendId p.requested
        p.envelope p.backend
      generalize f.reserveAttempt a p.now p.ref p.backendId p.requested p.envelope p.backend =
        result at hresult ⊢
      cases hresult with
      | declined _ henvelopes _ => exact henvelopes.elim hsame hevicted
      | reserved _ _ _ henvelopes _ => exact hevicted henvelopes
    | locked request now =>
      rw [show (Call.step f a (.locked request now)).1 = Call.lockedState f a now request from
        Call.lockedStep_fst f a now request]
      cases request with
      | advanceEpoch => exact Fabric.advanceEpoch_reasoned h
      | revokeEnvelope ref reason =>
        simp only [Call.lockedState]
        repeat' split
        all_goals first | exact h | exact Fabric.revokeEnvelope_reasoned h ref reason
      | fenceBelow epoch =>
        simp only [Call.lockedState]
        split
        · exact h
        · exact Fabric.fenceBelow_reasoned h epoch
      | _ => cases hwrites
    | _ => cases hwrites

/-- Replay adds envelopes without a reason and marks with one. -/
theorem EnvelopeTable.Replayed.reasoned {t t' : EnvelopeTable} (h : Replayed t t')
    (ht : t.Reasoned) : t'.Reasoned := by
  cases h with
  | same => exact ht
  | inserted envelope new => exact ht.insert envelope
  | @rewritten i e envelope found =>
    obtain ⟨hi, -⟩ := getElem?_of_find found
    have hheld : EnvelopeEntry.Reasoned { e with envelope := envelope } :=
      ht e (List.mem_of_getElem? hi)
    exact ht.set hheld rfl
  | revoked id reason found => exact ht.set (EnvelopeEntry.reasoned_revoked rfl) rfl

theorem Fabric.initializeFabric_reasoned (config : FabricConfig) (disk : Disk) :
    ((construct config disk).initializeFabric a).2.envelopes.Reasoned := by
  rcases initializeFabric_cases a config disk with ⟨_, _, _, _, _, _, _, heq, -⟩ |
    ⟨store, disk', _, _, _, -, -, heq⟩
  · rw [heq]
    exact fun _ he => nomatch he
  · rw [heq]
    have hreplay : (((opened a config disk' store).beginRecovery a store.recovered).replay a
        store.recovered).fabric.envelopes.Reasoned :=
      List.foldlRecOn store.recovered (Replay.record (nonZeroNonce (a.nonce 1)))
        (motive := fun s : Replay => s.fabric.envelopes.Reasoned) (fun _ he => nomatch he)
        fun _ hs record _ => (Replay.record_replayed _ _ record).reasoned hs
    change ((opened a config disk' store).recover a store.recovered).2.envelopes.Reasoned
    have hrecovers := recover_recovers a (opened a config disk' store) store.recovered
    generalize (opened a config disk' store).recover a store.recovered = result at hrecovers ⊢
    generalize ((opened a config disk' store).beginRecovery a store.recovered).replay a
      store.recovered = replay at hreplay hrecovers
    cases hrecovers with
    | exhausted => exact hreplay
    | settled =>
      obtain ⟨_, _, _, _, _, _, hsettle⟩ := settle_frame (f := { replay.fabric.countRestored with
        epoch := _, boot := _, recovery := _ }) a replay
      rw [hsettle]
      refine hreplay.map (fun e he => ?_) rfl
      split
      · exact EnvelopeEntry.reasoned_revoked rfl
      · exact he

/-! ### The journal file -/

/-- A store that is in place has a journal file. -/
def Storage.Filed (s : Storage) : Prop := s.durable.isSome = true → s.disk.journal.isSome = true

namespace DurableStore
variable {store : DurableStore} {disk : Disk}

theorem append_journal {record : DurableRecord} {outcome : AppendOutcome} :
    (append limits store disk record outcome).2.2.journal.isSome = disk.journal.isSome := by
  have hleave : ∀ left, (leave disk record left).journal.isSome = disk.journal.isSome := by
    intro left
    cases left <;> simp [leave]
  unfold append
  dsimp only
  repeat' split
  all_goals first | rfl | exact hleave _

theorem checkpoint_journal {compacted : List DurableRecord} {outcome : CheckpointOutcome}
    (h : disk.journal.isSome = true) :
    (checkpoint limits store disk compacted outcome).2.2.journal.isSome = true := by
  unfold checkpoint
  dsimp only
  repeat' split
  all_goals first | exact h | rfl

theorem openStore_journal {disk' : Disk} {outcome : OpenOutcome}
    (h : openStore limits disk outcome = (.ok store, disk')) : disk'.journal.isSome = true := by
  unfold openStore at h
  repeat' split at h
  all_goals cases h
  · rfl
  · rename_i hjournal _
    rw [hjournal]
    rfl

end DurableStore

theorem Fabric.maybeCheckpoint_filed (h : f.storage.Filed) : (f.maybeCheckpoint a).2.Filed := by
  unfold maybeCheckpoint
  cases hstore : f.storage.durable with
  | none => exact h
  | some store =>
    have hfile := h (by rw [hstore]; rfl)
    dsimp only
    split
    · exact h
    split
    · exact h
    · exact fun _ => DurableStore.checkpoint_journal hfile

theorem Fabric.journal_filed (h : f.storage.Filed) (type : DurableRecordType) (payload : Bytes)
    (ts : UInt64) : (f.journal a type payload ts).2.Filed := by
  have hready := maybeCheckpoint_filed (a := a) h
  unfold journal
  generalize f.maybeCheckpoint a = ready at hready ⊢
  obtain ⟨status, storage⟩ := ready
  dsimp only at hready ⊢
  split
  · exact hready
  · cases hstore : storage.durable with
    | none => exact hready
    | some store =>
      have hfile := hready (by rw [hstore]; rfl)
      intro _
      exact DurableStore.append_journal.trans hfile

theorem Storage.Journaled.filed {s s' : Storage} (h : s.Journaled a s') (hs : s.Filed) :
    s'.Filed := by
  induction h with
  | refl => exact hs
  | tail _ hstep ih =>
    obtain ⟨f, type, payload, ts, rfl, rfl⟩ := hstep
    exact Fabric.journal_filed ih type payload ts

theorem Call.step_filed (h : f.storage.Filed) (k : Call) : (Call.step f a k).1.storage.Filed := by
  by_cases hk : k = .detach
  · subst hk
    exact fun hdurable => absurd hdurable Bool.false_ne_true
  · exact (Call.step_journaled hk).filed h

/-- A start leaves the journal in place where it opened the store. -/
theorem Storage.Starts.filed {limits : Limits} {s s' : Storage} (h : s.Starts limits a s')
    (hs : s.Filed) : s'.Filed := by
  cases h with
  | left => exact hs
  | refused hnone =>
    intro hdurable
    rw [hnone] at hdurable
    cases hdurable
  | opened hopened hjournaled =>
    obtain ⟨store, hopen, -⟩ := hopened
    exact hjournaled.filed fun _ => DurableStore.openStore_journal hopen

theorem Fabric.initializeFabric_filed (config : FabricConfig) (disk : Disk) :
    ((construct config disk).initializeFabric a).2.storage.Filed :=
  (initializeLocked_starts ((construct config disk).sample a.now)).filed
    fun hdurable => absurd hdurable Bool.false_ne_true

/-- What every reachable coordinator keeps. -/
structure Fabric.Kept (f : Fabric) : Prop where
  counted : f.Counted
  sound : f.envelopes.Sound
  reasoned : f.envelopes.Reasoned
  filed : f.storage.Filed

theorem World.Reachable.kept {w : World} (h : w.Reachable) : w.shared.Kept := by
  obtain ⟨n, hrun⟩ := h
  refine hrun.invariant (I := fun w => w.shared.Kept)
    ⟨(Fabric.ledgerRecovered_of_empty rfl).counted, EnvelopeTable.sound_empty,
    (fun _ he => nomatch he), fun hdurable => absurd hdurable Bool.false_ne_true⟩ ?_
  intro w e w' hw _ hs
  cases hs with
  | start _ => exact hw
  | move _ =>
    have hwf := hw.counted.wellFormed
    exact ⟨hw.counted.step _, (Call.step_table _).sound hw.sound,
      Call.step_reasoned hwf hw.reasoned _, Call.step_filed hw.filed _⟩
  | restart hr =>
    obtain ⟨config, a, rfl⟩ := hr
    exact ⟨Fabric.initializeFabric_counted a config _, Fabric.initializeFabric_sound config _,
      Fabric.initializeFabric_reasoned config _, Fabric.initializeFabric_filed config _⟩

/-! ### Records of revocations -/

theorem DurableStore.append_isOk {store : DurableStore} {disk : Disk} {record : DurableRecord}
    {outcome : AppendOutcome} (h : (append limits store disk record outcome).1.isOk = true) :
    (DurableFile.checkAppend limits store record).isOk = true ∧ outcome = .ok := by
  unfold append at h
  unfold DurableFile.checkAppend
  split at h
  · cases h
  rename_i hopen
  split at h
  · cases h
  rename_i hlength
  rw [if_neg hopen, if_neg hlength]
  cases hnarrow : Checked.narrowU32 record.payload.length with
  | none =>
    rw [hnarrow] at h
    cases h
  | some payloadLen =>
    rw [hnarrow] at h
    dsimp only at h ⊢
    split at h
    · cases h
    rename_i hbound
    rw [if_neg hbound]
    cases outcome with
    | ok => exact ⟨rfl, rfl⟩
    | headerFailed | payloadFailed | flushFailed => cases h

/-- A checkpoint keeps the records of the files, or writes the whole compacted set. -/
theorem DurableStore.checkpoint_records (limits : Limits) (store : DurableStore) (disk : Disk)
    (compacted : List DurableRecord) (outcome : CheckpointOutcome) :
    (∀ r ∈ disk.records, r ∈ (checkpoint limits store disk compacted outcome).2.2.records) ∨
      ∀ r ∈ compacted, r ∈ (checkpoint limits store disk compacted outcome).2.2.records := by
  unfold checkpoint
  dsimp only
  split
  · exact .inl fun _ h => h
  split
  · exact .inl fun _ h => h
  cases outcome with
  | notReplaced => exact .inl fun _ h => h
  | _ => exact .inr fun _ h => List.mem_append_left _ h

theorem Fabric.mem_numbered_of_mem (now : Instant) (sequence : UInt64) {c : Compacted}
    {cs : List Compacted} (h : c ∈ cs) :
    ∃ r ∈ numbered now sequence cs, (r.type, r.payload) = c := by
  induction cs generalizing sequence with
  | nil => cases h
  | cons c' cs ih =>
    rcases List.mem_cons.1 h with rfl | h
    · exact ⟨_, List.mem_cons_self, rfl⟩
    · obtain ⟨r, hr, hrecord⟩ := ih (sequence + 1) h
      exact ⟨r, List.mem_cons_of_mem _ hr, hrecord⟩

namespace Fabric
variable {ref : EnvelopeRef} {reason payload : Bytes}

theorem revocation_payload {capacity : ℕ}
    (h : (encodeRevocation ⟨capacity, [], none⟩ ref reason).finish = .ok payload) :
    payload = ref.wire ++ stringWire reason := by
  have hemits := (Emits.start.genRef ref).str reason
  exact hemits.finish h

/-- A reason of 492 bytes fits the record. -/
theorem revocation_fits (h : reason.length ≤ 492) :
    ∃ payload, (encodeRevocation ⟨512, [], none⟩ ref reason).finish = .ok payload := by
  have hlength : ¬ reason.length > ByteWriter.maxStringBytes := by
    rw [show ByteWriter.maxStringBytes = 1048576 from rfl]
    omega
  have hroom : ¬ (512 < reason.length ∨ 512 - reason.length < 20) := by omega
  have hsmall : reason.length % 4294967296 = reason.length := Nat.mod_eq_of_lt (by omega)
  refine ⟨ref.wire ++ stringWire reason, ?_⟩
  simp [encodeRevocation, ByteWriter.genRef, ByteWriter.id, ByteWriter.generation, ByteWriter.u64v,
    ByteWriter.u32v, ByteWriter.raw, ByteWriter.ok, ByteWriter.str, ByteWriter.finish, hlength,
    hroom, hsmall, GenRef.wire, stringWire]

/-- The files hold a revocation record with the payload. -/
def Revoked (s : Storage) (payload : Bytes) : Prop :=
  ∃ r ∈ s.disk.records, r.type = .envelopeRevocation ∧ r.payload = payload

/-- A live entry whose revocation is the payload. -/
def Marks (f : Fabric) (payload : Bytes) : Prop :=
  ∃ e ∈ f.envelopes.entries, e.live = true ∧ e.revoked = true ∧
    payload = e.envelope.ref.wire ++ stringWire e.revokeReason

theorem Marks.mem_compacted (h : f.Marks payload) {describe : BackendPtr → BackendDescriptor}
    {cs : List Compacted} (hcs : f.compacted describe = .ok cs) :
    (DurableRecordType.envelopeRevocation, payload) ∈ cs := by
  obtain ⟨e, he, hlive, hrevoked, rfl⟩ := h
  have hitem : LiveItem.revocation e.envelope.ref e.revokeReason ∈ f.liveItems describe := by
    have hitems : LiveItem.revocation e.envelope.ref e.revokeReason ∈ e.items := by
      simp [EnvelopeEntry.items, hrevoked]
    simp only [liveItems, List.mem_append, List.mem_flatMap]
    exact .inl (.inl (.inl (.inr ⟨e, List.mem_filter.2 ⟨he, hlive⟩, hitems⟩)))
  obtain ⟨⟨type, bytes⟩, hc, hcompact⟩ :=
    exists_of_forall₂_left (compacted_eq_ok_iff.1 hcs) hitem
  obtain ⟨rfl, hpayload⟩ := compact_eq_ok_iff.1 hcompact
  rw [← revocation_payload hpayload]
  exact hc

/-- A compaction writes the marks again. -/
theorem maybeCheckpoint_revoked (hmarks : f.Marks payload) (h : Revoked f.storage payload) :
    Revoked (f.maybeCheckpoint a).2 payload := by
  unfold maybeCheckpoint
  split
  · exact h
  split
  · exact h
  split
  · exact h
  rename_i store _ _ _ cs hcs
  -- the old files stay, or the new ones are written from a table that has the mark
  rcases DurableStore.checkpoint_records f.config.limits store
    { f.storage.disk with operations := f.storage.disk.operations + 1 }
    (numbered a.checkpointNow (f.storage.sequence + 1) cs)
    (a.files.checkpoint f.storage.disk.operations) with hold | hnew
  · obtain ⟨r, hr, htype, hpayload⟩ := h
    exact ⟨r, hold r hr, htype, hpayload⟩
  · obtain ⟨r, hr, hrecord⟩ := mem_numbered_of_mem a.checkpointNow (f.storage.sequence + 1)
      (hmarks.mem_compacted hcs)
    obtain ⟨htype, hpayload⟩ := Prod.mk.inj hrecord
    exact ⟨r, hnew r hr, htype, hpayload⟩

theorem journal_revoked (hmarks : f.Marks payload) (h : Revoked f.storage payload)
    (type : DurableRecordType) (bytes : Bytes) (ts : UInt64) :
    Revoked (f.journal a type bytes ts).2 payload := by
  have hready := maybeCheckpoint_revoked (a := a) hmarks h
  unfold journal
  generalize f.maybeCheckpoint a = ready at hready ⊢
  obtain ⟨status, storage⟩ := ready
  dsimp only at hready ⊢
  split
  · exact hready
  split
  · exact hready
  · obtain ⟨r, hr, hrecord⟩ := hready
    exact ⟨r, DurableStore.mem_records_append_iff.2 (.inl hr), hrecord⟩

/-- A record the store takes is in the files. -/
theorem journal_recorded (hfiled : f.storage.Filed) (hdurable : f.storage.durable.isSome = true)
    {type : DurableRecordType} {ts : UInt64}
    (hok : (f.journal a type payload ts).1.isOk = true) :
    ∃ r ∈ (f.journal a type payload ts).2.disk.records, r.type = type ∧ r.payload = payload := by
  have hready := maybeCheckpoint_filed (a := a) hfiled
  have hopen := congrArg Option.isSome (f.maybeCheckpoint_open (a := a))
  rw [Option.isSome_map, Option.isSome_map, hdurable] at hopen
  unfold journal at hok ⊢
  generalize f.maybeCheckpoint a = ready at hready hopen hok ⊢
  obtain ⟨status, storage⟩ := ready
  dsimp only at hready hopen hok ⊢
  split at hok
  · rename_i hrefused
    rw [hok] at hrefused
    cases hrefused
  · rename_i hready_ok
    rw [if_neg hready_ok]
    obtain ⟨store, hstore⟩ := Option.isSome_iff_exists.1 hopen
    rw [hstore] at hok ⊢
    obtain ⟨hcheck, houtcome⟩ := DurableStore.append_isOk hok
    exact ⟨_, DurableStore.mem_records_append_iff.2 (.inr ⟨rfl, hcheck,
      by rw [houtcome]; rfl, hready hopen⟩), rfl, rfl⟩

/-- Revoking the attempts keeps the record of the mark. -/
theorem revokeAttempts_revoked (hmarks : f.Marks payload) (h : Revoked f.storage payload)
    (envelope : EnvelopeId) (cadence : Cadence) (reason : Bytes) :
    Revoked (f.revokeAttempts a now envelope cadence reason).2.storage payload := by
  -- along the loop the table keeps the mark, so that a checkpoint on the way writes it again
  refine (List.foldlRecOn (f.attempts.byEnvelope envelope.value)
    (revokeAttempt a now cadence reason) (motive := fun acc : List Withdrawal × Fabric =>
      acc.2.Marks payload ∧ Revoked acc.2.storage payload) ⟨hmarks, h⟩ ?_).2
  rintro ⟨todo, g⟩ ⟨hmarks, hrevoked⟩ id _
  obtain ⟨attempts, storage, hframe⟩ := revokeAttempt_frame a now cadence reason todo id (f := g)
  refine ⟨?_, ?_⟩
  · rw [hframe]
    exact hmarks
  · unfold revokeAttempt
    dsimp only
    split
    · exact hrevoked
    split
    · exact hrevoked
    · unfold commitRecord journalAttempt
      dsimp only
      split
      · exact journal_revoked (f := { g with attempts := g.attempts.write _ _ _ }) hmarks hrevoked
          ..
      · exact hrevoked

/-! ### The operation -/

/-- `revoke_envelope` up to the release of the lock. -/
def revoke (f : Fabric) (a : Answers) (now : Instant) (ref : EnvelopeRef) (reason : Bytes) :
    Status × Fabric :=
  if !ref.id.valid then (.of .invalidArgument "envelope id is zero", f)
  else if reason.length > f.config.limits.maxExplanationBytes.toNat then
    (.of .oversized "revocation reason above configured bound", f)
  else ((f.revokeEnvelope a now ref reason).1, (f.revokeEnvelope a now ref reason).2.2)

/-- The store was asked to take the record of the revocation and refused; `s` is what it left. -/
def RefusedByStore (f : Fabric) (a : Answers) (now : Instant) (ref : EnvelopeRef) (reason : Bytes)
    (s : Storage) : Prop :=
  ∃ i entry payload, f.envelopes.find ref.id = some (i, entry) ∧ entry.revoked = false ∧
    (encodeRevocation ⟨512, [], none⟩ ref reason).finish = .ok payload ∧
    ((f.setRevoked i entry true reason).journal a .envelopeRevocation payload now.ns).1.isOk =
      false ∧
    s = ((f.setRevoked i entry true reason).journal a .envelopeRevocation payload now.ns).2

/-- The envelope is marked revoked. -/
def RevokedAlready (f : Fabric) (ref : EnvelopeRef) : Prop :=
  ∃ i entry, f.envelopes.find ref.id = some (i, entry) ∧ entry.revoked = true

/-- How a revocation ends. -/
inductive Revokes (f : Fabric) (a : Answers) (now : Instant) (ref : EnvelopeRef)
    (reason : Bytes) : Status × Fabric → Prop
  | refused {status} (refused : status.isOk = false) : Revokes f a now ref reason (status, f)
  | unencoded {status g} (long : 492 < reason.length) (refused : status.isOk = false) :
      Revokes f a now ref reason (status, g)
  | unjournaled {status g} (refused : status.isOk = false) (envelopes : g.envelopes = f.envelopes)
      (attempts : g.attempts = f.attempts) (store : f.RefusedByStore a now ref reason g.storage) :
      Revokes f a now ref reason (status, g)
  | again {g} (marked : f.RevokedAlready ref) : Revokes f a now ref reason (.success, g)
  | recorded {g payload}
      (encoded : (encodeRevocation ⟨512, [], none⟩ ref reason).finish = .ok payload)
      (recorded : f.storage.durable.isSome = true → Revoked g.storage payload) :
      Revokes f a now ref reason (.success, g)

/-- What is marked and taken back is as it was. -/
theorem setRevoked_back (h : f.envelopes.Reasoned) {i : ℕ} {entry : EnvelopeEntry}
    (hfind : f.envelopes.find ref.id = some (i, entry)) (hrevoked : entry.revoked = false)
    {g : Fabric} (hg : g.envelopes = (f.setRevoked i entry true reason).envelopes) :
    (g.setRevoked i entry false []).envelopes = f.envelopes := by
  obtain ⟨hi, hlive⟩ := EnvelopeTable.getElem?_of_find hfind
  have hreason := h entry (List.mem_of_getElem? hi) hlive hrevoked
  have hback : { entry with revoked := false, revokeReason := [] } = entry := by
    rw [← hrevoked, ← hreason]
  obtain ⟨hlt, rfl⟩ := List.getElem?_eq_some_iff.1 hi
  dsimp only [setRevoked] at hg ⊢
  rw [hg, List.set_set, hback, List.set_getElem_self]

theorem revoke_revokes (h : f.Kept) (a : Answers) (now : Instant) (ref : EnvelopeRef)
    (reason : Bytes) : Revokes f a now ref reason (f.revoke a now ref reason) := by
  unfold revoke
  split
  · exact .refused rfl
  split
  · exact .refused rfl
  unfold revokeEnvelope
  split
  · exact .refused rfl
  cases hfind : f.envelopes.find ref.id with
  | none => exact .refused rfl
  | some slot =>
    obtain ⟨i, entry⟩ := slot
    dsimp only
    split
    · exact .refused rfl
    rename_i hgeneration
    cases hrevoked : entry.revoked with
    | true => exact .again ⟨i, entry, hfind, hrevoked⟩
    | false =>
      simp only [Bool.false_eq_true, if_false]
      cases hencode : (encodeRevocation ⟨512, [], none⟩ ref reason).finish with
      | error status =>
        -- the mark stays in the table: only a reason too long for the buffer gets here
        refine .unencoded (Nat.lt_of_not_le fun hshort => ?_)
          (((ByteWriter.Roomy.fresh 512).revocation ref reason).refused hencode)
        obtain ⟨payload, hpayload⟩ := @revocation_fits ref reason hshort
        rw [hencode] at hpayload
        cases hpayload
      | ok payload =>
        dsimp only
        rw [journalRecord_fst, journalRecord_snd]
        cases hok : ((f.setRevoked i entry true reason).journal a .envelopeRevocation payload
          now.ns).1.isOk with
        | false =>
          -- the mark is taken back, the attempts were not reached
          exact .unjournaled hok (setRevoked_back h.reasoned hfind hrevoked rfl) rfl
            ⟨i, entry, payload, hfind, hrevoked, hencode, hok, rfl⟩
        | true =>
          refine .recorded hencode fun hdurable => ?_
          have hrecorded : Revoked ((f.setRevoked i entry true reason).journalRecord a
              .envelopeRevocation payload now.ns).2.storage payload :=
            journal_recorded (f := f.setRevoked i entry true reason) h.filed hdurable hok
          refine revokeAttempts_revoked ?_ hrecorded ..
          -- the entry that the index found carries the reference and the reason
          obtain ⟨hi, hlive, hid⟩ := h.sound.of_find hfind
          obtain ⟨hlt, -⟩ := List.getElem?_eq_some_iff.1 (EnvelopeTable.getElem?_of_find hfind).1
          have href : entry.envelope.ref = ref := by
            rw [not_not] at hgeneration
            exact congrArg₂ GenRef.mk hid hgeneration
          refine ⟨_, List.mem_of_getElem? (List.getElem?_set_self hlt), hlive, rfl, ?_⟩
          rw [href]
          exact revocation_payload hencode

end Fabric

/-- In every reachable state, for every answer of the files: a revocation that is refused with a
reason that fits its record leaves the table, the ledger and, unless the store refused the record,
the files; one that succeeds with a store in place finds the envelope marked already or leaves its
record in the files. -/
theorem revoke_kept_or_recorded {w : World} (h : w.Reachable) (a : Answers) (now : Instant)
    (ref : EnvelopeRef) (reason : Bytes) :
    ((w.shared.revoke a now ref reason).1.isOk = false → reason.length ≤ 492 →
      (w.shared.revoke a now ref reason).2.envelopes = w.shared.envelopes ∧
      (w.shared.revoke a now ref reason).2.attempts = w.shared.attempts ∧
      ((w.shared.revoke a now ref reason).2.storage = w.shared.storage ∨
        w.shared.RefusedByStore a now ref reason
          (w.shared.revoke a now ref reason).2.storage)) ∧
    ((w.shared.revoke a now ref reason).1.isOk = true →
      w.shared.storage.durable.isSome = true →
      w.shared.RevokedAlready ref ∨
        ∃ r ∈ (w.shared.revoke a now ref reason).2.storage.disk.records,
          r.type = .envelopeRevocation ∧
          (encodeRevocation ⟨512, [], none⟩ ref reason).finish = .ok r.payload) := by
  have hrevokes := Fabric.revoke_revokes h.kept a now ref reason
  generalize w.shared.revoke a now ref reason = result at hrevokes ⊢
  cases hrevokes with
  | refused refused =>
    refine ⟨fun _ _ => ⟨rfl, rfl, .inl rfl⟩, fun hok => ?_⟩
    rw [refused] at hok
    cases hok
  | unencoded long refused =>
    refine ⟨fun _ hshort => absurd long (Nat.not_lt.2 hshort), fun hok => ?_⟩
    rw [refused] at hok
    cases hok
  | unjournaled refused envelopes attempts store =>
    refine ⟨fun _ _ => ⟨envelopes, attempts, .inr store⟩, fun hok => ?_⟩
    rw [refused] at hok
    cases hok
  | again marked => exact ⟨nofun, fun _ _ => .inl marked⟩
  | recorded encoded recorded =>
    refine ⟨nofun, fun _ hdurable => ?_⟩
    obtain ⟨r, hr, htype, rfl⟩ := recorded hdurable
    exact .inr ⟨r, hr, htype, encoded⟩

namespace Scenario

/-- An envelope is derived by a coordinator that journals. -/
def derivedJournaled : World := coordinator.exec journalingStarted setup

/-- The envelope is fenced before it is revoked. -/
def fencedJournaled : World :=
  coordinator.exec journalingStarted (setup ++ calls 0 (.fenceBelow ⟨9⟩) 4)

/-- The files write a record and do not flush it. -/
def unflushed : Answers :=
  { answers with files := { append := fun _ => .flushFailed .record } }

theorem reachable_exec (schedule : List (Action Request Answers)) :
    World.Reachable (coordinator.exec journalingStarted schedule) := by
  have hstart : Step coordinator World.initial .restart journalingStarted :=
    .restart ⟨journaling, { answers with recoverNow := answers.now }, rfl⟩
  obtain ⟨n, hn⟩ := Program.run_exec (P := coordinator) journalingStarted schedule
  exact ⟨_, (Run.zero.succ trivial hstart).trans (hn.mono fun _ _ _ => trivial)⟩

end Scenario

open Scenario in
/-- A revocation the files refuse leaves everything, and one they take is recorded. -/
theorem revoke_kept_or_recorded_derived :
    (derivedJournaled.shared.revoke failing answers.now ⟨⟨1⟩, ⟨1⟩⟩ [111]).2.envelopes =
      derivedJournaled.shared.envelopes ∧
    ∃ r ∈ (derivedJournaled.shared.revoke answers answers.now
        ⟨⟨1⟩, ⟨1⟩⟩ [111]).2.storage.disk.records,
      r.type = .envelopeRevocation := by
  have hreach : derivedJournaled.Reachable := reachable_exec setup
  have hunrevoked : derivedJournaled.shared.envelopes.entries.all (fun e => !e.revoked) = true := by
    decide +kernel
  refine ⟨((revoke_kept_or_recorded hreach failing answers.now ⟨⟨1⟩, ⟨1⟩⟩ [111]).1
    (by decide +kernel) (by decide)).1, ?_⟩
  rcases (revoke_kept_or_recorded hreach answers answers.now ⟨⟨1⟩, ⟨1⟩⟩ [111]).2
    (by decide +kernel) (by decide +kernel) with ⟨i, entry, hfind, hrevoked⟩ | ⟨r, hr, htype, -⟩
  · have hmem := List.mem_of_getElem? (EnvelopeTable.getElem?_of_find hfind).1
    rw [List.all_eq_true] at hunrevoked
    simpa [hrevoked] using hunrevoked entry hmem
  · exact ⟨r, hr, htype⟩

open Scenario in
/-- An envelope that a fence has marked is revoked without a record, and a store that refuses a
record can keep it. -/
theorem revoked_unrecorded :
    (fencedJournaled.Reachable ∧
      fencedJournaled.shared.storage.durable.isSome = true ∧
      (fencedJournaled.shared.revoke answers answers.now ⟨⟨1⟩, ⟨1⟩⟩ []).1.isOk = true ∧
      ∀ r ∈ (fencedJournaled.shared.revoke answers answers.now
        ⟨⟨1⟩, ⟨1⟩⟩ []).2.storage.disk.records, r.type ≠ .envelopeRevocation) ∧
    derivedJournaled.Reachable ∧
      (∀ r ∈ derivedJournaled.shared.storage.disk.records, r.type ≠ .envelopeRevocation) ∧
      (derivedJournaled.shared.revoke unflushed answers.now ⟨⟨1⟩, ⟨1⟩⟩ []).1.isOk = false ∧
      ∃ r ∈ (derivedJournaled.shared.revoke unflushed answers.now
        ⟨⟨1⟩, ⟨1⟩⟩ []).2.storage.disk.records, r.type = .envelopeRevocation :=
  ⟨⟨reachable_exec _, by decide +kernel, by decide +kernel, by decide +kernel⟩,
    reachable_exec _, by decide +kernel, by decide +kernel, by decide +kernel⟩

end Pacing
