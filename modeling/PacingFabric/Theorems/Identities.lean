import PacingFabric.Theorems.Closed
import PacingFabric.Theorems.Refusals
import PacingFabric.Theorems.Restart
import PacingFabric.Theorems.RoundTrip

/-!
# Attempt identities

Minted and requested identities share one counter: it never falls below an identity in the
ledger, so the next one it mints is free. The largest 64-bit value is the exception. A caller
may request it, and the counter then wraps: it mints the invalid identity zero, and after it
identities that attempts already have.

## Main definitions

* `Fabric.Identified`: every identity in the ledger is valid and at most the counter.
* `mintsBelow`: no attempt is minted from a counter at the top of its range.

## Main results

* `Fabric.reserveFresh_minted`: below the top of the range, a minted identity is free.
* `attempts_identified`: the law over every run, and any number of restarts.
* `attempts_wrapped`: a run whose steps meet neither half of it.
-/

namespace Pacing

open Interleaving

/-! ### Codes of journaling -/

/-- No code that journaling answers says that something exists already. -/
def Anew (s : Status) : Prop := s.code ≠ .alreadyExists

namespace DurableStore

theorem append_anew (limits : Limits) (store : DurableStore) (disk : Disk)
    (record : DurableRecord) (outcome : AppendOutcome) :
    Anew (store.append limits disk record outcome).1 := by
  unfold append
  dsimp only
  repeat' split
  all_goals dsimp only
  all_goals simp [Anew, Status.of, Status.success]

theorem checkCompacted_anew (limits : Limits) (count : ℕ) (records : List DurableRecord) :
    Anew (checkCompacted limits count records) := by
  induction records generalizing count with
  | nil => simp [checkCompacted, Anew, Status.success]
  | cons r rest ih =>
    unfold checkCompacted
    repeat' split
    all_goals first
      | exact ih _
      | simp [Anew, Status.of]

theorem checkpoint_anew (limits : Limits) (store : DurableStore) (disk : Disk)
    (records : List DurableRecord) (outcome : CheckpointOutcome) :
    Anew (store.checkpoint limits disk records outcome).1 := by
  unfold checkpoint
  dsimp only
  split
  · exact checkCompacted_anew _ _ _
  · repeat' split
    all_goals simp [Anew, Status.of, Status.success]

end DurableStore

namespace Fabric

variable (f : Fabric) (a : Answers)

theorem journal_anew (type : DurableRecordType) (payload : Bytes) (timestampNs : UInt64) :
    Anew (f.journal a type payload timestampNs).1 := by
  have hready : Anew (f.maybeCheckpoint a).1 := by
    unfold maybeCheckpoint
    split
    · simp [Anew, Status.success]
    · split
      · simp [Anew, Status.success]
      · split
        · rename_i hs
          simp [Anew, compacted_error hs]
        · exact DurableStore.checkpoint_anew _ _ _ _ _
  unfold journal
  dsimp only
  split
  · exact hready
  · split
    · simp [Anew, Status.success]
    · exact DurableStore.append_anew _ _ _ _ _

theorem insertAttempt_anew {now : Instant} {record : ApplicationRecord} {request : ApplyRequest}
    {status : Status} (h : (f.insertAttempt a now record request).1 = .refused status) :
    Anew status := by
  unfold insertAttempt at h
  split at h
  · rename_i hencode
    cases h
    simp [Anew, (ByteWriter.Roomy.attempt (.fresh _) _).finish hencode]
  · dsimp only at h
    split at h
    · cases h
      exact f.journal_anew a _ _ _
    · cases h

end Fabric

/-! ### The ledger and its counter -/

theorem IdMinter.le_setFloor (m : IdMinter) (value : UInt64) :
    m.counter ≤ (m.setFloor value).counter := by
  unfold setFloor
  split
  · rename_i h
    exact UInt64.le_of_lt h
  · exact UInt64.le_refl _

theorem IdMinter.floor_le (m : IdMinter) (value : UInt64) :
    value ≤ (m.setFloor value).counter := by
  unfold setFloor
  split
  · exact UInt64.le_refl _
  · rename_i h
    exact UInt64.not_lt.1 h

/-- Every identity in the ledger is valid, and at most the counter while the coordinator
runs. -/
structure Fabric.Identified (f : Fabric) : Prop where
  wellFormed : f.attempts.WellFormed
  valid : ∀ id r, f.attempts.record id = some r → id.valid = true
  floor : f.running = true → ∀ id r, f.attempts.record id = some r →
    id.value ≤ f.attemptIds.counter

theorem Id.valid_iff {tag : Tag} {id : Id tag} : id.valid = true ↔ id.value ≠ 0 := by
  simp [Id.valid]

namespace Fabric

variable {f : Fabric} {a : Answers}

/-- The counter does not wrap on this request. -/
def Unwrapped (f : Fabric) (requested : AttemptId) : Prop :=
  requested.valid = false → f.attemptIds.counter ≠ Checked.u64Max

theorem minted_gt (h : f.attemptIds.counter ≠ Checked.u64Max) :
    f.attemptIds.counter < f.attemptIds.counter + 1 := UInt64.lt_add_one h

theorem attemptIdentity_valid {requested : AttemptId} (h : f.Unwrapped requested) :
    (f.attemptIdentity requested).1.valid = true := by
  unfold attemptIdentity
  cases hvalid : requested.valid with
  | true => simpa using hvalid
  | false =>
    have hgt := minted_gt (h hvalid)
    simp only [Bool.false_eq_true, if_false, Id.valid_iff, IdMinter.next]
    intro hzero
    rw [hzero] at hgt
    exact absurd hgt (UInt64.not_lt.2 (UInt64.zero_le))

theorem le_attemptIdentity {requested : AttemptId} (h : f.Unwrapped requested) :
    f.attemptIds.counter ≤ (f.attemptIdentity requested).2.counter := by
  unfold attemptIdentity
  cases hvalid : requested.valid with
  | true => exact UInt64.le_refl _
  | false => exact UInt64.le_of_lt (minted_gt (h hvalid))

/-- Below the top of the range, a minted identity is free. -/
theorem reserveFresh_minted (h : f.Identified) (hrunning : f.running = true)
    {requested : AttemptId} (hnone : requested.valid = false) (hfits : f.Unwrapped requested) :
    f.attempts.record (f.attemptIdentity requested).1 = none := by
  cases hr : f.attempts.record (f.attemptIdentity requested).1 with
  | none => rfl
  | some r =>
    have hle := h.floor hrunning _ r hr
    have hgt := minted_gt (hfits hnone)
    have hid : (f.attemptIdentity requested).1 = ⟨f.attemptIds.counter + 1⟩ := by
      simp [attemptIdentity, hnone, IdMinter.next]
    rw [hid] at hle
    exact absurd hgt (UInt64.not_lt.2 hle)

/-- A reservation adds its identity and raises the counter to it, or leaves the ledger. -/
theorem reserveFresh_identified (h : f.Identified) (now : Instant) (ref : EnvelopeRef)
    {requested : AttemptId} (hfits : f.Unwrapped requested) (envelope : PacingEnvelope)
    (backend : BackendPtr) :
    (f.reserveFresh a now ref requested envelope backend).2.Identified := by
  have hvalid := attemptIdentity_valid hfits
  have hle := le_attemptIdentity hfits
  unfold reserveFresh
  dsimp only
  generalize f.attemptIdentity requested = identity at hvalid hle ⊢
  obtain ⟨attempt, minter⟩ := identity
  -- where nothing is inserted, a counter that did not move down is enough
  have hkept : ∀ {m : IdMinter}, f.attemptIds.counter ≤ m.counter → ∀ storage,
      ({ f with attemptIds := m, storage := storage } : Fabric).Identified := fun hm _ =>
    ⟨h.wellFormed, h.valid, fun hrun id r hr => UInt64.le_trans (h.floor hrun id r hr) hm⟩
  have hraised : f.attemptIds.counter ≤ (minter.setFloor attempt.value).counter :=
    UInt64.le_trans hle (minter.le_setFloor _)
  split
  · exact hkept hle f.storage
  · rename_i hnone
    have hfresh : f.attempts.record attempt = none := by
      simpa [AttemptLedger.record] using hnone
    unfold insertAttempt
    split
    · exact hkept hraised f.storage
    · dsimp only
      split
      · exact hkept hraised _
      · have hwf := @reservedLedger_wellFormed _ a h.wellFormed now _ ref envelope
          backend hfresh
        have hrecord := @reservedLedger_record _ a h.wellFormed now _ ref envelope
          backend hfresh
        refine ⟨hwf, fun id r hr => ?_, fun hrun id r hr => ?_⟩
        all_goals
          change (reservedLedger f a now attempt ref envelope backend).record id = some r at hr
          rw [hrecord] at hr
          -- the new record is under the raised floor, the others were under the old one
          by_cases hid : id = attempt
          · subst hid
            first
              | exact hvalid
              | exact minter.floor_le _
          · rw [Function.update_of_ne hid] at hr
            first
              | exact h.valid id r hr
              | exact UInt64.le_trans (h.floor hrun id r hr) hraised

theorem Identified.evictAndCompact (h : f.Identified) : f.evictAndCompact.Identified := by
  have hatt := evictAndCompact_attempts h.wellFormed
  obtain ⟨_, heq⟩ := f.evictAndCompact_frame
  refine ⟨hatt ▸ h.wellFormed, fun id r hr => h.valid id r (hatt ▸ hr), fun hrun id r hr => ?_⟩
  rw [hatt] at hr
  rw [heq] at hrun ⊢
  exact h.floor hrun id r hr

theorem Identified.reserveAttempt (h : f.Identified) (now : Instant) (ref : EnvelopeRef)
    (backendId : BackendId) {requested : AttemptId} (hfits : f.Unwrapped requested)
    (envelope : PacingEnvelope) (backend : BackendPtr) :
    (f.reserveAttempt a now ref backendId requested envelope backend).2.Identified := by
  have hevict := h.evictAndCompact
  have hunwrapped : f.evictAndCompact.Unwrapped requested := by
    obtain ⟨_, heq⟩ := f.evictAndCompact_frame
    rw [Unwrapped, heq]
    exact hfits
  unfold Fabric.reserveAttempt
  repeat' split
  all_goals dsimp only
  all_goals repeat' split
  all_goals first
    | exact h
    | exact hevict
    | exact reserveFresh_identified hevict now ref hunwrapped envelope backend

/-- Phase C never refuses a request without an identity because the identity exists. -/
theorem reserveAttempt_anew (h : f.Identified) {now : Instant} {ref : EnvelopeRef}
    {backendId : BackendId} {requested : AttemptId} (hnone : requested.valid = false)
    (hfits : f.Unwrapped requested) {envelope : PacingEnvelope} {backend : BackendPtr}
    {status : Status}
    (hrefused : (f.reserveAttempt a now ref backendId requested envelope backend).1 =
      .refused status) : status.code ≠ .alreadyExists := by
  unfold Fabric.reserveAttempt at hrefused
  split at hrefused
  · cases hrefused
    simp [notRunning, Status.of]
  rename_i hrunning
  cases henv : f.envelopes.find ref.id with
  | none =>
    rw [henv] at hrefused
    cases hrefused
    simp [Status.of]
  | some slot =>
    rw [henv] at hrefused
    dsimp only at hrefused
    split at hrefused
    · cases hrefused
      simp [Status.of]
    -- without an identity, a duplicate is found by its envelope and is not refused
    have hdup : ∀ reservation, f.findDuplicate ref backendId requested = some reservation →
        reservation ≠ .refused status := by
      intro reservation hfound
      unfold findDuplicate at hfound
      rw [hnone] at hfound
      split at hfound
      · cases hfound
        simp
      · simp at hfound
    cases hfound : f.findDuplicate ref backendId requested with
    | some reservation =>
      rw [hfound] at hrefused
      exact absurd hrefused (hdup _ hfound)
    | none =>
      rw [hfound] at hrefused
      dsimp only at hrefused
      split at hrefused
      · cases hrefused
        simp [Status.of]
      split at hrefused
      · cases hrefused
        simp [Status.of]
      -- the minted identity is above every one in the ledger
      obtain ⟨_, heq⟩ := f.evictAndCompact_frame
      have hfree := reserveFresh_minted h.evictAndCompact (by rw [heq]; simpa using hrunning) hnone
        (show f.evictAndCompact.Unwrapped requested by rw [Unwrapped, heq]; exact hfits)
      unfold reserveFresh at hrefused
      dsimp only at hrefused
      rw [if_neg (by simpa [AttemptLedger.record] using hfree)] at hrefused
      exact insertAttempt_anew _ a hrefused

/-! ### Steps and starts -/

theorem Identified.step (h : f.Identified) (a : Answers) (k : Call)
    (hfits : ∀ p, k = .reserve p → f.Unwrapped p.requested) :
    (Call.step f a k).1.Identified := by
  have hframe := Call.step_frame f a k
  obtain ⟨hwf, hmoves⟩ := Call.step_moves h.wellFormed a k
  by_cases hk : k.mintsAttempt = true
  · obtain ⟨p, rfl⟩ : ∃ p, k = .reserve p := by
      unfold Call.mintsAttempt at hk
      split at hk
      · exact ⟨_, rfl⟩
      · cases hk
    rw [Call.step_reserve_fst]
    exact h.reserveAttempt p.now p.ref p.backendId (hfits p rfl) p.envelope p.backend
  · -- no other step adds a record
    have hold : ∀ id r, (Call.step f a k).1.attempts.record id = some r →
        ∃ r₀, f.attempts.record id = some r₀ := by
      intro id r hr
      have hmove := hmoves id
      rw [hr] at hmove
      cases hr₀ : f.attempts.record id with
      | some r₀ => exact ⟨r₀, rfl⟩
      | none =>
        rw [hr₀] at hmove
        generalize (Call.step f a k).2 = k' at hmove
        cases hmove
        exact absurd rfl hk
    refine ⟨hwf, fun id r hr => ?_, fun hrun id r hr => ?_⟩
    · obtain ⟨r₀, hr₀⟩ := hold id r hr
      exact h.valid id r₀ hr₀
    · obtain ⟨r₀, hr₀⟩ := hold id r hr
      rw [hframe.attemptIds (by simpa using hk)]
      exact h.floor (hframe.running hrun) id r₀ hr₀

end Fabric

/-- The floor of a record turn is the one of the attempt it holds. -/
theorem Replay.record_maxAttemptId (s : Replay) (nonce : UInt64) (record : DurableRecord) :
    (Replay.record nonce s record).maxAttemptId =
      match Replay.attemptOf s.fabric.config.limits record with
      | none => s.maxAttemptId
      | some r => (s.attempt r).maxAttemptId := by
  unfold Replay.record Replay.attemptOf
  cases record.type with
  | attempt =>
    dsimp only
    rw [if_pos rfl]
    generalize decodePayload (decodeAttempt s.fabric.config.limits) record.payload = decoded
    cases decoded with
    | none => rfl
    | some r =>
      unfold Replay.attempt
      dsimp only
      split <;> rfl
  | envelope =>
    simp only [Replay.envelope, reduceCtorEq, if_false]
    repeat' split
    all_goals rfl
  | envelopeRevocation =>
    simp only [Replay.revocation, reduceCtorEq, if_false]
    repeat' split
    all_goals rfl
  | _ =>
    simp only [reduceCtorEq, if_false]
    repeat' split
    all_goals rfl

namespace Fabric

variable {f : Fabric} (a : Answers)

/-- Replay meets valid identities only, and remembers the highest. -/
theorem replay_identified (hatt : f.attempts = {}) (records : List DurableRecord) :
    (f.replay a records).fabric.attempts.WellFormed ∧
      ∀ id r, (f.replay a records).fabric.attempts.record id = some r →
        id.valid = true ∧ id.value ≤ (f.replay a records).maxAttemptId := by
  refine List.foldlRecOn records (Replay.record (nonZeroNonce (a.nonce 1)))
    (motive := fun s : Replay => s.fabric.attempts.WellFormed ∧
      ∀ id r, s.fabric.attempts.record id = some r → id.valid = true ∧
        id.value ≤ s.maxAttemptId) ?_ ?_
  · rw [show ({ fabric := f } : Replay).fabric.attempts = {} from hatt]
    exact ⟨AttemptLedger.wellFormed_empty, fun id r hr => by
      simp [AttemptLedger.record, AttemptLedger.find] at hr⟩
  rintro s ⟨hwf, hids⟩ record -
  have hfloor := Replay.record_maxAttemptId s (nonZeroNonce (a.nonce 1)) record
  rcases Replay.record_keeps s (nonZeroNonce (a.nonce 1)) record with
    ⟨hnone, hk⟩ | ⟨r, hsome, hk⟩
  · rw [hnone] at hfloor
    rw [hk.attempts, hfloor]
    exact ⟨hwf, hids⟩
  · rw [hsome] at hfloor
    have hvalid : r.attempt.valid = true := by
      unfold Replay.attemptOf at hsome
      split at hsome
      · exact ((ensures_attempt _).of_decodePayload hsome).id
      · cases hsome
    rw [hk.attempts, hfloor]
    refine ⟨Replay.attempt_wellFormed hwf r, fun id x hx => ?_⟩
    rw [Replay.attempt_record hwf] at hx
    -- a record that replaces another has its identity, which the floor covers already
    have hmono : ∀ v, v ≤ s.maxAttemptId ∨ v = r.attempt.value →
        v ≤ (s.attempt r).maxAttemptId := by
      intro v hv
      unfold Replay.attempt
      dsimp only
      split
      · rename_i i e hf
        rcases hv with hv | rfl
        · exact hv
        · exact (hids r.attempt e.record (by simp [AttemptLedger.record, hf])).2
      · change v ≤ (if s.maxAttemptId ≤ r.attempt.value then r.attempt.value else _)
        split
        · rename_i hle
          rcases hv with hv | rfl
          · exact UInt64.le_trans hv hle
          · exact UInt64.le_refl _
        · rename_i hnle
          rcases hv with hv | rfl
          · exact hv
          · exact UInt64.le_of_lt (UInt64.not_le.1 hnle)
    by_cases hid : id = r.attempt
    · subst hid
      exact ⟨hvalid, hmono _ (.inr rfl)⟩
    · rw [Function.update_of_ne hid] at hx
      exact ⟨(hids id x hx).1, hmono _ (.inl (hids id x hx).2)⟩

theorem recover_identified (hatt : f.attempts = {}) (records : List DurableRecord) :
    (f.recover a records).2.attempts.WellFormed ∧
      (∀ id r, (f.recover a records).2.attempts.record id = some r → id.valid = true) ∧
      ((f.recover a records).1.isOk = true →
        ∀ id r, (f.recover a records).2.attempts.record id = some r →
          id.value ≤ (f.recover a records).2.attemptIds.counter) := by
  obtain ⟨hwf, hids⟩ := replay_identified (f := f.beginRecovery a records) a hatt records
  have hrecovers := recover_recovers a f records
  generalize f.recover a records = result at hrecovers ⊢
  generalize (f.beginRecovery a records).replay a records = replay at hwf hids hrecovers
  cases hrecovers with
  | exhausted named =>
    exact ⟨hwf, fun id r hr => (hids id r hr).1, fun hok => by
      rcases named with rfl | rfl <;> cases hok⟩
  | settled =>
    generalize hgo : ({ replay.fabric.countRestored with
      epoch := _, boot := _, recovery := _ } : Fabric) = go
    have hatts : go.attempts = replay.fabric.attempts := by rw [← hgo]; rfl
    obtain ⟨hwf', hrecord, -⟩ := settle_ledger a (f := go) (hatts ▸ hwf) replay
    -- settling rewrites records under the identities they have
    have hheld : ∀ id r, (go.settle a replay).attempts.record id = some r →
        id.valid = true ∧ id.value ≤ replay.maxAttemptId := by
      intro id r hr
      rw [hrecord, hatts, Option.map_eq_some_iff] at hr
      obtain ⟨r₀, hr₀, -⟩ := hr
      exact hids id r₀ hr₀
    refine ⟨hwf', fun id r hr => (hheld id r hr).1, fun _ id r hr => ?_⟩
    exact UInt64.le_trans (hheld id r hr).2 (IdMinter.floor_le _ _)

theorem initializeFabric_identified (config : FabricConfig) (disk : Disk) :
    ((construct config disk).initializeFabric a).2.Identified := by
  rcases initializeFabric_cases a config disk with ⟨_, _, _, _, _, _, _, heq, -⟩ |
    ⟨store, disk', _, _, running, -, hok, heq⟩
  · rw [heq]
    refine ⟨AttemptLedger.wellFormed_empty, fun id r hr => ?_, fun _ id r hr => ?_⟩
    all_goals simp [construct, AttemptLedger.record, AttemptLedger.find] at hr
  · obtain ⟨hwf, hvalid, hfloor⟩ := recover_identified (f := opened a config disk' store) a rfl
      store.recovered
    rw [heq]
    exact ⟨hwf, hvalid, fun hrun => hfloor (hok hrun)⟩

end Fabric

/-! ### Runs -/

/-- An attempt whose identity is minted finds the counter below the top of its range. -/
def mintsBelow (w : World) : Event Call Request Answers → Prop
  | .move _ (.reserve p) _ =>
    p.requested.valid = false → w.shared.attemptIds.counter ≠ Checked.u64Max
  | _ => True

theorem identified_of_run {w : World} {n : ℕ}
    (hrun : Run coordinator mintsBelow World.initial n w) : w.shared.Identified := by
  refine hrun.invariant (I := fun w : World => w.shared.Identified) ?_ ?_
  · refine ⟨AttemptLedger.wellFormed_empty, fun id r hr => ?_, fun _ id r hr => ?_⟩
    all_goals
      simp [World.initial, Config.idle, Fabric.construct, AttemptLedger.record,
        AttemptLedger.find] at hr
  · intro c e c' hc hok hs
    cases hs with
    | start _ => exact hc
    | @move i k a here =>
      refine hc.step a k fun p hp => ?_
      subst hp
      exact hok
    | restart h =>
      obtain ⟨config, a, rfl⟩ := h
      exact Fabric.initializeFabric_identified a config _

/-- Over every run and any number of restarts, while no attempt is minted from a counter at
the top of its range: every attempt has a valid identity, and a call that requests none
mints one that no attempt has, and is not refused because it exists. -/
theorem attempts_identified {w : World} {n : ℕ}
    (hrun : Run coordinator mintsBelow World.initial n w) :
    (∀ e ∈ w.shared.attempts.entries, e.record.attempt.valid = true) ∧
      ∀ i p, w.calls i = some (.reserve p) → p.requested.valid = false →
        w.shared.attemptIds.counter ≠ Checked.u64Max →
        (w.shared.running = true →
          w.shared.attempts.record (w.shared.attemptIdentity p.requested).1 = none) ∧
        ∀ a status, (w.shared.reserveAttempt a p.now p.ref p.backendId p.requested p.envelope
          p.backend).1 = .refused status → status.code ≠ .alreadyExists := by
  have hids := identified_of_run hrun
  refine ⟨fun e he => ?_, fun i p _ hnone hbelow => ⟨fun hrunning => ?_, fun a status h => ?_⟩⟩
  · obtain ⟨j, hj⟩ := List.getElem?_of_mem he
    exact hids.valid _ _ (hids.wellFormed.record_of_getElem? hj)
  · exact Fabric.reserveFresh_minted hids hrunning hnone fun _ => hbelow
  · exact Fabric.reserveAttempt_anew hids hnone (fun _ => hbelow) h

namespace Scenario

/-- A step that `mintsBelow` admits, as a test. -/
def mintingBelow (w : World) : Event Call Request Answers → Bool
  | .move _ (.reserve p) _ =>
    p.requested.valid || w.shared.attemptIds.counter != Checked.u64Max
  | _ => true

theorem mintsBelow_of_mintingBelow (w : World) (e : Event Call Request Answers)
    (h : mintingBelow w e = true) : mintsBelow w e := by
  cases e with
  | move i k a =>
    cases k with
    | reserve p =>
      intro hnone
      simpa [mintingBelow, hnone] using h
    | _ => trivial
  | _ => trivial

/-- Thread `thread` applies the `n`-th envelope as far as its reservation. -/
def reserving (thread : ℕ) (n : UInt64) (requested : AttemptId) :
    List (Action Request Answers) :=
  calls thread (.applyEnvelope ⟨⟨n⟩, ⟨1⟩⟩ ⟨1⟩ requested) 9

/-- The same, and its attempt is reserved. -/
def reserved (thread : ℕ) (n : UInt64) (requested : AttemptId) : List (Action Request Answers) :=
  reserving thread n requested ++ [.move thread answers]

/-- One attempt is minted, another asks for the largest identity, and a third is minted after
it; a fourth is about to be. -/
def wrapping : List (Action Request Answers) :=
  setup ++ reserved 1 1 {} ++ calls 0 (.deriveEnvelope ⟨1⟩) 11 ++ reserved 2 2 ⟨Checked.u64Max⟩ ++
    calls 0 (.deriveEnvelope ⟨1⟩) 11 ++ reserved 3 3 {} ++
    calls 0 (.deriveEnvelope ⟨1⟩) 11 ++ reserving 4 4 {}

/-- The pending reservation of a thread is refused because its identity exists. -/
def refusedAsExisting (w : World) (thread : ℕ) : Bool :=
  match w.calls thread with
  | some (.reserve p) =>
    !p.requested.valid &&
      match (w.shared.reserveAttempt answers p.now p.ref p.backendId p.requested p.envelope
        p.backend).1 with
      | .refused status => status.code == .alreadyExists
      | _ => false
  | _ => false

theorem of_refusedAsExisting {w : World} {thread : ℕ}
    (h : refusedAsExisting w thread = true) :
    ∃ p status, w.calls thread = some (.reserve p) ∧ p.requested.valid = false ∧
      (w.shared.reserveAttempt answers p.now p.ref p.backendId p.requested p.envelope
        p.backend).1 = .refused status ∧ status.code = .alreadyExists := by
  unfold refusedAsExisting at h
  split at h
  · rename_i p hp
    rw [Bool.and_eq_true] at h
    obtain ⟨hnone, hcode⟩ := h
    split at hcode
    · rename_i status hrefused
      exact ⟨p, status, hp, by simpa using hnone, hrefused, by simpa using hcode⟩
    · cases hcode
  · cases h

/-- A run from the initial world through the first start of a coordinator. -/
theorem run_started {ok : World → Event Call Request Answers → Prop}
    (hrestart : ok World.initial .restart) {w : World} {n : ℕ}
    (h : Run coordinator ok started n w) : ∃ m, Run coordinator ok World.initial m w := by
  have hfirst : Step coordinator World.initial .restart started :=
    .restart ⟨config, answers, rfl⟩
  exact ⟨_, (Run.succ .zero hrestart hfirst).trans h⟩

end Scenario

/-- A second envelope is about to be applied. -/
theorem attempts_identified_pending :
    let w := coordinator.exec Scenario.started (Scenario.setup ++ Scenario.reserving 1 1 {})
    (∀ e ∈ w.shared.attempts.entries, e.record.attempt.valid = true) ∧
      ∀ i p, w.calls i = some (.reserve p) → p.requested.valid = false →
        w.shared.attemptIds.counter ≠ Checked.u64Max →
        (w.shared.running = true →
          w.shared.attempts.record (w.shared.attemptIdentity p.requested).1 = none) ∧
        ∀ a status, (w.shared.reserveAttempt a p.now p.ref p.backendId p.requested p.envelope
          p.backend).1 = .refused status → status.code ≠ .alreadyExists := by
  obtain ⟨n, hn⟩ := Program.run_of_allows (P := coordinator)
    Scenario.mintsBelow_of_mintingBelow (Scenario.setup ++ Scenario.reserving 1 1 {})
    (c := Scenario.started) (by decide +kernel)
  obtain ⟨m, hm⟩ := @Scenario.run_started mintsBelow trivial _ _ hn
  exact attempts_identified hm

/-- After the largest identity, an attempt gets the invalid one, and a call that requests
none is refused because the identity it mints exists. -/
theorem attempts_wrapped :
    ∃ n w, Run coordinator anyStep World.initial n w ∧
      (∃ e ∈ w.shared.attempts.entries, e.record.attempt.valid = false) ∧
      ∃ i p a status, w.calls i = some (.reserve p) ∧ p.requested.valid = false ∧
        (w.shared.reserveAttempt a p.now p.ref p.backendId p.requested p.envelope p.backend).1 =
          .refused status ∧ status.code = .alreadyExists := by
  obtain ⟨n, hn⟩ := coordinator.run_exec Scenario.started Scenario.wrapping
  obtain ⟨m, hm⟩ := @Scenario.run_started anyStep trivial _ _
    (hn.mono fun _ _ _ => trivial)
  have htest : ((coordinator.exec Scenario.started Scenario.wrapping).shared.attempts.entries.any
      (fun e => !e.record.attempt.valid) &&
      Scenario.refusedAsExisting (coordinator.exec Scenario.started Scenario.wrapping) 4) =
        true := by decide +kernel
  obtain ⟨hinvalid, hexists⟩ := Bool.and_eq_true_iff.1 htest
  refine ⟨m, _, hm, ?_, ?_⟩
  · simpa using hinvalid
  · obtain ⟨p, status, hp, hnone, hrefused, hcode⟩ := Scenario.of_refusedAsExisting hexists
    exact ⟨4, p, Scenario.answers, status, hp, hnone, hrefused, hcode⟩

end Pacing
