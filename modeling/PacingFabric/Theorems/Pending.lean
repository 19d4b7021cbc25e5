import PacingFabric.Theorems.Duplicates
import PacingFabric.Theorems.Identities
import PacingFabric.Theorems.Readback

/-!
# The pending counter

`apply_transition` and the reservation move the counter by one where an attempt leaves or
enters the states that are not terminal, and recovery counts again. A start that finds the
epoch or the boot counter it replayed exhausted returns before it counts.

## Main definitions

* `AttemptLedger.inFlight`: the number of live attempts in a state that is not terminal.
* `AttemptLedger.Writes`: replacing records one after another, none of which leaves the
  terminal states.
* `Fabric.ReportsExhausted`: the last start failed on an exhausted counter.

## Main results

* `pending_counted`: in every reachable state the counter is within the configured bound, and
  it is the number of attempts in flight unless such a start failed.
* `pending_uncounted`: a reachable start over a directory whose epoch is exhausted.
-/

namespace Pacing

open Interleaving

/-! ### Counting -/

namespace AttemptLedger

/-- A live attempt in a state that is not terminal. -/
def isPending (e : AttemptEntry) : Bool := e.live && !e.record.state.isTerminal

/-- The number of live attempts in a state that is not terminal. -/
def inFlight (l : AttemptLedger) : ℕ := l.entries.countP isPending

/-- Replacing the record of a live slot, which does not leave the terminal states. -/
inductive Write : AttemptLedger → AttemptLedger → Prop
  | write {l : AttemptLedger} {i : ℕ} {e : AttemptEntry} {r : ApplicationRecord}
      (found : l.entries[i]? = some e) (live : e.live = true)
      (ends : e.record.state.isTerminal = true → r.state.isTerminal = true) :
      Write l (l.write i e r)

/-- Replacing records one after another. -/
abbrev Writes : AttemptLedger → AttemptLedger → Prop := Relation.ReflTransGen Write

variable {l l' : AttemptLedger} {i : ℕ} {e : AttemptEntry} {r : ApplicationRecord}

theorem live_of_find {id : AttemptId} (h : l.find id = some (i, e)) :
    l.entries[i]? = some e ∧ e.live = true := by
  unfold find at h
  split at h
  · cases h
  · split at h
    · cases h
    · rename_i x hx
      split at h
      · obtain ⟨rfl, rfl⟩ := Prod.mk.inj (Option.some.inj h)
        exact ⟨hx, by assumption⟩
      · cases h

theorem inFlight_overwrite (h : l.entries[i]? = some e) :
    (l.overwrite i e r).inFlight + (isPending e).toNat =
      l.inFlight + (isPending { e with record := r }).toNat := by
  obtain ⟨hlt, rfl⟩ := List.getElem?_eq_some_iff.1 h
  unfold inFlight overwrite
  rw [List.countP_set hlt]
  cases hold : isPending l.entries[i]
  · cases isPending { l.entries[i] with record := r } <;> simp
  · have hpos : 0 < l.entries.countP isPending :=
      List.countP_pos_iff.2 ⟨_, List.getElem_mem hlt, hold⟩
    cases isPending { l.entries[i] with record := r } <;> simp <;> omega

theorem pendingAfter_le {pending : UInt32} {before after : ApplicationState}
    (hends : before.isTerminal = true → after.isTerminal = true) :
    pendingAfter pending before after ≤ pending := by
  unfold pendingAfter
  cases hterm : before.isTerminal with
  | true => simp [hends hterm]
  | false =>
    cases after.isTerminal with
    | false => simp
    | true =>
      simp only [Bool.not_false, Bool.and_self, if_true]
      split
      · rename_i hpos
        have hone : (1 : UInt32) ≤ pending := by
          rw [UInt32.le_iff_toNat_le]
          exact UInt32.lt_iff_toNat_lt.1 hpos
        rw [UInt32.le_iff_toNat_le, UInt32.toNat_sub_of_le _ _ hone]
        exact Nat.sub_le ..
      · exact UInt32.le_refl _

/-- A write never raises the counter. -/
theorem Write.pending_le (h : Write l l') : l'.pending ≤ l.pending := by
  cases h with
  | write _ _ ends => exact pendingAfter_le ends

/-- A write moves the counter along with the number of attempts in flight. -/
theorem Write.counted (h : Write l l') (hcount : l.pending.toNat = l.inFlight) :
    l'.pending.toNat = l'.inFlight := by
  cases h with
  | @write i e r found live ends =>
    have hmove := inFlight_overwrite (r := r) found
    have hbefore : isPending e = !e.record.state.isTerminal := by simp [isPending, live]
    have hafter : isPending { e with record := r } = !r.state.isTerminal := by
      simp [isPending, live]
    rw [hbefore, hafter] at hmove
    change (pendingAfter l.pending e.record.state r.state).toNat = (l.overwrite i e r).inFlight
    unfold pendingAfter
    cases hterm : e.record.state.isTerminal with
    | true =>
      rw [hterm, ends hterm] at hmove
      simp only [ends hterm, Bool.not_true, Bool.false_and, Bool.and_false, Bool.false_eq_true,
        if_false]
      omega
    | false =>
      cases hends : r.state.isTerminal with
      | false =>
        rw [hterm, hends] at hmove
        simp only [Bool.not_false, Bool.and_false, Bool.false_and, Bool.false_eq_true, if_false]
        omega
      | true =>
        -- an attempt leaves the states in flight, so the counter is not zero
        rw [hterm, hends] at hmove
        have hmove : (l.overwrite i e r).inFlight + 1 = l.inFlight := hmove
        have hone : (1 : UInt32) ≤ l.pending := by
          rw [UInt32.le_iff_toNat_le, hcount]
          change 1 ≤ l.inFlight
          omega
        have hpos : l.pending > 0 := UInt32.lt_of_lt_of_le (by decide) hone
        simp only [Bool.not_false, Bool.and_self, if_true, hpos, UInt32.toNat_sub_of_le _ _ hone,
          hcount]
        change l.inFlight - 1 = _
        omega

theorem Writes.pending_le (h : Writes l l') : l'.pending ≤ l.pending := by
  induction h with
  | refl => exact UInt32.le_refl _
  | tail _ hwrite ih => exact UInt32.le_trans hwrite.pending_le ih

theorem Writes.counted (h : Writes l l') (hcount : l.pending.toNat = l.inFlight) :
    l'.pending.toNat = l'.inFlight := by
  induction h with
  | refl => exact hcount
  | tail _ hwrite ih => exact hwrite.counted ih

theorem inFlight_insert : (l.insert r).inFlight = l.inFlight + (!r.state.isTerminal).toNat := by
  unfold inFlight insert
  rw [List.countP_append, List.countP_singleton]
  cases hterm : r.state.isTerminal <;> simp [isPending, hterm]

end AttemptLedger

/-! ### What a step writes -/

section
variable {f : Fabric} {a : Answers}

open AttemptLedger (Writes)

theorem writes_commit {id : AttemptId} {i : ℕ} {e : AttemptEntry} {r : ApplicationRecord}
    {now : Instant} (h : f.attempts.find id = some (i, e))
    (hends : e.record.state.isTerminal = true → r.state.isTerminal = true) :
    Writes f.attempts (f.commitRecord a i e r now).attempts := by
  obtain ⟨found, live⟩ := AttemptLedger.live_of_find h
  exact .single (.write found live hends)

theorem writes_transition {id : AttemptId} {i : ℕ} {e : AttemptEntry} {next : ApplicationState}
    {reason : ErrorCode} {detail : Bytes} {now at_ : Instant}
    (h : f.attempts.find id = some (i, e)) (hends : next.isTerminal = true) :
    Writes f.attempts
      (f.commitRecord a i e (e.record.transition next at_ reason detail) now).attempts :=
  writes_commit h fun _ => hends

theorem writes_acknowledge (i : Installing) (status : Status) (ack : ApplyAck) :
    Writes f.attempts (Call.step f a (.acknowledge i status ack)).1.attempts := by
  rw [Call.step_acknowledge_fst]
  unfold Fabric.acknowledgeAttempt
  cases hf : f.attempts.find i.request.attempt with
  | none => exact .refl
  | some slot =>
    dsimp only
    split
    · exact .refl
    rename_i hs
    have hs : slot.2.record.state = .submitted := not_not.1 hs
    split
    · dsimp only
      exact writes_transition hf rfl
    split
    · dsimp only
      exact writes_transition hf rfl
    split
    · dsimp only
      exact writes_transition hf rfl
    split
    · dsimp only
      exact writes_transition hf rfl
    · dsimp only
      refine writes_commit hf fun hterm => ?_
      rw [hs] at hterm
      cases hterm

theorem writes_commitUnverified (i : Installing) (current : StatusOr AuthorityInputs) :
    Writes f.attempts (Call.step f a (.commitUnverified i current)).1.attempts := by
  simp only [Call.step, Fabric.commitUnverified]
  cases hf : f.attempts.find i.request.attempt with
  | none => exact .refl
  | some slot =>
    dsimp only
    split
    · exact .refl
    · split
      · dsimp only
        exact writes_transition hf rfl
      · dsimp only
        exact writes_commit hf fun _ => rfl

theorem ApplicationRecord.finalizeEvidence_isTerminal (r : ApplicationRecord) (cadence : Cadence)
    (evidence : ReadbackEvidence) (readbackOk : Bool) (code : ErrorCode) (now : Instant) :
    (r.finalizeEvidence cadence evidence readbackOk code now).state.isTerminal = true := by
  rw [r.finalizeEvidence_state]
  split_ifs <;> rfl

theorem writes_commitVerified (i : Installing) (status : Status) (evidence : ReadbackEvidence)
    (current : StatusOr AuthorityInputs) :
    Writes f.attempts (Call.step f a (.commitVerified i status evidence current)).1.attempts := by
  simp only [Call.step, Fabric.commitVerified]
  cases hf : f.attempts.find i.request.attempt with
  | none => exact .refl
  | some slot =>
    dsimp only
    split
    · exact .refl
    split
    · dsimp only
      exact writes_transition hf rfl
    split
    · dsimp only
      exact writes_transition hf rfl
    · dsimp only
      exact writes_commit hf fun _ => slot.2.record.finalizeEvidence_isTerminal ..

theorem writes_staleCheck (c : Check) (drift : AuthorityDrift) :
    Writes f.attempts (Call.step f a (.staleCheck c drift)).1.attempts := by
  simp only [Call.step, Fabric.staleVerify, Fabric.staleRevalidate]
  cases c.kind with
  | verify =>
    cases hf : f.attempts.find c.id with
    | none => exact .refl
    | some slot =>
      dsimp only
      exact writes_transition hf rfl
  | revalidate =>
    cases hf : f.attempts.find c.id with
    | none => exact .refl
    | some slot =>
      dsimp only
      exact writes_commit hf fun _ => rfl

theorem writes_noEvidence (c : Check) :
    Writes f.attempts (Call.step f a (.noEvidence c)).1.attempts := by
  simp only [Call.step, Fabric.noEvidence]
  cases hf : f.attempts.find c.id with
  | none => exact .refl
  | some slot =>
    dsimp only
    split
    · exact writes_transition hf rfl
    · exact writes_commit hf id

theorem writes_finalizeCheck (c : Check) (status : Status) (evidence : ReadbackEvidence)
    (current : AuthorityInputs) :
    Writes f.attempts (Call.step f a (.finalizeCheck c status evidence current)).1.attempts := by
  simp only [Call.step, Fabric.finalizeVerify, Fabric.finalizeRevalidate]
  cases c.kind with
  | verify =>
    dsimp only
    cases hf : f.attempts.find c.id with
    | none => exact .refl
    | some slot =>
      dsimp only
      exact writes_commit hf fun _ => slot.2.record.finalizeEvidence_isTerminal ..
  | revalidate =>
    dsimp only
    cases hf : f.attempts.find c.id with
    | none => exact .refl
    | some slot =>
      dsimp only
      exact writes_commit hf fun _ => slot.2.record.finalizeEvidence_isTerminal ..

theorem writes_cancelAttempt (id : AttemptId) (reason : Bytes) (now : Instant) :
    Writes f.attempts (Call.step f a (.locked (.cancelAttempt id reason) now)).1.attempts := by
  simp only [Call.step, Call.lockedStep]
  split
  · exact .refl
  unfold Fabric.cancelAttempt
  split
  · exact .refl
  cases hf : f.attempts.find id with
  | none => exact .refl
  | some slot =>
    dsimp only
    split
    · exact .refl
    · dsimp only
      refine writes_commit hf fun _ => ?_
      unfold Fabric.cancelledRecord
      split <;> rfl

/-- The loop of `revoke_envelope`. -/
theorem writes_revokeAttempts (now : Instant) (envelope : EnvelopeId) (cadence : Cadence)
    (reason : Bytes) :
    Writes f.attempts (f.revokeAttempts a now envelope cadence reason).2.attempts := by
  refine List.foldlRecOn (f.attempts.byEnvelope envelope.value)
    (Fabric.revokeAttempt a now cadence reason)
    (motive := fun acc : List Withdrawal × Fabric => Writes f.attempts acc.2.attempts) .refl ?_
  rintro ⟨todo, g⟩ hg id -
  unfold Fabric.revokeAttempt
  dsimp only at hg ⊢
  cases hf : g.attempts.find id with
  | none => exact hg
  | some slot =>
    dsimp only
    split
    · exact hg
    · dsimp only
      exact hg.trans (writes_transition hf rfl)

/-- The attempt loop of both fences. -/
theorem writes_fenceAttempts (now : Instant) (epoch : Epoch) (detail : Bytes) :
    Writes f.attempts (f.fenceAttempts a now epoch detail).attempts := by
  refine List.foldlRecOn (List.range f.attempts.entries.length)
    (Fabric.fenceAttempt a now epoch detail)
    (motive := fun g => Writes f.attempts g.attempts) .refl ?_
  intro g hg i _
  unfold Fabric.fenceAttempt
  cases he : g.attempts.entries[i]? with
  | none => exact hg
  | some e =>
    dsimp only
    split
    · rename_i hfences
      unfold Fabric.fences at hfences
      rw [Bool.and_eq_true, Bool.and_eq_true] at hfences
      exact hg.tail (.write he hfences.1.1 fun _ => rfl)
    · exact hg

theorem writes_revokeEnvelope (ref : EnvelopeRef) (reason : Bytes) (now : Instant) :
    Writes f.attempts (Call.step f a (.locked (.revokeEnvelope ref reason) now)).1.attempts := by
  simp only [Call.step, Call.lockedStep]
  split
  · exact .refl
  split
  · exact .refl
  unfold Fabric.revokeEnvelope
  split
  · exact .refl
  split
  · exact .refl
  · rename_i i entry _
    split
    · exact .refl
    split
    · exact writes_revokeAttempts ..
    · dsimp only
      split
      · exact .refl
      · split
        · exact .refl
        · rename_i payload _ _
          exact writes_revokeAttempts (f := ((f.setRevoked i entry true reason).journalRecord a
            .envelopeRevocation payload now.ns).2) ..

theorem writes_fenceBelow (epoch : Epoch) (now : Instant) :
    Writes f.attempts (Call.step f a (.locked (.fenceBelow epoch) now)).1.attempts := by
  simp only [Call.step, Call.lockedStep]
  split
  · exact .refl
  unfold Fabric.fenceBelow
  split
  · exact .refl
  · exact writes_fenceAttempts (f := f.fenceEnvelopes epoch "fenced by coordinator epoch") ..

theorem writes_advanceEpoch (now : Instant) :
    Writes f.attempts (Call.step f a (.locked .advanceEpoch now)).1.attempts := by
  rw [show (Call.step f a (.locked .advanceEpoch now)).1 = (f.advanceEpoch a now).2 from
    Call.lockedStep_fst f a now .advanceEpoch]
  unfold Fabric.advanceEpoch
  split
  · exact .refl
  unfold Fabric.advanceEpochLocked
  dsimp only
  split
  · exact .refl
  · split <;> exact writes_fenceAttempts (f := Fabric.fenceEnvelopes
      { f with epoch := f.epoch.advanced.1 } f.epoch.advanced.1 "coordinator epoch advanced") ..

/-- Every step but a reservation replaces records, none of which leaves the terminal states. -/
theorem Call.step_writes (h : f.attempts.WellFormed) {k : Call} (hk : ∀ p, k ≠ .reserve p) :
    Writes f.attempts (Call.step f a k).1.attempts := by
  cases hwrites : k.writesAttempts with
  | false =>
    rw [(Call.step_frame f a k).attempts hwrites]
  | true =>
    cases k with
    | derive inputs now =>
      obtain ⟨_, _, _, _, _, hd, hatt⟩ := f.deriveEnvelope_frame a now inputs
      rw [show (Call.step f a (.derive inputs now)).1 = (f.deriveEnvelope a inputs now).2 from rfl,
        hd]
      rcases hatt with rfl | rfl
      · exact .refl
      · rw [compactTables_attempts h]
    | reserve p => exact absurd rfl (hk p)
    | acknowledge i status ack => exact writes_acknowledge i status ack
    | commitUnverified i current => exact writes_commitUnverified i current
    | commitVerified i status evidence current =>
      exact writes_commitVerified i status evidence current
    | staleCheck c drift => exact writes_staleCheck c drift
    | noEvidence c => exact writes_noEvidence c
    | finalizeCheck c status evidence current =>
      exact writes_finalizeCheck c status evidence current
    | locked request now =>
      cases request with
      | advanceEpoch => exact writes_advanceEpoch now
      | cancelAttempt id reason => exact writes_cancelAttempt id reason now
      | revokeEnvelope ref reason => exact writes_revokeEnvelope ref reason now
      | fenceBelow epoch => exact writes_fenceBelow epoch now
      | _ => cases hwrites
    | _ => cases hwrites

end

/-! ### The invariant -/

/-- The recovery report names an exhausted counter. -/
def Fabric.ReportsExhausted (f : Fabric) : Prop :=
  f.recovery.detail = "coordinator epoch is exhausted" ∨
    f.recovery.detail = "boot counter is exhausted"

/-- The counter is within the configured bound, and is the number of attempts in flight unless
recovery returned before it counted. -/
structure Fabric.Counted (f : Fabric) : Prop where
  wellFormed : f.attempts.WellFormed
  bounded : f.attempts.pending ≤ f.config.maxPendingAttempts
  counted : f.ReportsExhausted ∨ f.attempts.pending.toNat = f.attempts.inFlight

section
variable {f : Fabric} {a : Answers}

/-- Phase C reserves below the configured bound. -/
theorem reserveAttempt_below {now : Instant} {ref : EnvelopeRef} {backendId : BackendId}
    {requested : AttemptId} {envelope : PacingEnvelope} {backend : BackendPtr}
    {request : ApplyRequest}
    (h : (f.reserveAttempt a now ref backendId requested envelope backend).1 =
      .reserved request) : f.attempts.pending < f.config.maxPendingAttempts := by
  by_contra hfull
  have hfull : f.attempts.pending ≥ f.config.maxPendingAttempts := UInt32.not_lt.1 hfull
  unfold Fabric.reserveAttempt at h
  simp only [hfull, if_true] at h
  split at h
  · cases h
  split at h
  · cases h
  split at h
  · cases h
  split at h
  · rename_i hdup
    exact findDuplicate_ne_reserved ref backendId requested request (hdup.trans (congrArg some h))
  · cases h

/-- Below the bound the counter does not wrap. -/
theorem toNat_reserved (h : f.attempts.pending < f.config.maxPendingAttempts) :
    (f.attempts.pending + 1).toNat = f.attempts.pending.toNat + 1 := by
  have hlt := UInt32.lt_iff_toNat_lt.1 h
  have hmax := f.config.maxPendingAttempts.toNat_lt
  rw [UInt32.toNat_add]
  exact Nat.mod_eq_of_lt (by change f.attempts.pending.toNat + 1 < _; omega)

theorem inFlight_reservedLedger {now : Instant} {attempt : AttemptId} {ref : EnvelopeRef}
    {envelope : PacingEnvelope} {backend : BackendPtr} :
    (reservedLedger f a now attempt ref envelope backend).inFlight = f.attempts.inFlight + 1 :=
  AttemptLedger.inFlight_insert

theorem Fabric.Counted.step (h : f.Counted) (k : Call) : (Call.step f a k).1.Counted := by
  have hwf := (Call.step_moves h.wellFormed a k).wellFormed
  have hconfig := (Call.step_frame f a k).config
  have hreport := (Call.step_frame f a k).recovery
  suffices (Call.step f a k).1.attempts.pending ≤ f.config.maxPendingAttempts ∧
      (f.attempts.pending.toNat = f.attempts.inFlight →
        (Call.step f a k).1.attempts.pending.toNat =
          (Call.step f a k).1.attempts.inFlight) by
    refine ⟨hwf, hconfig ▸ this.1, h.counted.imp (fun hex => ?_) this.2⟩
    unfold Fabric.ReportsExhausted
    rw [hreport]
    exact hex
  by_cases hk : ∀ p, k ≠ .reserve p
  · have hwrites := Call.step_writes (a := a) h.wellFormed hk
    exact ⟨UInt32.le_trans hwrites.pending_le h.bounded, hwrites.counted⟩
  obtain ⟨p, rfl⟩ : ∃ p, k = .reserve p := by simpa using hk
  rw [Call.step_reserve_fst]
  have hresult := reserveAttempt_result (a := a) h.wellFormed p.now p.ref p.backendId p.requested
    p.envelope p.backend
  have hbelow := @reserveAttempt_below f a p.now p.ref p.backendId p.requested p.envelope
    p.backend
  generalize f.reserveAttempt a p.now p.ref p.backendId p.requested p.envelope p.backend = result
    at hresult hbelow ⊢
  cases hresult with
  | declined _ _ hatt =>
    rw [hatt]
    exact ⟨h.bounded, id⟩
  | reserved _ _ _ _ hatt =>
    have hnext := toNat_reserved (hbelow rfl)
    rw [hatt, inFlight_reservedLedger]
    change f.attempts.pending + 1 ≤ _ ∧ (_ → (f.attempts.pending + 1).toNat = _)
    refine ⟨?_, fun hcount => by rw [hnext, hcount]⟩
    rw [UInt32.le_iff_toNat_le, hnext]
    exact UInt32.lt_iff_toNat_lt.1 (hbelow rfl)

/-- Recovered attempts are terminal. -/
theorem Fabric.LedgerRecovered.counted (h : f.LedgerRecovered) : f.Counted := by
  have hnone : f.attempts.inFlight = 0 := by
    refine List.countP_eq_zero.2 fun e he => ?_
    obtain ⟨i, hi⟩ := List.getElem?_of_mem he
    obtain ⟨r₀, hr₀⟩ := h.recovered _ _ (h.wellFormed.record_of_getElem? hi)
    simp [AttemptLedger.isPending, hr₀, r₀.recovered_isTerminal]
  refine ⟨h.wellFormed, ?_, .inr ?_⟩
  · rw [h.pending]
    exact UInt32.zero_le
  · rw [hnone, h.pending]
    rfl

end

/-! ### Starts -/

namespace Fabric

variable {f : Fabric} (a : Answers)

/-- Replay counts no attempt as pending and gives no reason for a failure. -/
theorem replay_uncounted (f : Fabric) (records : List DurableRecord) :
    (f.replay a records).fabric.attempts.pending = f.attempts.pending ∧
      (f.replay a records).fabric.recovery.detail = f.recovery.detail := by
  refine List.foldlRecOn records (Replay.record (nonZeroNonce (a.nonce 1)))
    (motive := fun s : Replay => s.fabric.attempts.pending = f.attempts.pending ∧
      s.fabric.recovery.detail = f.recovery.detail) ⟨rfl, rfl⟩ ?_
  intro s hs record _
  rw [← hs.1, ← hs.2]
  unfold Replay.record
  cases record.type with
  | envelope =>
    simp only [Replay.envelope]
    repeat' split
    all_goals exact ⟨rfl, rfl⟩
  | envelopeRevocation =>
    simp only [Replay.revocation]
    repeat' split
    all_goals exact ⟨rfl, rfl⟩
  | attempt =>
    simp only [Replay.attempt]
    repeat' split
    all_goals exact ⟨rfl, rfl⟩
  | _ =>
    dsimp only
    repeat' split
    all_goals exact ⟨rfl, rfl⟩

/-- What a recovery leaves that finds a counter exhausted: nothing is counted yet. -/
structure Uncounted (status : Status) (f : Fabric) : Prop where
  refused : status.isOk = false
  named : status.detail = "coordinator epoch is exhausted" ∨
    status.detail = "boot counter is exhausted"
  wellFormed : f.attempts.WellFormed
  pending : f.attempts.pending = 0
  silent : f.recovery.detail = []

/-- Recovery counts the attempts again unless it finds a counter exhausted. -/
theorem recover_counted (hempty : f.attempts = {}) (hsilent : f.recovery.detail = [])
    (records : List DurableRecord) :
    (f.recover a records).2.LedgerRecovered ∨
      Uncounted (f.recover a records).1 (f.recover a records).2 := by
  obtain ⟨hwf, -, -⟩ := replay_keeps (f := f.beginRecovery a records) a
    (show f.attempts.WellFormed from hempty ▸ AttemptLedger.wellFormed_empty) records
  obtain ⟨hpending, hdetail⟩ := replay_uncounted a (f.beginRecovery a records) records
  have hzero : (f.beginRecovery a records).attempts.pending = 0 :=
    congrArg AttemptLedger.pending hempty
  have hnone : (f.beginRecovery a records).recovery.detail = [] := hsilent
  have hrecovers := recover_recovers a f records
  generalize f.recover a records = result at hrecovers ⊢
  generalize (f.beginRecovery a records).replay a records = replay at *
  cases hrecovers with
  | exhausted named =>
    refine .inr ⟨?_, ?_, hwf, hpending.trans hzero, hdetail.trans hnone⟩
    · rcases named with rfl | rfl <;> rfl
    · exact named.imp (congrArg Status.detail) (congrArg Status.detail)
  | settled =>
    generalize hgo : ({ replay.fabric.countRestored with
      epoch := _, boot := _, recovery := _ } : Fabric) = go
    exact .inl (settle_ledgerRecovered a (f := go) (hgo ▸ hwf) replay _)

/-- `initialize` makes the status of the recovery the reason of its report. -/
theorem Uncounted.reported {result : Status × Fabric} (h : Uncounted result.1 result.2) :
    (if result.1.isOk then result
      else (result.1, { result.2 with recovery := { result.2.recovery with
        code := result.1.code
        detail := if result.2.recovery.detail.isEmpty then result.1.detail
          else result.2.recovery.detail } })).2.Counted := by
  rw [if_neg (by simp [h.refused])]
  refine ⟨h.wellFormed, ?_, .inl ?_⟩
  · dsimp only
    rw [h.pending]
    exact UInt32.zero_le
  · unfold ReportsExhausted
    dsimp only
    rw [if_pos (by simp [h.silent])]
    exact h.named

theorem openDurable_counted (config : FabricConfig) (disk : Disk) :
    ((begun a config disk).openDurable a).2.Counted := by
  unfold openDurable
  split
  · split
    · exact (ledgerRecovered_of_empty rfl).counted
    · rename_i store disk' _
      rcases recover_counted a (f := opened a config disk' store) rfl rfl store.recovered with
        hrec | hun
      · dsimp only
        split
        · exact hrec.counted
        · exact LedgerRecovered.counted ⟨hrec.wellFormed, hrec.recovered, hrec.pending⟩
      · exact hun.reported
  · exact (ledgerRecovered_of_empty rfl).counted

/-- A start counts the attempts of its ledger, unless it reports an exhausted counter. -/
theorem initializeFabric_counted (config : FabricConfig) (disk : Disk) :
    ((construct config disk).initializeFabric a).2.Counted := by
  rcases initializeFabric_snd a config disk with hsample | hflags
  · rw [hsample]
    exact (ledgerRecovered_of_empty rfl).counted
  · rw [hflags]
    obtain ⟨hwf, hbounded, hcounted⟩ := openDurable_counted a config disk
    exact ⟨hwf, hbounded, hcounted⟩

end Fabric

/-! ### Runs -/

/-- A reachable ledger is well formed, and its counter is that of a recovery and the steps
after it. -/
theorem World.Reachable.counted {w : World} (h : w.Reachable) : w.shared.Counted := by
  obtain ⟨n, hrun⟩ := h
  refine hrun.invariant (I := fun w => w.shared.Counted)
    (Fabric.ledgerRecovered_of_empty rfl).counted ?_
  intro w e w' hw _ hs
  cases hs with
  | start _ => exact hw
  | move _ => exact hw.step _
  | restart hr =>
    obtain ⟨config, a, rfl⟩ := hr
    exact Fabric.initializeFabric_counted a config _

/-- In every reachable state the counter is within the configured bound, and it is the number
of attempts in flight unless the recovery report names an exhausted counter. -/
theorem pending_counted {w : World} (h : w.Reachable) :
    w.shared.attempts.pending ≤ w.shared.config.maxPendingAttempts ∧
      (w.shared.ReportsExhausted ∨
        w.shared.attempts.pending.toNat = w.shared.attempts.inFlight) :=
  ⟨h.counted.bounded, h.counted.counted⟩

/-- One attempt in flight. -/
theorem pending_counted_inFlight :
    let w := coordinator.exec Scenario.started Scenario.acknowledged
    w.shared.attempts.pending = 1 ∧
      w.shared.attempts.pending ≤ w.shared.config.maxPendingAttempts ∧
      (w.shared.ReportsExhausted ∨
        w.shared.attempts.pending.toNat = w.shared.attempts.inFlight) := by
  obtain ⟨n, hn⟩ := Program.run_exec (P := coordinator) Scenario.started Scenario.acknowledged
  obtain ⟨m, hm⟩ := @Scenario.run_started anyStep trivial _ _ (hn.mono fun _ _ _ => trivial)
  exact ⟨by decide +kernel, pending_counted ⟨m, hm⟩⟩

/-! ### An exhausted epoch -/

theorem encodeEpochPayload_ok (epoch : Epoch) (boot : BootId) :
    ∃ payload, Fabric.encodeEpochPayload epoch boot = .ok payload := ⟨_, rfl⟩

namespace Scenario

/-- The files take nothing. -/
def failing : Answers :=
  { answers with files := { append := fun _ => .headerFailed .nothing } }

/-- The coordinator `n` epochs later, when none of them was journaled. -/
def aged (f : Fabric) (n : ℕ) : Fabric :=
  { f with
    epoch := ⟨f.epoch.value + UInt64.ofNat n⟩
    storage := { f.storage with
      disk := { f.storage.disk with operations := f.storage.disk.operations + n }
      sequence := f.storage.sequence + UInt64.ofNat n } }

/-- Running over an open store, with nothing to fence. -/
structure Bare (f : Fabric) : Prop where
  running : f.running = true
  clock : f.clock.lastObservedNs = answers.now.ns
  envelopes : f.envelopes.entries = []
  attempts : f.attempts.entries = []
  storage : ∃ store, f.storage.durable = some store ∧
    store.needsCheckpoint f.config.limits = false

variable {f : Fabric}

theorem append_failing (limits : Limits) (store : DurableStore) (disk : Disk)
    (record : DurableRecord) :
    ∃ status : Status, status.isOk = false ∧
      store.append limits disk record (.headerFailed .nothing) = (status, store, disk) := by
  unfold DurableStore.append
  split
  · exact ⟨_, rfl, rfl⟩
  split
  · exact ⟨_, rfl, rfl⟩
  split
  · exact ⟨_, rfl, rfl⟩
  dsimp only
  split
  · exact ⟨_, rfl, rfl⟩
  · exact ⟨_, rfl, rfl⟩

theorem advanceEpoch_failing (h : Bare f) (hepoch : f.epoch.value ≠ Checked.u64Max) :
    ∃ status, f.advanceEpoch failing answers.now = (.error status, aged f 1) := by
  obtain ⟨store, hstore, hroom⟩ := h.storage
  obtain ⟨payload, hpayload⟩ := encodeEpochPayload_ok ⟨f.epoch.value + 1⟩ f.boot
  have hadvanced : f.epoch.advanced = (⟨f.epoch.value + 1⟩, false) := by
    simp [Epoch.advanced, hepoch]
  -- with empty tables the fence changes nothing
  have hfence : ({ f with epoch := ⟨f.epoch.value + 1⟩ } : Fabric).fenceEnvelopes
      ⟨f.epoch.value + 1⟩ "coordinator epoch advanced" =
      { f with epoch := ⟨f.epoch.value + 1⟩ } := by
    simp only [Fabric.fenceEnvelopes, h.envelopes, List.map_nil]
    rw [← h.envelopes]
  have hkeep : ({ f with epoch := ⟨f.epoch.value + 1⟩ } : Fabric).fenceAttempts failing
      answers.now ⟨f.epoch.value + 1⟩ "coordinator epoch advanced past this attempt" =
      { f with epoch := ⟨f.epoch.value + 1⟩ } := by
    simp only [Fabric.fenceAttempts, h.attempts]
    rfl
  obtain ⟨status, hfail, happend⟩ := append_failing f.config.limits store
    { f.storage.disk with operations := f.storage.disk.operations + 1 }
    ⟨.epochAdvance, f.storage.sequence + 1, answers.now.ns, payload⟩
  refine ⟨status, ?_⟩
  have hjournal : ({ f with epoch := ⟨f.epoch.value + 1⟩ } : Fabric).journalRecord failing
      .epochAdvance payload answers.now.ns = (status, aged f 1) := by
    have hready : ({ f with epoch := ⟨f.epoch.value + 1⟩ } : Fabric).maybeCheckpoint failing =
        (.success, f.storage) := by
      unfold Fabric.maybeCheckpoint
      dsimp only
      rw [hstore]
      dsimp only
      rw [hroom]
      rfl
    unfold Fabric.journalRecord Fabric.journal
    rw [hready]
    dsimp only
    rw [if_neg (by simp [Status.success, Status.isOk]), hstore]
    dsimp only
    rw [show failing.files.append f.storage.disk.operations = .headerFailed .nothing from rfl,
      happend]
    rw [← hstore]
    rfl
  have hlocked : f.advanceEpochLocked failing answers.now = (status, aged f 1) := by
    unfold Fabric.advanceEpochLocked
    rw [hadvanced]
    dsimp only
    rw [if_neg (by simp), hfence, hkeep, hpayload]
    exact hjournal
  unfold Fabric.advanceEpoch
  rw [if_neg (by simp [h.running]), hlocked]
  dsimp only
  rw [if_neg (by simp [hfail])]

theorem Bare.aged (h : Bare f) (n : ℕ) : Bare (aged f n) :=
  ⟨h.running, h.clock, h.envelopes, h.attempts, h.storage⟩

/-- A call of `advance_epoch` that the files do not follow. -/
def ageing : List (Action Request Answers) :=
  .start 0 .advanceEpoch :: List.replicate 4 (.move 0 failing)

theorem exec_ageing (h : Bare f) (hepoch : f.epoch.value ≠ Checked.u64Max) :
    coordinator.exec (.idle f) ageing = .idle (aged f 1) := by
  have hclock : f.clock.observe answers.now = f.clock := by
    unfold ClockWatch.observe
    rw [if_neg (by rw [h.clock]; exact UInt64.lt_irrefl _), ← h.clock]
  have hentered : Bare { f with activeOperations := f.activeOperations + 1 } :=
    ⟨h.running, h.clock, h.envelopes, h.attempts, h.storage⟩
  obtain ⟨status, hadvance⟩ := advanceEpoch_failing hentered hepoch
  have hlocked : Call.step { f with activeOperations := f.activeOperations + 1 } failing
      (.locked .advanceEpoch answers.now) =
      (aged { f with activeOperations := f.activeOperations + 1 } 1,
        some (.leave (.status status))) := by
    simp only [Call.step, Call.lockedStep, hadvance]
  have hsample : Call.step { f with activeOperations := f.activeOperations + 1 } failing
      (.sample .advanceEpoch) =
      ({ f with activeOperations := f.activeOperations + 1 },
        some (.locked .advanceEpoch answers.now)) := by
    change (Fabric.sample _ answers.now, _) = _
    unfold Fabric.sample
    dsimp only
    rw [hclock]
    rfl
  have henter : Call.step f failing (.enter .advanceEpoch) =
      ({ f with activeOperations := f.activeOperations + 1 },
        some (.sample .advanceEpoch)) := rfl
  have hbegin : coordinator.act (.idle f) (.start 0 .advanceEpoch) =
      ⟨f, Function.update (fun _ => none) 0 (some (.enter .advanceEpoch))⟩ := rfl
  have hmove : ∀ (g : Fabric) (k : Call), coordinator.act
      ⟨g, Function.update (fun _ => none) 0 (some k)⟩ (.move 0 failing) =
      ⟨(Call.step g failing k).1,
        Function.update (fun _ => none) 0 (Call.step g failing k).2⟩ := by
    intro g k
    have hhere : (⟨g, Function.update (fun _ => none) 0 (some k)⟩ : World).calls 0 = some k := by
      simp
    rw [Program.act_move hhere, Function.update_idem]
    rfl
  simp only [Program.exec, ageing, List.replicate, List.foldl_cons, List.foldl_nil, hbegin,
    hmove, henter, hsample, hlocked]
  have hleave : Call.step (aged { f with activeOperations := f.activeOperations + 1 } 1) failing
      (.leave (.status status)) = (aged f 1, none) := by
    simp only [Call.step, aged, UInt32.add_sub_cancel]
  rw [hleave, Function.update_eq_self_iff.2 rfl]
  rfl

theorem run_aged (h : Bare f) (n : ℕ) (hn : f.epoch.value.toNat + n < 2 ^ 64) :
    ∃ m, Run coordinator anyStep (.idle f) m (.idle (aged f n)) := by
  induction n with
  | zero => exact ⟨0, by simpa [aged] using Run.zero⟩
  | succ n ih =>
    obtain ⟨m, hm⟩ := ih (by omega)
    obtain ⟨m', hm'⟩ := Program.run_exec (P := coordinator) (.idle (aged f n)) ageing
    have hepoch : (aged f n).epoch.value ≠ Checked.u64Max := by
      intro hlast
      have hlast := congrArg UInt64.toNat hlast
      change (f.epoch.value + UInt64.ofNat n).toNat = 2 ^ 64 - 1 at hlast
      rw [UInt64.toNat_add, UInt64.toNat_ofNat'] at hlast
      omega
    rw [exec_ageing (h.aged n) hepoch] at hm'
    refine ⟨m + m', ?_⟩
    have hnext : aged f (n + 1) = aged (aged f n) 1 := by
      simp [aged, UInt64.add_assoc, Nat.add_assoc]
    rw [hnext]
    exact hm.trans (hm'.mono fun _ _ _ => trivial)

/-- The last epoch is journaled, and an attempt is reserved in it. -/
def lastEpoch : List (Action Request Answers) :=
  calls 0 .advanceEpoch 4 ++ setup ++ calls 0 (.applyEnvelope ⟨⟨1⟩, ⟨1⟩⟩ ⟨1⟩ {}) 10

/-- The coordinator whose epoch lacks two advances of the last. -/
def elderly : World := .idle (aged journalingStarted.shared (2 ^ 64 - 4))

/-- A start over the files this leaves. -/
def exhausted : World := .idle ((Fabric.construct journaling
  (coordinator.exec elderly lastEpoch).shared.storage.disk).initializeFabric answers).2

theorem exhausted_reachable : exhausted.Reachable := by
  have hfirst : Step coordinator World.initial .restart journalingStarted :=
    .restart ⟨journaling, { answers with recoverNow := answers.now }, rfl⟩
  have hbare : Bare journalingStarted.shared :=
    ⟨rfl, by decide +kernel, rfl, rfl, _, rfl, by decide +kernel⟩
  obtain ⟨m, hm⟩ := run_aged hbare (2 ^ 64 - 4) (by decide +kernel)
  obtain ⟨n, hn⟩ := Program.run_exec (P := coordinator) elderly lastEpoch
  have hlast : Step coordinator (coordinator.exec elderly lastEpoch) .restart exhausted :=
    .restart ⟨journaling, answers, rfl⟩
  exact ⟨_, (((Run.zero.succ trivial hfirst).trans hm).trans
    (hn.mono fun _ _ _ => trivial)).succ trivial hlast⟩

end Scenario

/-- A start that finds its epoch exhausted leaves an attempt in flight uncounted. -/
theorem pending_uncounted :
    Scenario.exhausted.Reachable ∧ Scenario.exhausted.shared.attempts.pending = 0 ∧
      Scenario.exhausted.shared.attempts.inFlight = 1 :=
  ⟨Scenario.exhausted_reachable, by decide +kernel, by decide +kernel⟩

end Pacing
