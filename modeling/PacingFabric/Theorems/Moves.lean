import PacingFabric.Theorems.Ledger
import PacingFabric.Theorems.Frames

/-!
# How one step moves an attempt

`RecordStep` lists every way a step of a call can change the record an identity names,
with the guard the source tests before it and the call that follows. `step_moves` is the
inversion lemma of the coordinator: on a well-formed ledger every step keeps the ledger
well formed and moves each record along one of these ways.

## Main definitions

* `RecordStep`: the moves.
* `Moves`: a section keeps the ledger well formed and moves every record along `RecordStep`.

## Main results

* `Call.step_moves`: every step of a call.
* `RecordStep.sameWork`: no move changes what an attempt is bound to.
* `RecordStep.terminal`: a terminal attempt stays terminal.
-/

namespace Pacing

theorem ApplicationRecord.finalizeEvidence_attempt (r : ApplicationRecord) (cadence : Cadence)
    (evidence : ReadbackEvidence) (readbackOk : Bool) (code : ErrorCode) (now : Instant) :
    (r.finalizeEvidence cadence evidence readbackOk code now).attempt = r.attempt := by
  unfold finalizeEvidence
  dsimp only
  split_ifs <;> rfl

/-- The record of a fresh reservation as it becomes visible. -/
def Fabric.submittedRecord (f : Fabric) (now : Instant) (attempt : AttemptId)
    (ref : EnvelopeRef) (envelope : PacingEnvelope) (desc : BackendDescriptor) :
    ApplicationRecord :=
  { f.reservedRecord now attempt ref envelope desc with state := .submitted }

/-- How a step of `k` that leads to `k'` may change the record of one identity. -/
inductive RecordStep (f : Fabric) (a : Answers) :
    Call → Option Call → Option ApplicationRecord → Option ApplicationRecord → Prop
  | keep {k k' o} : RecordStep f a k k' o o
  | reserved {p : Applying} {attempt : AttemptId} :
      RecordStep f a (.reserve p)
        (some (.install ⟨p.now, p.envelope, p.backend,
          f.applyRequest p.now attempt p.ref p.envelope⟩)) none
        (some (f.submittedRecord p.now attempt p.ref p.envelope (a.describe p.backend)))
  | refused {i status ack k' r code detail} (owned : r.attempt = i.request.attempt)
      (submitted : r.state = .submitted)
      (cause : f.backendPtr r.backend.id = none ∨ status.isOk = false ∨ ack.accepted = false ∨
        ack.attempt ≠ i.request.attempt) :
      RecordStep f a (.acknowledge i status ack) k' (some r)
        (some (r.transition .failed i.now code detail))
  | acknowledged {i status ack r} (owned : r.attempt = i.request.attempt)
      (submitted : r.state = .submitted) (statusOk : status.isOk = true)
      (accepted : ack.accepted = true) :
      RecordStep f a (.acknowledge i status ack) (some (.describeReadback i)) (some r)
        (some ({ r with backendSeq := ack.backendSeq }.transition .acknowledged i.now .ok
          ack.detail))
  | driftedUnverified {i current reason reply r code detail}
      (owned : r.attempt = i.request.attempt) (acknowledged : r.state = .acknowledged) :
      RecordStep f a (.commitUnverified i current)
        (some (.withdraw [(i.backend, i.request)] reason reply)) (some r)
        (some (r.transition .stale i.now code detail))
  | unverified {i current k' r} (owned : r.attempt = i.request.attempt)
      (acknowledged : r.state = .acknowledged)
      (current_ : (driftAfter i.envelope.authority current).1 = .none) :
      RecordStep f a (.commitUnverified i current) k' (some r)
        (some { r.transition .appliedUnverified i.now .readbackUnavailable
            "backend does not support readback; effect is UNKNOWN" with
          evidenceKind := .none })
  | driftedVerified {i status evidence current reason reply r code detail}
      (owned : r.attempt = i.request.attempt) (acknowledged : r.state = .acknowledged) :
      RecordStep f a (.commitVerified i status evidence current)
        (some (.withdraw [(i.backend, i.request)] reason reply)) (some r)
        (some (r.transition .stale i.now code detail))
  | verified {i status evidence current k' r} (owned : r.attempt = i.request.attempt)
      (acknowledged : r.state = .acknowledged)
      (current_ : (driftAfter i.envelope.authority current).1 = .none) :
      RecordStep f a (.commitVerified i status evidence current) k' (some r)
        (some (r.finalizeEvidence i.envelope.cadence evidence (evidence.trusted status)
          (evidence.refusal status) i.now))
  | stale {c drift k' r} (named : r.attempt = c.id) :
      RecordStep f a (.staleCheck c drift) k' (some r)
        (some { r.transition .stale c.now drift.code (Fabric.driftDetail drift) with
          requiresRevalidation := c.kind == .revalidate })
  | flagged {c k' r} (named : r.attempt = c.id) (ended : r.state.isTerminal = true) :
      RecordStep f a (.noEvidence c) k' (some r) (some { r with requiresRevalidation := true })
  | unconfirmed {c k' r detail} (named : r.attempt = c.id)
      (inFlight : r.state.isTerminal = false) :
      RecordStep f a (.noEvidence c) k' (some r)
        (some (r.transition .requiresRevalidation c.now .requiresRevalidation detail))
  | finalizedVerify {c status evidence current k' r} (named : r.attempt = c.id)
      (kind : c.kind = .verify) :
      RecordStep f a (.finalizeCheck c status evidence current) k' (some r)
        (some (r.finalizeEvidence c.envelope.cadence evidence (evidence.trusted status)
          (evidence.refusal status) c.now))
  | finalizedRevalidate {c status evidence current k' r} (named : r.attempt = c.id)
      (kind : c.kind = .revalidate) :
      RecordStep f a (.finalizeCheck c status evidence current) k' (some r)
        (some (r.revalidated c.envelope.cadence evidence c.now))
  | cancelled {id reason now todo reply r} (named : r.attempt = id)
      (unsettled : r.state.isSettled = false)
      (withdrawn : ∀ b, f.backendPtr r.backend.id = some b → r.state ≠ .unknown →
        ∃ request, (b, request) ∈ todo ∧ request.attempt = r.attempt) :
      RecordStep f a (.locked (.cancelAttempt id reason) now)
        (some (.withdrawing todo reason reply)) (some r)
        (some (Fabric.cancelledRecord r now reason))
  | revoked {ref reason now todo reply r} (unsettled : r.state.isSettled = false)
      (withdrawn : ∀ b, f.backendPtr r.backend.id = some b →
        ∃ request, (b, request) ∈ todo ∧ request.attempt = r.attempt) :
      RecordStep f a (.locked (.revokeEnvelope ref reason) now)
        (some (.withdrawing todo reason reply)) (some r)
        (some (r.transition .revoked now .revoked reason))
  | fenced {epoch now todo reason reply r detail}
      (below : r.authority.epoch.value < epoch.value) (unsettled : r.state.isSettled = false)
      (withdrawn : ∀ b, f.backendPtr r.backend.id = some b →
        (r.claimsEffect = true ∨ r.state = .appliedUnverified ∨ r.state = .mismatched) →
        ∃ request, (b, request) ∈ todo ∧ request.attempt = r.attempt) :
      RecordStep f a (.locked (.fenceBelow epoch) now)
        (some (.withdrawing todo reason reply)) (some r)
        (some (r.transition .fenced now .fenced detail))
  | epochFenced {now k' r detail} (advances : f.epoch.advanced.2 = false)
      (below : r.authority.epoch.value < f.epoch.advanced.1.value)
      (unsettled : r.state.isSettled = false) :
      RecordStep f a (.locked .advanceEpoch now) k' (some r)
        (some (r.transition .fenced now .fenced detail))

/-- A step of `k` to `k'` keeps the ledger well formed and moves every record. -/
structure Moves (f : Fabric) (a : Answers) (k : Call) (k' : Option Call) (f' : Fabric) :
    Prop where
  wellFormed : f'.attempts.WellFormed
  record : ∀ id, RecordStep f a k k' (f.attempts.record id) (f'.attempts.record id)

section
variable {f : Fabric} {a : Answers} {k : Call} {k' : Option Call}

theorem Moves.of_attempts_eq {f' : Fabric} (h : f.attempts.WellFormed)
    (heq : f'.attempts = f.attempts) : Moves f a k k' f' := by
  refine ⟨heq ▸ h, fun id => ?_⟩
  rw [heq]
  exact .keep

/-- A ledger write that is a move of the record it replaces. -/
theorem Moves.of_commit {id : AttemptId} {i : ℕ} {e : AttemptEntry} {r : ApplicationRecord}
    {now : Instant} (h : f.attempts.WellFormed) (hf : f.attempts.find id = some (i, e))
    (hr : r.attempt = e.record.attempt)
    (hmove : RecordStep f a k k' (some e.record) (some r)) :
    Moves f a k k' (f.commitRecord a i e r now) := by
  obtain ⟨he, rfl⟩ := h.find_eq_some_iff.1 hf
  refine ⟨h.write he hr, fun id => ?_⟩
  change RecordStep f a k k' _ ((f.attempts.write i e r).record id)
  rw [AttemptLedger.record_write h he hr]
  by_cases hid : id = e.record.attempt
  · rw [hid, Function.update_self, h.record_of_getElem? he]
    exact hmove
  · rw [Function.update_of_ne hid]
    exact .keep

theorem find_attempt (h : f.attempts.WellFormed) {id : AttemptId} {i : ℕ} {e : AttemptEntry}
    (hf : f.attempts.find id = some (i, e)) : e.record.attempt = id :=
  (h.find_eq_some_iff.1 hf).2

/-! ### Commits of `apply_envelope` -/

theorem moves_acknowledge (h : f.attempts.WellFormed) (i : Installing) (status : Status)
    (ack : ApplyAck) :
    Moves f a (.acknowledge i status ack) (Call.step f a (.acknowledge i status ack)).2
      (Call.step f a (.acknowledge i status ack)).1 := by
  simp only [Call.step, Fabric.acknowledgeAttempt]
  cases hf : f.attempts.find i.request.attempt with
  | none => exact .of_attempts_eq h rfl
  | some slot =>
    obtain ⟨j, e⟩ := slot
    have hid := find_attempt h hf
    by_cases hs : e.record.state = .submitted
    case neg =>
      simp only [ne_eq, hs, not_false_eq_true, if_true]
      exact .of_attempts_eq h rfl
    dsimp only
    rw [if_neg (not_not_intro hs)]
    -- refused: no backend, a failed call, no acceptance, or another attempt acknowledged
    cases hb : f.backendPtr e.record.backend.id with
    | none =>
      simp only [Option.isNone_none, if_true]
      exact .of_commit h hf rfl (.refused hid hs (.inl hb))
    | some b =>
      simp only [Option.isNone_some, Bool.false_eq_true, if_false]
      cases hok : status.isOk with
      | false =>
        simp only [Bool.not_false, if_true]
        exact .of_commit h hf rfl (.refused hid hs (.inr (.inl hok)))
      | true =>
        cases hacc : ack.accepted with
        | false =>
          simp only [Bool.not_true, Bool.false_eq_true, if_false, Bool.not_false, if_true]
          exact .of_commit h hf rfl (.refused hid hs (.inr (.inr (.inl hacc))))
        | true =>
          simp only [Bool.not_true, Bool.false_eq_true, if_false]
          by_cases hack : ack.attempt = i.request.attempt
          · simp only [hack, ne_eq, not_true_eq_false, if_false]
            exact .of_commit h hf rfl (.acknowledged hid hs hok hacc)
          · simp only [hack, ne_eq, not_false_eq_true, if_true]
            exact .of_commit h hf rfl (.refused hid hs (.inr (.inr (.inr hack))))

theorem moves_commitUnverified (h : f.attempts.WellFormed) (i : Installing)
    (current : StatusOr AuthorityInputs) :
    Moves f a (.commitUnverified i current) (Call.step f a (.commitUnverified i current)).2
      (Call.step f a (.commitUnverified i current)).1 := by
  simp only [Call.step, Fabric.commitUnverified]
  cases hf : f.attempts.find i.request.attempt with
  | none => exact .of_attempts_eq h rfl
  | some slot =>
    obtain ⟨j, e⟩ := slot
    have hid := find_attempt h hf
    by_cases hs : e.record.state = .acknowledged
    case neg =>
      simp only [ne_eq, hs, not_false_eq_true, if_true]
      exact .of_attempts_eq h rfl
    by_cases hd : (driftAfter i.envelope.authority current).1 = .none
    · simp only [ne_eq, hs, hd, not_true_eq_false, if_false]
      exact .of_commit h hf rfl (.unverified hid hs hd)
    · simp only [ne_eq, hs, hd, not_true_eq_false, if_false, not_false_eq_true, if_true]
      exact .of_commit h hf rfl (.driftedUnverified hid hs)

theorem moves_commitVerified (h : f.attempts.WellFormed) (i : Installing) (status : Status)
    (evidence : ReadbackEvidence) (current : StatusOr AuthorityInputs) :
    Moves f a (.commitVerified i status evidence current)
      (Call.step f a (.commitVerified i status evidence current)).2
      (Call.step f a (.commitVerified i status evidence current)).1 := by
  simp only [Call.step, Fabric.commitVerified]
  cases hf : f.attempts.find i.request.attempt with
  | none => exact .of_attempts_eq h rfl
  | some slot =>
    obtain ⟨j, e⟩ := slot
    have hid := find_attempt h hf
    by_cases hs : e.record.state = .acknowledged
    case neg =>
      simp only [ne_eq, hs, not_false_eq_true, if_true]
      exact .of_attempts_eq h rfl
    simp only [ne_eq, hs, not_true_eq_false, if_false]
    cases hb : f.backendPtr e.record.backend.id with
    | none =>
      simp only [Option.isNone_none, if_true]
      exact .of_commit h hf rfl (.driftedVerified hid hs)
    | some b =>
      simp only [Option.isNone_some, Bool.false_eq_true, if_false]
      by_cases hd : (driftAfter i.envelope.authority current).1 = .none
      · simp only [hd, not_true_eq_false, if_false]
        exact .of_commit h hf (e.record.finalizeEvidence_attempt ..) (.verified hid hs hd)
      · simp only [hd, not_false_eq_true, if_true]
        exact .of_commit h hf rfl (.driftedVerified hid hs)

/-! ### Commits of `verify_attempt` and `revalidate` -/

theorem moves_staleCheck (h : f.attempts.WellFormed) (c : Check) (drift : AuthorityDrift) :
    Moves f a (.staleCheck c drift) (Call.step f a (.staleCheck c drift)).2
      (Call.step f a (.staleCheck c drift)).1 := by
  have hmove : ∀ r k', r.attempt = c.id → RecordStep f a (.staleCheck c drift) k' (some r)
      (some { r.transition .stale c.now drift.code (Fabric.driftDetail drift) with
        requiresRevalidation := c.kind == .revalidate }) := fun r k' hid => .stale hid
  cases hk : c.kind with
  | verify =>
    simp only [Call.step, hk, Fabric.staleVerify]
    cases hf : f.attempts.find c.id with
    | none => exact .of_attempts_eq h rfl
    | some slot =>
      have hmove := hmove slot.2.record
      rw [hk] at hmove
      exact .of_commit h hf rfl (hmove _ (find_attempt h hf))
  | revalidate =>
    simp only [Call.step, hk, Fabric.staleRevalidate]
    cases hf : f.attempts.find c.id with
    | none => exact .of_attempts_eq h rfl
    | some slot =>
      have hmove := hmove slot.2.record
      rw [hk] at hmove
      exact .of_commit h hf rfl (hmove _ (find_attempt h hf))

theorem moves_noEvidence (h : f.attempts.WellFormed) (c : Check) :
    Moves f a (.noEvidence c) (Call.step f a (.noEvidence c)).2
      (Call.step f a (.noEvidence c)).1 := by
  simp only [Call.step, Fabric.noEvidence]
  cases hf : f.attempts.find c.id with
  | none => exact .of_attempts_eq h rfl
  | some slot =>
    obtain ⟨j, e⟩ := slot
    have hid := find_attempt h hf
    cases ht : e.record.state.isTerminal with
    | true =>
      simp only [Bool.not_true, Bool.false_eq_true, if_false, ht]
      exact .of_commit h hf rfl (.flagged hid ht)
    | false =>
      simp only [Bool.not_false, if_true, ht]
      exact .of_commit h hf rfl (.unconfirmed hid ht)

theorem moves_finalizeCheck (h : f.attempts.WellFormed) (c : Check) (status : Status)
    (evidence : ReadbackEvidence) (current : AuthorityInputs) :
    Moves f a (.finalizeCheck c status evidence current)
      (Call.step f a (.finalizeCheck c status evidence current)).2
      (Call.step f a (.finalizeCheck c status evidence current)).1 := by
  cases hf : f.attempts.find c.id with
  | none =>
    refine .of_attempts_eq h ?_
    cases hk : c.kind <;>
      simp only [Call.step, hk, Fabric.finalizeVerify, Fabric.finalizeRevalidate, hf]
  | some slot =>
    obtain ⟨j, e⟩ := slot
    have hid := find_attempt h hf
    cases hk : c.kind with
    | verify =>
      simp only [Call.step, hk, Fabric.finalizeVerify, hf]
      exact .of_commit h hf (e.record.finalizeEvidence_attempt ..) (.finalizedVerify hid hk)
    | revalidate =>
      simp only [Call.step, hk, Fabric.finalizeRevalidate, hf]
      exact .of_commit h hf (e.record.finalizeEvidence_attempt ..) (.finalizedRevalidate hid hk)

/-! ### Derivation and reservation -/

theorem compactTables_attempts (h : f.attempts.WellFormed) :
    f.compactTables.attempts = f.attempts := by
  simp [Fabric.compactTables, h.dead]

theorem evictAndCompact_attempts (h : f.attempts.WellFormed) :
    f.evictAndCompact.attempts = f.attempts := by
  obtain ⟨_, he⟩ := f.evictAndCompact_frame
  rw [he]
  exact compactTables_attempts h

theorem moves_derive (h : f.attempts.WellFormed) (inputs : AuthorityInputs) (now : Instant) :
    Moves f a (.derive inputs now) (Call.step f a (.derive inputs now)).2
      (Call.step f a (.derive inputs now)).1 := by
  obtain ⟨_, _, _, _, _, hd, hatt⟩ := f.deriveEnvelope_frame a now inputs
  refine .of_attempts_eq h ?_
  rw [show (Call.step f a (.derive inputs now)).1 = (f.deriveEnvelope a inputs now).2 from rfl,
    hd]
  exact hatt.elim id fun h' => h'.trans (compactTables_attempts h)

theorem findDuplicate_ne_reserved (ref : EnvelopeRef) (backendId : BackendId)
    (requested : AttemptId) (request : ApplyRequest) :
    f.findDuplicate ref backendId requested ≠ some (.reserved request) := by
  unfold Fabric.findDuplicate
  repeat' split
  all_goals simp

/-- The ledger with a fresh reservation. -/
def reservedLedger (f : Fabric) (a : Answers) (now : Instant) (attempt : AttemptId)
    (ref : EnvelopeRef) (envelope : PacingEnvelope) (backend : BackendPtr) : AttemptLedger :=
  { f.attempts.insert (f.submittedRecord now attempt ref envelope (a.describe backend)) with
    pending := f.attempts.pending + 1 }

/-- What the end of phase C may do: refuse, or insert a fresh record. -/
inductive FreshResult (f : Fabric) (a : Answers) (now : Instant) (ref : EnvelopeRef)
    (envelope : PacingEnvelope) (backend : BackendPtr) : Fabric.Reservation × Fabric → Prop
  | refused {status f'} (envelopes : f'.envelopes = f.envelopes)
      (attempts : f'.attempts = f.attempts) :
      FreshResult f a now ref envelope backend (.refused status, f')
  | reserved {attempt f'} (fresh : f.attempts.record attempt = none)
      (envelopes : f'.envelopes = f.envelopes)
      (attempts : f'.attempts = reservedLedger f a now attempt ref envelope backend) :
      FreshResult f a now ref envelope backend
        (.reserved (f.applyRequest now attempt ref envelope), f')

theorem reserveFresh_result (now : Instant) (ref : EnvelopeRef) (requested : AttemptId)
    (envelope : PacingEnvelope) (backend : BackendPtr) :
    FreshResult f a now ref envelope backend
      (f.reserveFresh a now ref requested envelope backend) := by
  unfold Fabric.reserveFresh
  dsimp only
  split
  · exact .refused rfl rfl
  · rename_i hnone
    have hfresh : f.attempts.record (f.attemptIdentity requested).1 = none := by
      simpa [AttemptLedger.record] using hnone
    unfold Fabric.insertAttempt
    split
    · exact .refused rfl rfl
    · dsimp only
      split
      · exact .refused rfl rfl
      · exact .reserved hfresh rfl rfl

/-- What phase C of `apply_envelope` may do: refuse or meet a duplicate, or insert a fresh
record for an envelope that is live and unrevoked. -/
inductive ReserveResult (f : Fabric) (a : Answers) (now : Instant) (ref : EnvelopeRef)
    (envelope : PacingEnvelope) (backend : BackendPtr) : Fabric.Reservation × Fabric → Prop
  | declined {out f'} (out_ : ∀ request, out ≠ .reserved request)
      (envelopes : f'.envelopes = f.envelopes ∨ f'.envelopes = f.evictAndCompact.envelopes)
      (attempts : f'.attempts = f.attempts) :
      ReserveResult f a now ref envelope backend (out, f')
  | reserved {attempt i entry f'} (found : f.envelopes.find ref.id = some (i, entry))
      (unrevoked : entry.revoked = false) (fresh : f.attempts.record attempt = none)
      (envelopes : f'.envelopes = f.evictAndCompact.envelopes)
      (attempts : f'.attempts = reservedLedger f a now attempt ref envelope backend) :
      ReserveResult f a now ref envelope backend
        (.reserved (f.applyRequest now attempt ref envelope), f')

theorem reserveAttempt_result (h : f.attempts.WellFormed) (now : Instant) (ref : EnvelopeRef)
    (backendId : BackendId) (requested : AttemptId) (envelope : PacingEnvelope)
    (backend : BackendPtr) :
    ReserveResult f a now ref envelope backend
      (f.reserveAttempt a now ref backendId requested envelope backend) := by
  unfold Fabric.reserveAttempt
  split
  · exact .declined (by simp) (.inl rfl) rfl
  · cases henv : f.envelopes.find ref.id with
    | none => exact .declined (by simp) (.inl rfl) rfl
    | some slot =>
      obtain ⟨i, entry⟩ := slot
      cases hrev : entry.revoked with
      | true =>
        simp only [hrev, if_true]
        exact .declined (by simp) (.inl rfl) rfl
      | false =>
        simp only [hrev, Bool.false_eq_true, if_false]
        cases hdup : f.findDuplicate ref backendId requested with
        | some reservation =>
          refine .declined (fun request heq => ?_) (.inl rfl) rfl
          exact findDuplicate_ne_reserved ref backendId requested request
            (hdup.trans (congrArg some heq))
        | none =>
          -- the eviction comes first, and the ledger does not see it
          have hatt := evictAndCompact_attempts h
          dsimp only
          split
          · exact .declined (by simp) (.inl rfl) rfl
          · split
            · exact .declined (by simp) (.inr rfl) hatt
            · have hfresh := reserveFresh_result (f := f.evictAndCompact) (a := a) now ref
                requested envelope backend
              have hledger : ∀ attempt, reservedLedger f.evictAndCompact a now attempt ref
                  envelope backend = reservedLedger f a now attempt ref envelope backend := by
                intro attempt
                obtain ⟨envelopes, he⟩ := f.evictAndCompact_frame
                rw [he, compactTables_attempts h]
                rfl
              have hrequest : ∀ attempt, f.evictAndCompact.applyRequest now attempt ref
                  envelope = f.applyRequest now attempt ref envelope := by
                intro attempt
                obtain ⟨envelopes, he⟩ := f.evictAndCompact_frame
                rw [he]
                rfl
              revert hfresh
              generalize f.evictAndCompact.reserveFresh a now ref requested envelope backend =
                result
              rintro (⟨h₁, h₂⟩ | ⟨h₁, h₂, h₃⟩)
              · exact .declined (by simp) (.inr h₁) (h₂.trans hatt)
              · rw [hatt] at h₁
                rw [hrequest]
                exact .reserved henv hrev h₁ h₂ (h₃.trans (hledger _))

theorem reservedLedger_wellFormed (h : f.attempts.WellFormed) {now : Instant}
    {attempt : AttemptId} {ref : EnvelopeRef} {envelope : PacingEnvelope} {backend : BackendPtr}
    (fresh : f.attempts.record attempt = none) :
    (reservedLedger f a now attempt ref envelope backend).WellFormed :=
  have h' : (f.attempts.insert (f.submittedRecord now attempt ref envelope
      (a.describe backend))).WellFormed := h.insert fresh
  ⟨h'.live, h'.dead, h'.indexed, h'.sound⟩

theorem reservedLedger_record (h : f.attempts.WellFormed) {now : Instant}
    {attempt : AttemptId} {ref : EnvelopeRef} {envelope : PacingEnvelope} {backend : BackendPtr}
    (fresh : f.attempts.record attempt = none) :
    (reservedLedger f a now attempt ref envelope backend).record =
      Function.update f.attempts.record attempt
        (some (f.submittedRecord now attempt ref envelope (a.describe backend))) :=
  AttemptLedger.record_insert
    (r := f.submittedRecord now attempt ref envelope (a.describe backend)) h fresh

theorem moves_reserve (h : f.attempts.WellFormed) (p : Applying) :
    Moves f a (.reserve p) (Call.step f a (.reserve p)).2 (Call.step f a (.reserve p)).1 := by
  have hresult := reserveAttempt_result (a := a) h p.now p.ref p.backendId p.requested
    p.envelope p.backend
  simp only [Call.step]
  revert hresult
  generalize f.reserveAttempt a p.now p.ref p.backendId p.requested p.envelope p.backend = result
  intro hresult
  cases hresult with
  | @declined out f' hout _ hatt =>
    cases out with
    | reserved request => exact absurd rfl (hout request)
    | refused status => exact .of_attempts_eq h hatt
    | duplicate attempt => exact .of_attempts_eq h hatt
  | @reserved attempt _ _ f' _ _ fresh _ hatt =>
    refine ⟨?_, fun id => ?_⟩
    · rw [hatt]
      exact reservedLedger_wellFormed h fresh
    · rw [hatt, reservedLedger_record h fresh]
      by_cases hid : id = attempt
      · subst hid
        rw [Function.update_self, fresh]
        exact .reserved
      · rw [Function.update_of_ne hid]
        exact .keep

/-! ### Closing operations -/

theorem moves_cancelAttempt (h : f.attempts.WellFormed) (id : AttemptId) (reason : Bytes)
    (now : Instant) :
    Moves f a (.locked (.cancelAttempt id reason) now)
      (Call.step f a (.locked (.cancelAttempt id reason) now)).2
      (Call.step f a (.locked (.cancelAttempt id reason) now)).1 := by
  simp only [Call.step, Call.lockedStep]
  split
  · exact .of_attempts_eq h rfl
  · unfold Fabric.cancelAttempt
    split
    · exact .of_attempts_eq h rfl
    · cases hf : f.attempts.find id with
      | none => exact .of_attempts_eq h rfl
      | some slot =>
        obtain ⟨j, e⟩ := slot
        have hid := find_attempt h hf
        dsimp only
        split
        · exact .of_attempts_eq h rfl
        · rename_i hset
          dsimp only
          refine .of_commit h hf ?_ (.cancelled hid (by simpa using hset) ?_)
          · unfold Fabric.cancelledRecord
            split <;> rfl
          · intro b hb hne
            rw [hb]
            simp only [hne, if_false]
            exact ⟨_, List.mem_singleton_self _, hid.symm⟩

/-- What a fence makes of an entry. -/
def fencedEntry (now : Instant) (epoch : Epoch) (detail : Bytes) (e : AttemptEntry) :
    AttemptEntry :=
  if Fabric.fences epoch e then
    { e with record := e.record.transition .fenced now .fenced detail }
  else e

theorem turns_fenceAttempt (now : Instant) (epoch : Epoch) (detail : Bytes) :
    Turns (Fabric.fenceAttempt a now epoch detail) (fencedEntry now epoch detail) := by
  intro f i
  unfold Fabric.fenceAttempt
  cases he : f.attempts.entries[i]? with
  | none =>
    rw [List.modify_eq_self (List.getElem?_eq_none_iff.1 he)]
    exact ⟨_, rfl⟩
  | some e =>
    rw [modify_eq_set_of_getElem? _ he]
    obtain ⟨hi, rfl⟩ := List.getElem?_eq_some_iff.1 he
    unfold fencedEntry
    dsimp only
    split
    · exact ⟨_, rfl⟩
    · rw [List.set_getElem_self]
      exact ⟨_, rfl⟩

theorem fencedEntry_live (now : Instant) (epoch : Epoch) (detail : Bytes) (e : AttemptEntry) :
    (fencedEntry now epoch detail e).live = e.live := by
  unfold fencedEntry
  split <;> rfl

theorem fencedEntry_attempt (now : Instant) (epoch : Epoch) (detail : Bytes)
    (e : AttemptEntry) :
    (fencedEntry now epoch detail e).record.attempt = e.record.attempt := by
  unfold fencedEntry
  split <;> rfl

/-- A fence keeps the ledger well formed; each record is fenced or left alone. -/
theorem fenceAttempts_record (h : f.attempts.WellFormed) (now : Instant) (epoch : Epoch)
    (detail : Bytes) :
    (f.fenceAttempts a now epoch detail).attempts.WellFormed ∧
      ∀ id, (f.fenceAttempts a now epoch detail).attempts.record id =
        (f.attempts.find id).map fun slot => (fencedEntry now epoch detail slot.2).record := by
  obtain ⟨pending, hatt⟩ := (turns_fenceAttempt (a := a) now epoch detail).foldl f
  have hlive := fencedEntry_live now epoch detail
  have hid := fencedEntry_attempt now epoch detail
  have hwf := h.mapEntries hlive hid
  rw [Fabric.fenceAttempts, hatt]
  exact ⟨⟨hwf.live, hwf.dead, hwf.indexed, hwf.sound⟩,
    AttemptLedger.record_mapEntries h hlive hid⟩

theorem fences_iff (h : f.attempts.WellFormed) {id : AttemptId} {i : ℕ} {e : AttemptEntry}
    (hf : f.attempts.find id = some (i, e)) (epoch : Epoch) :
    Fabric.fences epoch e = true ↔
      e.record.authority.epoch.value < epoch.value ∧ e.record.state.isSettled = false := by
  have hlive := h.live e (List.mem_of_getElem? (h.find_eq_some_iff.1 hf).1)
  simp [Fabric.fences, hlive]

theorem moves_advanceEpoch (h : f.attempts.WellFormed) (now : Instant) :
    Moves f a (.locked .advanceEpoch now) (Call.step f a (.locked .advanceEpoch now)).2
      (Call.step f a (.locked .advanceEpoch now)).1 := by
  rw [show (Call.step f a (.locked .advanceEpoch now)).1 = (f.advanceEpoch a now).2 from
    Call.lockedStep_fst f a now .advanceEpoch]
  unfold Fabric.advanceEpoch
  split
  · exact .of_attempts_eq h rfl
  · unfold Fabric.advanceEpochLocked
    dsimp only
    split
    · exact .of_attempts_eq h rfl
    · rename_i hex
      have hadv : f.epoch.advanced.2 = false := by simpa using hex
      obtain ⟨hwf, hrec⟩ := fenceAttempts_record (f := Fabric.fenceEnvelopes
        { f with epoch := f.epoch.advanced.1 } f.epoch.advanced.1 "coordinator epoch advanced")
        (a := a) h now f.epoch.advanced.1 "coordinator epoch advanced past this attempt"
      -- the ledger is fenced whether or not the epoch gets into the journal
      have hmoves : ∀ f', f'.attempts = ((Fabric.fenceEnvelopes
          { f with epoch := f.epoch.advanced.1 } f.epoch.advanced.1
          "coordinator epoch advanced").fenceAttempts a now f.epoch.advanced.1
          "coordinator epoch advanced past this attempt").attempts →
          Moves f a (.locked .advanceEpoch now)
            (Call.step f a (.locked .advanceEpoch now)).2 f' := by
        intro f' heq
        refine ⟨heq ▸ hwf, fun id => ?_⟩
        rw [heq, hrec id]
        change RecordStep f a _ _ ((f.attempts.find id).map _) ((f.attempts.find id).map _)
        cases hf : f.attempts.find id with
        | none => exact .keep
        | some slot =>
          obtain ⟨j, e⟩ := slot
          simp only [Option.map_some]
          unfold fencedEntry
          split
          · rename_i hfence
            obtain ⟨hbelow, hset⟩ := (fences_iff h hf _).1 hfence
            exact .epochFenced hadv hbelow hset
          · exact .keep
      split
      · exact hmoves _ rfl
      · exact hmoves _ rfl

theorem mem_fenceWithdrawals {epoch : Epoch} {now : Instant} {b : BackendPtr}
    {request : ApplyRequest} :
    (b, request) ∈ f.fenceWithdrawals epoch now ↔
      ∃ e ∈ f.attempts.entries, Fabric.fences epoch e = true ∧
        (e.record.claimsEffect = true ∨ e.record.state = .appliedUnverified ∨
          e.record.state = .mismatched) ∧
        f.backendPtr e.record.backend.id = some b ∧
        request = Fabric.withdrawalRequest e.record e.record.desired now := by
  simp only [Fabric.fenceWithdrawals, List.mem_filterMap]
  refine exists_congr fun e => and_congr_right fun _ => ?_
  split
  · rename_i hc
    simp only [Bool.and_eq_true, Bool.or_eq_true, beq_iff_eq] at hc
    rw [Option.map_eq_some_iff]
    constructor
    · rintro ⟨b', hb, heq⟩
      obtain ⟨rfl, rfl⟩ := Prod.mk.inj heq
      exact ⟨hc.1, or_assoc.1 hc.2, hb, rfl⟩
    · rintro ⟨_, _, hb, rfl⟩
      exact ⟨b, hb, rfl⟩
  · rename_i hc
    simp only [Bool.and_eq_true, Bool.or_eq_true, beq_iff_eq, or_assoc] at hc
    constructor
    · simp
    · rintro ⟨hfence, heffect, _⟩
      exact absurd ⟨hfence, heffect⟩ hc

theorem moves_fenceBelow (h : f.attempts.WellFormed) (epoch : Epoch) (now : Instant) :
    Moves f a (.locked (.fenceBelow epoch) now)
      (Call.step f a (.locked (.fenceBelow epoch) now)).2
      (Call.step f a (.locked (.fenceBelow epoch) now)).1 := by
  simp only [Call.step, Call.lockedStep]
  split
  · exact .of_attempts_eq h rfl
  · unfold Fabric.fenceBelow
    split
    · exact .of_attempts_eq h rfl
    · dsimp only
      obtain ⟨hwf, hrec⟩ := fenceAttempts_record
        (f := f.fenceEnvelopes epoch "fenced by coordinator epoch") (a := a) h now epoch
        "fenced by coordinator epoch"
      refine ⟨hwf, fun id => ?_⟩
      rw [hrec id]
      change RecordStep f a _ _ ((f.attempts.find id).map _) ((f.attempts.find id).map _)
      cases hf : f.attempts.find id with
      | none => exact .keep
      | some slot =>
        obtain ⟨j, e⟩ := slot
        simp only [Option.map_some]
        unfold fencedEntry
        split
        · rename_i hfence
          obtain ⟨hbelow, hset⟩ := (fences_iff h hf _).1 hfence
          refine .fenced hbelow hset fun b hb heffect => ?_
          exact ⟨_, mem_fenceWithdrawals.2 ⟨e, List.mem_of_getElem? (h.find_eq_some_iff.1 hf).1,
            hfence, heffect, hb, rfl⟩, rfl⟩
        · exact .keep

/-- What the loop of `revoke_envelope` has done to `f` so far: some records are revoked, each
with its withdrawal. -/
structure Revoking (f : Fabric) (now : Instant) (reason : Bytes)
    (acc : List Withdrawal × Fabric) : Prop where
  frame : ∃ attempts storage, acc.2 = { f with attempts := attempts, storage := storage }
  wellFormed : acc.2.attempts.WellFormed
  record : ∀ id, acc.2.attempts.record id = f.attempts.record id ∨
    ∃ r, f.attempts.record id = some r ∧ r.state.isSettled = false ∧
      acc.2.attempts.record id = some (r.transition .revoked now .revoked reason) ∧
      ∀ b, f.backendPtr r.backend.id = some b →
        ∃ request, (b, request) ∈ acc.1 ∧ request.attempt = r.attempt
  issued : ∀ b request, (b, request) ∈ acc.1 → ∃ r, f.attempts.record request.attempt = some r ∧
    r.state.isSettled = false ∧ f.backendPtr r.backend.id = some b ∧
    acc.2.attempts.record request.attempt = some (r.transition .revoked now .revoked reason)

private theorem revoking_step {now : Instant} {reason : Bytes} {cadence : Cadence}
    {acc : List Withdrawal × Fabric} (h : Revoking f now reason acc) (id : AttemptId) :
    Revoking f now reason (Fabric.revokeAttempt a now cadence reason acc id) := by
  obtain ⟨todo, g⟩ := acc
  obtain ⟨attempts, storage, hg⟩ := h.frame
  have hback : ∀ x, g.backendPtr x = f.backendPtr x := fun x => by
    rw [show g = _ from hg]
    rfl
  unfold Fabric.revokeAttempt
  dsimp only
  cases hf : g.attempts.find id with
  | none => exact h
  | some slot =>
    obtain ⟨j, e⟩ := slot
    dsimp only
    split
    · exact h
    · rename_i hset
      have hid := find_attempt h.wellFormed hf
      -- an unsettled attempt has not been visited by the loop before
      have hheld : f.attempts.record id = some e.record := by
        have hrec : g.attempts.record id = some e.record := by
          simp [AttemptLedger.record, hf]
        rcases h.record id with heq | ⟨r, _, _, heq, _⟩
        · rw [← heq, hrec]
        · rw [hrec] at heq
          rw [Option.some.inj heq] at hset
          exact absurd rfl hset
      obtain ⟨he, -⟩ := h.wellFormed.find_eq_some_iff.1 hf
      have hupdate : (g.commitRecord a j e (e.record.transition .revoked now .revoked reason)
          now).attempts.record = Function.update g.attempts.record id
            (some (e.record.transition .revoked now .revoked reason)) := by
        rw [← hid]
        exact AttemptLedger.record_write h.wellFormed he rfl
      have hset' : e.record.state.isSettled = false := by simpa using hset
      refine ⟨?_, h.wellFormed.write he rfl, fun id' => ?_, fun b request hmem => ?_⟩
      · rw [show g = _ from hg]
        exact ⟨_, _, rfl⟩
      · rw [hupdate, hback]
        by_cases hid' : id' = id
        · subst hid'
          rw [Function.update_self]
          refine .inr ⟨e.record, hheld, hset', rfl, fun b hb => ?_⟩
          rw [hb]
          exact ⟨_, List.mem_append_right _ (List.mem_singleton_self _), rfl⟩
        · rw [Function.update_of_ne hid']
          refine (h.record id').imp_right ?_
          rintro ⟨r, hr, hrset, hr', hw⟩
          refine ⟨r, hr, hrset, hr', fun b hb => ?_⟩
          obtain ⟨request, hmem, hreq⟩ := hw b hb
          refine ⟨request, ?_, hreq⟩
          cases f.backendPtr e.record.backend.id with
          | none => exact hmem
          | some b' => exact List.mem_append_left _ hmem
      · rw [hupdate]
        -- an attempt that is listed twice gets the same record both times
        have hold : ∀ b request, (b, request) ∈ todo →
            ∃ r, f.attempts.record request.attempt = some r ∧ r.state.isSettled = false ∧
              f.backendPtr r.backend.id = some b ∧
              Function.update g.attempts.record id
                  (some (e.record.transition .revoked now .revoked reason)) request.attempt =
                some (r.transition .revoked now .revoked reason) := by
          intro b request hmem
          obtain ⟨r, hr, hrset, hb, hr'⟩ := h.issued b request hmem
          refine ⟨r, hr, hrset, hb, ?_⟩
          by_cases hreq : request.attempt = id
          · rw [hreq] at hr ⊢
            rw [Function.update_self, Option.some.inj (hheld.symm.trans hr)]
          · rwa [Function.update_of_ne hreq]
        rw [hback] at hmem
        cases hb : f.backendPtr e.record.backend.id with
        | none =>
          rw [hb] at hmem
          exact hold b request hmem
        | some b' =>
          rw [hb] at hmem
          rcases List.mem_append.1 hmem with hmem | hmem
          · exact hold b request hmem
          · obtain ⟨rfl, rfl⟩ := Prod.mk.inj (List.mem_singleton.1 hmem)
            refine ⟨e.record, ?_, hset', hb, ?_⟩
            · exact (congrArg f.attempts.record hid).trans hheld
            · rw [show (Fabric.withdrawalRequest e.record cadence now).attempt = id from hid,
                Function.update_self]

/-- The loop of `revoke_envelope`. -/
theorem revokeAttempts_revoking (h : f.attempts.WellFormed) (now : Instant)
    (envelope : EnvelopeId) (cadence : Cadence) (reason : Bytes) :
    Revoking f now reason (f.revokeAttempts a now envelope cadence reason) := by
  refine List.foldlRecOn (f.attempts.byEnvelope envelope.value)
    (Fabric.revokeAttempt a now cadence reason) (motive := Revoking f now reason)
    ⟨⟨f.attempts, f.storage, rfl⟩, h, fun _ => .inl rfl, by simp⟩ ?_
  intro acc hacc id _
  exact revoking_step hacc id

theorem Revoking.moves {g : Fabric} {ref : EnvelopeRef} {now : Instant} {reason : Bytes}
    {reply : Reply} {acc : List Withdrawal × Fabric} (h : Revoking g now reason acc)
    (hatt : g.attempts = f.attempts) (hback : g.backends = f.backends) :
    Moves f a (.locked (.revokeEnvelope ref reason) now)
      (some (.withdrawing acc.1 reason reply)) acc.2 := by
  refine ⟨h.wellFormed, fun id => ?_⟩
  rw [← hatt]
  rcases h.record id with heq | ⟨r, hr, hset, hr', hw⟩
  · rw [heq]
    exact .keep
  · rw [hr, hr']
    refine .revoked hset fun b hb => hw b ?_
    rwa [Fabric.backendPtr, hback]

theorem moves_revokeEnvelope (h : f.attempts.WellFormed) (ref : EnvelopeRef) (reason : Bytes)
    (now : Instant) :
    Moves f a (.locked (.revokeEnvelope ref reason) now)
      (Call.step f a (.locked (.revokeEnvelope ref reason) now)).2
      (Call.step f a (.locked (.revokeEnvelope ref reason) now)).1 := by
  simp only [Call.step, Call.lockedStep]
  split
  · exact .of_attempts_eq h rfl
  · split
    · exact .of_attempts_eq h rfl
    · unfold Fabric.revokeEnvelope
      split
      · exact .of_attempts_eq h rfl
      · split
        · exact .of_attempts_eq h rfl
        · rename_i i entry _
          split
          · exact .of_attempts_eq h rfl
          · split
            · exact (revokeAttempts_revoking h now ref.id entry.envelope.cadence reason).moves
                rfl rfl
            · dsimp only
              split
              · exact .of_attempts_eq h rfl
              · split
                · exact .of_attempts_eq h rfl
                · rename_i payload _ _
                  exact (revokeAttempts_revoking
                    (f := ((f.setRevoked i entry true reason).journalRecord a
                      .envelopeRevocation payload now.ns).2) h now ref.id
                    entry.envelope.cadence reason).moves (f := f) rfl rfl

/-! ### All steps -/

/-- Every step keeps the ledger well formed and moves each record along `RecordStep`. -/
theorem Call.step_moves (h : f.attempts.WellFormed) (a : Answers) (k : Call) :
    Moves f a k (Call.step f a k).2 (Call.step f a k).1 := by
  by_cases hk : k.writesAttempts = false
  · exact .of_attempts_eq h ((Call.step_frame f a k).attempts hk)
  · cases k with
    | derive inputs now => exact moves_derive h inputs now
    | reserve p => exact moves_reserve h p
    | acknowledge i status ack => exact moves_acknowledge h i status ack
    | commitUnverified i current => exact moves_commitUnverified h i current
    | commitVerified i status evidence current =>
      exact moves_commitVerified h i status evidence current
    | staleCheck c drift => exact moves_staleCheck h c drift
    | noEvidence c => exact moves_noEvidence h c
    | finalizeCheck c status evidence current =>
      exact moves_finalizeCheck h c status evidence current
    | locked request now =>
      cases request with
      | advanceEpoch => exact moves_advanceEpoch h now
      | cancelAttempt id reason => exact moves_cancelAttempt h id reason now
      | revokeEnvelope ref reason => exact moves_revokeEnvelope h ref reason now
      | fenceBelow epoch => exact moves_fenceBelow h epoch now
      | _ => exact absurd rfl hk
    | _ => exact absurd rfl hk

end

/-! ### Consequences -/

section
variable {f : Fabric} {a : Answers} {k : Call} {k' : Option Call} {r r' : ApplicationRecord}

/-- What an attempt is bound to: no move changes it. -/
structure ApplicationRecord.SameWork (r r' : ApplicationRecord) : Prop where
  attempt : r'.attempt = r.attempt
  envelope : r'.envelope = r.envelope
  authority : r'.authority = r.authority
  desired : r'.desired = r.desired
  backend : r'.backend = r.backend
  backendSynthetic : r'.backendSynthetic = r.backendSynthetic

theorem ApplicationRecord.SameWork.refl (r : ApplicationRecord) :
    r.SameWork r := ⟨rfl, rfl, rfl, rfl, rfl, rfl⟩

theorem ApplicationRecord.SameWork.trans {r s t : ApplicationRecord} (h : r.SameWork s)
    (h' : s.SameWork t) : r.SameWork t where
  attempt := h'.attempt.trans h.attempt
  envelope := h'.envelope.trans h.envelope
  authority := h'.authority.trans h.authority
  desired := h'.desired.trans h.desired
  backend := h'.backend.trans h.backend
  backendSynthetic := h'.backendSynthetic.trans h.backendSynthetic

theorem ApplicationRecord.finalizeEvidence_sameWork (r : ApplicationRecord) (cadence : Cadence)
    (evidence : ReadbackEvidence) (readbackOk : Bool) (code : ErrorCode) (now : Instant) :
    r.SameWork (r.finalizeEvidence cadence evidence readbackOk code now) := by
  unfold finalizeEvidence
  dsimp only
  split_ifs <;> exact ⟨rfl, rfl, rfl, rfl, rfl, rfl⟩

theorem RecordStep.sameWork (h : RecordStep f a k k' (some r) (some r')) : r.SameWork r' := by
  cases h with
  | verified | finalizedVerify => exact r.finalizeEvidence_sameWork ..
  | finalizedRevalidate =>
    have h := r.finalizeEvidence_sameWork
    exact ⟨(h ..).attempt, (h ..).envelope, (h ..).authority, (h ..).desired, (h ..).backend,
      (h ..).backendSynthetic⟩
  | cancelled =>
    unfold Fabric.cancelledRecord
    split <;> exact ⟨rfl, rfl, rfl, rfl, rfl, rfl⟩
  | _ => exact ⟨rfl, rfl, rfl, rfl, rfl, rfl⟩

/-- A record never disappears. -/
theorem RecordStep.isSome {o : Option ApplicationRecord}
    (h : RecordStep f a k k' (some r) o) : ∃ r', o = some r' := by
  cases h <;> exact ⟨_, rfl⟩

/-- A step keeps the work of every record. -/
theorem Call.record_kept (hwf : f.attempts.WellFormed) (a : Answers) (k : Call) {id : AttemptId}
    (hr : f.attempts.record id = some r) :
    ∃ r', (Call.step f a k).1.attempts.record id = some r' ∧ r.SameWork r' := by
  have hmove := (Call.step_moves hwf a k).record id
  rw [hr] at hmove
  obtain ⟨r', hr'⟩ := hmove.isSome
  rw [hr'] at hmove
  exact ⟨r', hr', hmove.sameWork⟩

/-- The states `finalize_evidence_locked` may leave. -/
theorem ApplicationRecord.finalizeEvidence_state (r : ApplicationRecord) (cadence : Cadence)
    (evidence : ReadbackEvidence) (readbackOk : Bool) (code : ErrorCode) (now : Instant) :
    (r.finalizeEvidence cadence evidence readbackOk code now).state =
      if readbackOk = false then .appliedUnverified
      else if (r.withEvidence evidence).matches_ cadence evidence then .applied
      else .mismatched := by
  unfold finalizeEvidence
  cases readbackOk <;> dsimp only <;> split_ifs <;> simp_all

theorem RecordStep.terminal (h : RecordStep f a k k' (some r) (some r'))
    (ht : r.state.isTerminal = true) : r'.state.isTerminal = true := by
  have hfin : ∀ cadence evidence ok code now,
      (r.finalizeEvidence cadence evidence ok code now).state.isTerminal = true := by
    intro cadence evidence ok code now
    rw [ApplicationRecord.finalizeEvidence_state]
    split_ifs <;> rfl
  cases h with
  | keep => exact ht
  | acknowledged _ hs => simp [hs, ApplicationState.isTerminal] at ht
  | verified | finalizedVerify => exact hfin ..
  | finalizedRevalidate => exact hfin ..
  | flagged => exact ht
  | cancelled =>
    unfold Fabric.cancelledRecord
    split <;> rfl
  | _ => rfl

/-- The effect label is the one its state calls for. -/
def ApplicationRecord.Labelled (r : ApplicationRecord) : Prop := r.effect = r.labelFor r.state

theorem ApplicationRecord.finalizeEvidence_labelled (r : ApplicationRecord) (cadence : Cadence)
    (evidence : ReadbackEvidence) (readbackOk : Bool) (code : ErrorCode) (now : Instant) :
    (r.finalizeEvidence cadence evidence readbackOk code now).Labelled := by
  unfold finalizeEvidence
  dsimp only
  split_ifs <;> rfl

/-- Every move leaves the label of the state it moves to. -/
theorem RecordStep.labelled (h : RecordStep f a k k' (some r) (some r')) (hr : r.Labelled) :
    r'.Labelled := by
  cases h with
  | keep | flagged => exact hr
  | verified | finalizedVerify => exact r.finalizeEvidence_labelled ..
  | finalizedRevalidate => exact r.finalizeEvidence_labelled ..
  | cancelled =>
    unfold Fabric.cancelledRecord
    split <;> rfl
  | _ => rfl

theorem RecordStep.labelled_of_none (h : RecordStep f a k k' none (some r')) :
    r'.Labelled := by
  cases h
  rfl

end

end Pacing
