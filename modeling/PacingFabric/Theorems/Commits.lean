import PacingFabric.Theorems.Closed

/-!
# What moves an attempt to Applied

Two sections finalize readback evidence: the last one of `apply_envelope` and the one
`verify_attempt` and `revalidate` share. Nothing else ever writes `Applied` into a record.

## Main definitions

* `Finalization`, `Call.finalization`: the evidence a call is about to finalize.
* `Call.Applies`: the step moves an attempt to `Applied`.

## Main results

* `Call.Applies.finalizes`: such a step finalizes evidence that matches the record.
-/

namespace Pacing

/-- The arguments of `finalize_evidence_locked`, with the attempt it is called for. -/
structure Finalization where
  id : AttemptId
  envelope : PacingEnvelope
  status : Status
  evidence : ReadbackEvidence
  now : Instant
  deriving DecidableEq, Repr

namespace Call

/-- The finalization the next step makes, unless it finds the attempt closed or drifted. -/
def finalization : Call → Option Finalization
  | .commitVerified i status evidence _ =>
    some ⟨i.request.attempt, i.envelope, status, evidence, i.now⟩
  | .finalizeCheck c status evidence _ => some ⟨c.id, c.envelope, status, evidence, c.now⟩
  | _ => none

/-- The step leaves the record of `id` in `Applied` and has changed more than its flag. -/
def Applies (f : Fabric) (a : Answers) (k : Call) (id : AttemptId) : Prop :=
  ∃ r', (step f a k).1.attempts.record id = some r' ∧ r'.state = .applied ∧
    ∀ r, f.attempts.record id = some r →
      r' ≠ { r with requiresRevalidation := r'.requiresRevalidation }

/-- What the step that moves an attempt to `Applied` has found. -/
structure Finalizes (f : Fabric) (k : Call) (x : Finalization) (r : ApplicationRecord) :
    Prop where
  finalization : k.finalization = some x
  record : f.attempts.record x.id = some r
  matches_ : r.matches_ x.envelope.cadence x.evidence = true
  apply : ∀ i status evidence current, k = .commitVerified i status evidence current →
    r.state = .acknowledged ∧ (driftAfter i.envelope.authority current).1 = .none ∧
      evidence.trusted status = true
  verify : ∀ c status evidence current, k = .finalizeCheck c status evidence current →
    c.kind = .verify → evidence.trusted status = true

end Call

section
variable {f : Fabric} {a : Answers} {k : Call} {k' : Option Call} {r r' : ApplicationRecord}

/-- The finalization leaves `Applied` exactly on trusted evidence that matches. -/
theorem ApplicationRecord.finalizeEvidence_applied_iff {cadence : Cadence}
    {evidence : ReadbackEvidence} {readbackOk : Bool} {code : ErrorCode} {now : Instant} :
    (r.finalizeEvidence cadence evidence readbackOk code now).state = .applied ↔
      readbackOk = true ∧ r.matches_ cadence evidence = true := by
  rw [r.finalizeEvidence_state]
  change (if readbackOk = false then ApplicationState.appliedUnverified
    else if r.matches_ cadence evidence then .applied else .mismatched) = .applied ↔ _
  cases readbackOk <;> cases r.matches_ cadence evidence <;> simp

theorem ApplicationRecord.finalizeEvidence_evidenceKind (r : ApplicationRecord) (cadence : Cadence)
    (evidence : ReadbackEvidence) (readbackOk : Bool) (code : ErrorCode) (now : Instant) :
    (r.finalizeEvidence cadence evidence readbackOk code now).evidenceKind = evidence.kind := by
  unfold finalizeEvidence
  dsimp only
  split_ifs <;> rfl

/-- A move into `Applied` that changes more than the flag finalizes matching evidence. -/
theorem RecordStep.applied (h : RecordStep f a k k' (some r) (some r'))
    (hheld : f.attempts.record r.attempt = some r) (happlied : r'.state = .applied)
    (hmoved : r' ≠ { r with requiresRevalidation := r'.requiresRevalidation }) :
    ∃ x, x.id = r.attempt ∧ k.Finalizes f x r ∧ r'.evidenceKind = x.evidence.kind := by
  have hkind := r.finalizeEvidence_evidenceKind
  cases h with
  | keep => exact absurd rfl hmoved
  | flagged => exact absurd rfl hmoved
  | @verified i status evidence current _ _ owned acknowledged current_ =>
    obtain ⟨htrusted, hmatches⟩ := ApplicationRecord.finalizeEvidence_applied_iff.1 happlied
    refine ⟨⟨i.request.attempt, i.envelope, status, evidence, i.now⟩, owned.symm, ⟨rfl, ?_,
      hmatches, ?_, fun _ _ _ _ hk => (by cases hk)⟩, hkind ..⟩
    · rwa [← owned]
    · intro i' status' evidence' current' hk
      obtain ⟨rfl, rfl, rfl, rfl⟩ := Call.commitVerified.inj hk
      exact ⟨acknowledged, current_, htrusted⟩
  | @finalizedVerify c status evidence current _ _ named _ =>
    obtain ⟨htrusted, hmatches⟩ := ApplicationRecord.finalizeEvidence_applied_iff.1 happlied
    refine ⟨⟨c.id, c.envelope, status, evidence, c.now⟩, named.symm, ⟨rfl, ?_, hmatches,
      fun _ _ _ _ hk => (by cases hk), ?_⟩, hkind ..⟩
    · rwa [← named]
    · intro c' status' evidence' current' hk _
      obtain ⟨rfl, rfl, rfl, rfl⟩ := Call.finalizeCheck.inj hk
      exact htrusted
  | @finalizedRevalidate c status evidence current _ _ named kind =>
    obtain ⟨-, hmatches⟩ := ApplicationRecord.finalizeEvidence_applied_iff.1 happlied
    refine ⟨⟨c.id, c.envelope, status, evidence, c.now⟩, named.symm, ⟨rfl, ?_, hmatches,
      fun _ _ _ _ hk => (by cases hk), ?_⟩, hkind ..⟩
    · rwa [← named]
    · intro c' status' evidence' current' hk hverify
      obtain ⟨rfl, rfl, rfl, rfl⟩ := Call.finalizeCheck.inj hk
      rw [kind] at hverify
      cases hverify
  -- a cancellation, like every other move, leads to another state
  | cancelled =>
    unfold Fabric.cancelledRecord at happlied
    split at happlied <;> cases happlied
  | _ => cases happlied

/-- A step that moves an attempt to `Applied` finalizes evidence that matches its record. -/
theorem Call.Applies.finalizes (hwf : f.attempts.WellFormed) {id : AttemptId}
    (h : k.Applies f a id) : ∃ x r, x.id = id ∧ k.Finalizes f x r := by
  obtain ⟨r', hr', happlied, hmoved⟩ := h
  have hmove := (Call.step_moves hwf a k).record id
  rw [hr'] at hmove
  generalize (Call.step f a k).2 = k' at hmove
  cases hr : f.attempts.record id with
  | none =>
    rw [hr] at hmove
    cases hmove
    cases happlied
  | some r =>
    rw [hr] at hmove
    have hid := hwf.record_attempt hr
    obtain ⟨x, hx, hfinal, -⟩ := hmove.applied (hid ▸ hr) happlied (hmoved r hr)
    exact ⟨x, r, hx.trans hid, hfinal⟩

/-- `Applies`, from the states before and after the step. -/
def Call.appliesTest (f : Fabric) (a : Answers) (k : Call) (id : AttemptId) : Bool :=
  ((Call.step f a k).1.attempts.record id).any (fun r => r.state == .applied) &&
    (f.attempts.record id).all fun r => r.state != .applied

theorem Call.applies_of_test {id : AttemptId} (h : k.appliesTest f a id = true) :
    k.Applies f a id := by
  unfold Call.appliesTest at h
  rw [Bool.and_eq_true, Option.any_eq_true] at h
  obtain ⟨⟨r', hr', happlied⟩, hbefore⟩ := h
  have happlied : r'.state = .applied := by simpa using happlied
  refine ⟨r', hr', happlied, fun r hr heq => ?_⟩
  have hsame : r'.state = r.state := (congrArg ApplicationRecord.state heq).trans rfl
  rw [hr, Option.all_some, ← hsame, happlied] at hbefore
  cases hbefore

end

end Pacing
