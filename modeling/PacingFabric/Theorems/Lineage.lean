import PacingFabric.Theorems.Pending

/-!
# The life of an attempt

Within one incarnation an attempt is never forgotten and never put to other work, and it only
moves forward: from submitted over acknowledged to a terminal state, between which
verification, revalidation and the closing operations may then move it.

## Main definitions

* `ApplicationState.phase`: how far an attempt has got.

## Main results

* `RecordStep.phase_le`, `RecordStep.revision_le`: no step of any call takes an attempt back.
* `attempts_advance`: over every run within an incarnation.
-/

namespace Pacing

open Interleaving

/-- How far an attempt has got: nothing leads back from one phase to an earlier one. -/
def ApplicationState.phase (s : ApplicationState) : ℕ :=
  match s with
  | .unknown | .planned | .reserved => 0
  | .submitted => 1
  | .acknowledged => 2
  | _ => 3

theorem ApplicationState.phase_le_of_isTerminal {s s' : ApplicationState}
    (h : s'.isTerminal = true) : s.phase ≤ s'.phase := by
  cases s' <;> cases h <;> cases s <;> decide

/-- No step of any call takes an attempt back. -/
theorem RecordStep.phase_le {f : Fabric} {a : Answers} {k : Call} {k' : Option Call}
    {r r' : ApplicationRecord} (h : RecordStep f a k k' (some r) (some r')) :
    r.state.phase ≤ r'.state.phase := by
  have hfinal : ∀ cadence evidence ok code now, r.state.phase ≤
      (r.finalizeEvidence cadence evidence ok code now).state.phase := by
    intro cadence evidence ok code now
    refine ApplicationState.phase_le_of_isTerminal ?_
    rw [ApplicationRecord.finalizeEvidence_state]
    split_ifs <;> rfl
  cases h with
  | keep => exact le_rfl
  | acknowledged _ submitted =>
    rw [submitted]
    exact Nat.le_succ 1
  | flagged => exact le_rfl
  | verified | finalizedVerify => exact hfinal ..
  | finalizedRevalidate => exact hfinal ..
  | cancelled =>
    refine ApplicationState.phase_le_of_isTerminal ?_
    unfold Fabric.cancelledRecord
    split <;> rfl
  | _ => exact ApplicationState.phase_le_of_isTerminal rfl

theorem ApplicationRecord.transition_revision (r : ApplicationRecord) (next : ApplicationState)
    (now : Instant) (reason : ErrorCode) (detail : Bytes) :
    r.revision ≤ (r.transition next now reason detail).revision := by
  unfold transition
  dsimp only
  split
  · rename_i hmax
    have hne : r.revision.toNat ≠ 2 ^ 64 - 1 := fun h => by
      simp only [bne_iff_ne, ne_eq] at hmax
      exact hmax (UInt64.toNat_inj.1 h)
    have hlt := r.revision.toNat_lt
    rw [UInt64.le_iff_toNat_le, UInt64.toNat_add, UInt64.toNat_one]
    omega
  · exact UInt64.le_refl _

theorem ApplicationRecord.finalizeEvidence_revision (r : ApplicationRecord) (cadence : Cadence)
    (evidence : ReadbackEvidence) (readbackOk : Bool) (code : ErrorCode) (now : Instant) :
    r.revision ≤ (r.finalizeEvidence cadence evidence readbackOk code now).revision := by
  unfold finalizeEvidence
  dsimp only
  split_ifs <;> exact (r.withEvidence evidence).transition_revision ..

/-- No step of any call takes a revision back. -/
theorem RecordStep.revision_le {f : Fabric} {a : Answers} {k : Call} {k' : Option Call}
    {r r' : ApplicationRecord} (h : RecordStep f a k k' (some r) (some r')) :
    r.revision ≤ r'.revision := by
  cases h with
  | keep => exact UInt64.le_refl _
  | flagged => exact UInt64.le_refl _
  | verified | finalizedVerify => exact r.finalizeEvidence_revision ..
  | @finalizedRevalidate c _ evidence =>
    exact r.finalizeEvidence_revision c.envelope.cadence evidence true .ok c.now
  | @unverified i =>
    exact r.transition_revision .appliedUnverified i.now .readbackUnavailable
      "backend does not support readback; effect is UNKNOWN"
  | @stale c drift =>
    exact r.transition_revision .stale c.now drift.code (Fabric.driftDetail drift)
  | @acknowledged i _ ack _ =>
    exact { r with backendSeq := ack.backendSeq }.transition_revision ..
  | cancelled =>
    unfold Fabric.cancelledRecord
    split <;> exact r.transition_revision ..
  | _ => exact r.transition_revision ..

/-- Within an incarnation, from any world that can be reached: an attempt stays in the ledger
with the work it was reserved for, and only gets further. -/
theorem attempts_advance {w₀ w : World} (h₀ : w₀.Reachable) {n : ℕ}
    (h : Run coordinator withinIncarnation w₀ n w) {id : AttemptId} {r : ApplicationRecord}
    (hr : w₀.shared.attempts.record id = some r) :
    ∃ r', w.shared.attempts.record id = some r' ∧ r.SameWork r' ∧
      r.state.phase ≤ r'.state.phase ∧ r.revision ≤ r'.revision := by
  induction h with
  | zero => exact ⟨r, hr, .refl r, le_rfl, UInt64.le_refl _⟩
  | @succ n c c' e hrun hok hs ih =>
    obtain ⟨r', hr', hsame, hphase, hrevision⟩ := ih
    cases hs with
    | start free => exact ⟨r', hr', hsame, hphase, hrevision⟩
    | restart h => exact hok.elim
    | @move i k a here =>
      obtain ⟨m, hm⟩ := h₀
      have hreachable : World.Reachable c := ⟨_, hm.trans (hrun.mono fun _ _ _ => trivial)⟩
      have hwf := hreachable.counted.wellFormed
      obtain ⟨r'', hr'', hsame'⟩ := Call.record_kept hwf a k hr'
      have hmove := (Call.step_moves hwf a k).record id
      rw [hr', hr''] at hmove
      exact ⟨r'', hr'', hsame.trans hsame', hphase.trans hmove.phase_le,
        UInt64.le_trans hrevision hmove.revision_le⟩

namespace Scenario

/-- An attempt is reserved, and installed later. -/
def reservedWorld : World := coordinator.exec started (setup ++ reserved 1 1 {})

/-- The rest of the apply. -/
def installs : List (Action Request Answers) := List.replicate 12 (.move 1 answers)

end Scenario

/-- The attempt that was reserved is applied in the end, and never was another one. -/
theorem attempts_advance_applied :
    ∃ r r', Scenario.reservedWorld.shared.attempts.record ⟨1⟩ = some r ∧
      (coordinator.exec Scenario.reservedWorld Scenario.installs).shared.attempts.record ⟨1⟩ =
        some r' ∧ r.state.phase = 1 ∧ r'.state = .applied ∧ r.SameWork r' := by
  obtain ⟨n, hn⟩ := coordinator.run_exec Scenario.started
    (Scenario.setup ++ Scenario.reserved 1 1 {})
  have hrun : Run coordinator anyStep Scenario.started n _ := hn.mono fun _ _ _ => trivial
  have hreachable : World.Reachable Scenario.reservedWorld := Scenario.run_started (by trivial) hrun
  obtain ⟨m, hm⟩ := coordinator.run_exec Scenario.reservedWorld Scenario.installs
  have hbefore : (Scenario.reservedWorld.shared.attempts.record ⟨1⟩).any
      (fun r => r.state == .submitted) = true := by decide +kernel
  have hafter : ((coordinator.exec Scenario.reservedWorld
      Scenario.installs).shared.attempts.record ⟨1⟩).any (fun r => r.state == .applied) = true := by
    decide +kernel
  obtain ⟨r, hr, hsubmitted⟩ := (Option.any_eq_true _ _).1 hbefore
  obtain ⟨r'', hr'', happlied⟩ := (Option.any_eq_true _ _).1 hafter
  obtain ⟨r', hr', hsame, -, -⟩ := attempts_advance hreachable hm hr
  obtain rfl : r'' = r' := Option.some.inj (hr''.symm.trans hr')
  refine ⟨r, r'', hr, hr', ?_, by simpa using happlied, hsame⟩
  rw [show r.state = .submitted by simpa using hsubmitted]
  rfl

end Pacing
