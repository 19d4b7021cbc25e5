import PacingFabric.Theorems.Closed
import PacingFabric.Theorems.Locals

/-!
# Attempts that ended without an effect

An attempt that failed, went stale with its authority or was left ambiguous by a restart is
terminal. `verify_attempt` and `revalidate` look the state up before they read the backend
back, and each refuses some terminal states: the one those that are stale and not those that
failed, the other the other way round. An ambiguous attempt carries the boot of an earlier
incarnation, which the comparison with the current authority finds.

## Main definitions

* `Call.revives`: a check is about to finalize a record its operation has not refused.

## Main results

* `lapsed_stays_lapsed`: without such a step the attempt stays as it ended, without an effect.
* `lapsed_applied`: a verification of a failed attempt applies it, and so does a revalidation
  of a stale one whose authority has come back.
-/

namespace Pacing

open Interleaving

/-- Ended without an effect, by neither an operator nor an epoch. -/
def ApplicationState.isLapsed : ApplicationState → Bool
  | .failed | .stale | .ambiguous => true
  | _ => false

/-- A check is about to finalize a record that failed, or went stale, and that its operation
does not refuse; or an ambiguous one that carries the boot of this incarnation. -/
def Call.revives (f : Fabric) : Call → Prop
  | .finalizeCheck c _ _ _ => ∃ r, f.attempts.record c.id = some r ∧
      (c.kind = .verify ∧ r.state = .failed ∨ c.kind = .revalidate ∧ r.state = .stale ∨
        r.state = .ambiguous ∧ r.authority.coordinatorBoot = f.boot)
  | _ => False

/-- Within one incarnation, and no check finalizes a lapsed record. -/
def sparesLapsed (w : World) : Event Call Request Answers → Prop
  | .start _ _ => True
  | .move _ k _ => ¬ k.revives w.shared
  | .restart => False

/-- Calls do not overlap, and no check finalizes a lapsed record. -/
def sparesLapsedAlone (w : World) (e : Event Call Request Answers) : Prop :=
  sequential w e ∧ sparesLapsed w e

/-! ### What a check has looked up -/

section
variable {f : Fabric} {a : Answers} {k k' : Call}

/-- What a check in flight asserts until its commit: the record it opened is still the one in
the ledger, in a state its operation does not refuse; and from the comparison with the current
authority on, that record carries the boot of this incarnation. -/
structure Call.Reviews (f : Fabric) (k : Call) : Prop where
  opened : ∀ c, k.checking = some c → k ≠ .report c → f.attempts.record c.id = some c.record ∧
    (c.kind = .verify → c.record.state ≠ .stale) ∧
    (c.kind = .revalidate → c.record.state ≠ .failed)
  compared : ∀ c b current, k = .readbackCheck c b current →
    c.record.authority.coordinatorBoot = f.boot
  final : ∀ c status evidence current, k = .finalizeCheck c status evidence current →
    c.record.authority.coordinatorBoot = f.boot

namespace Call

theorem Reviews.of_idle (h : k.idle) : k.Reviews f := by
  have hchecking := h.2.2.2
  refine ⟨fun c hc => ?_, ?_, ?_⟩
  · rw [hchecking] at hc
    cases hc
  · rintro c b current rfl
    cases hchecking
  · rintro c status evidence current rfl
    cases hchecking

/-- A check writes no record before its commit. -/
theorem writesAttempts_of_checking {c : Check} (hc : k.checking = some c)
    (hk' : (step f a k).2 = some k') {c' : Check} (hc' : k'.checking = some c')
    (hreport : k' ≠ .report c') : k.writesAttempts = false := by
  cases k with
  | staleCheck c drift =>
    simp only [step] at hk'
    split at hk' <;> (obtain rfl := Option.some.inj hk'; cases hc')
  | noEvidence c =>
    obtain rfl := Option.some.inj hk'
    cases hc'
  | finalizeCheck c status evidence current =>
    simp only [step] at hk'
    split at hk'
    · obtain rfl := Option.some.inj hk'
      cases hc'
    · obtain rfl := Option.some.inj hk'
      split at hc'
      · rename_i hok
        rw [if_pos hok] at hreport
        exact absurd (congrArg report (Option.some.inj hc')) hreport
      · cases hc'
  | fetch caller flow phase => rfl
  | readbackCheck c b current => rfl
  | report c => rfl
  | _ => cases hc

theorem Reviews.step (h : k.Reviews f) (hk' : (step f a k).2 = some k') :
    k'.Reviews (Call.step f a k).1 := by
  have hcarries := step_carries k hk'
  have hframe := step_frame f a k
  refine ⟨fun c hc hreport => ?_, fun c b current hread => ?_,
    fun c status evidence current hfinal => ?_⟩
  · rcases hcarries.checking c hc with hbefore | ⟨rfl, hkind, b, hopen, -⟩ | ⟨rfl, hkind, hopen⟩
    · have hleft : k ≠ .report c := by
        rintro rfl
        obtain rfl := Option.some.inj hk'
        cases hc
      rw [hframe.attempts (writesAttempts_of_checking hbefore hk' hc hreport)]
      exact h.opened c hbefore hleft
    · obtain ⟨hrecord, hstale⟩ := Fabric.openVerify_ok hopen
      rw [hframe.attempts rfl]
      refine ⟨hrecord, fun _ => hstale, fun hother => ?_⟩
      rw [hkind] at hother
      cases hother
    · obtain ⟨hrecord, hfailed⟩ := Fabric.openRevalidate_ok hopen
      rw [hframe.attempts rfl]
      refine ⟨hrecord, fun hother => ?_, fun _ => hfailed⟩
      rw [hkind] at hother
      cases hother
  · obtain ⟨-, hauthority, hboot⟩ := hcarries.looked c b current hread
    rw [hframe.boot, hauthority, hboot]
  · obtain ⟨b, rfl, -⟩ := hcarries.finalizes c status evidence current hfinal
    rw [hframe.boot]
    exact h.compared c b current rfl

end Call

/-! ### Lapsed records -/

/-- A lapsed record stays lapsed through every step that does not finalize a check of it. -/
theorem RecordStep.lapsed {o : Option Call} {r r' : ApplicationRecord}
    (h : RecordStep f a k o (some r) (some r')) (hlapsed : r.state.isLapsed = true)
    (hspares : ∀ c status evidence current, k = .finalizeCheck c status evidence current →
      r.attempt ≠ c.id) : r'.state.isLapsed = true := by
  have hterm : r.state.isTerminal = true := by
    cases hs : r.state <;> simp_all [ApplicationState.isLapsed, ApplicationState.isTerminal]
  have hsettled : r.state.isSettled = true := by
    cases hs : r.state <;> simp_all [ApplicationState.isLapsed, ApplicationState.isSettled]
  cases h with
  | keep | flagged => exact hlapsed
  | stale => rfl
  | finalizedVerify named => exact absurd named (hspares _ _ _ _ rfl)
  | finalizedRevalidate named => exact absurd named (hspares _ _ _ _ rfl)
  | unconfirmed _ inFlight => simp [hterm] at inFlight
  | refused => rfl
  | acknowledged _ hs => simp [hs, ApplicationState.isLapsed] at hlapsed
  | driftedUnverified _ hs => rfl
  | unverified _ hs => simp [hs, ApplicationState.isLapsed] at hlapsed
  | driftedVerified _ hs => rfl
  | verified _ hs => simp [hs, ApplicationState.isLapsed] at hlapsed
  | cancelled _ unsettled => simp [hsettled] at unsettled
  | revoked unsettled => simp [hsettled] at unsettled
  | fenced _ unsettled => simp [hsettled] at unsettled
  | epochFenced _ _ unsettled => simp [hsettled] at unsettled

end

theorem sparesLapsedAlone_withinIncarnation (w : World) (e : Event Call Request Answers)
    (h : sparesLapsedAlone w e) : sequential w e ∧ withinIncarnation w e := by
  cases e with
  | restart => exact ⟨h.1, h.2⟩
  | _ => exact ⟨h.1, trivial⟩

/-- Over a sequential run of one incarnation every check in flight asserts `Reviews`. -/
theorem reviews_of_run {w₀ w : World} {n : ℕ} (h₀ : w₀.Quiet)
    (h : Run coordinator (fun w e => sequential w e ∧ withinIncarnation w e) w₀ n w) :
    ∀ i k, w.calls i = some k → k.Reviews w.shared :=
  h.assertion (fun _ _ => And.left) (fun _ r => .of_idle (Call.idle_begin r))
    (fun _ _ _ _ _ _ hk hk' => hk.step hk') h₀

/-- In a sequential run of one incarnation: from a state on in which an attempt has failed, is
stale or is ambiguous it stays one of these and has no effect, whatever the backends answer,
as long as no check revives a record. -/
theorem lapsed_stays_lapsed {config : FabricConfig} {disk : Disk} {a : Answers}
    (hstart : ((Fabric.construct config disk).initializeFabric a).1.isOk = true)
    {w w' : World} {n m : ℕ}
    (hrun : Run coordinator (fun w e => sequential w e ∧ withinIncarnation w e)
      (.idle ((Fabric.construct config disk).initializeFabric a).2) n w)
    (hrun' : Run coordinator sparesLapsedAlone w m w') {id : AttemptId} {r : ApplicationRecord}
    (hr : w.shared.attempts.record id = some r) (hlapsed : r.state.isLapsed = true) :
    ∃ r', w'.shared.attempts.record id = some r' ∧ r'.state.isLapsed = true ∧
      r'.effect = .none := by
  have hsound : w.shared.Sound := sound_of_run (fun _ _ => And.right)
    (Fabric.initializeFabric_started a config disk hstart).sound hrun
  have hreviewed : Run coordinator (fun v e => sparesLapsed v e ∧
      ∀ i k, v.calls i = some k → k.Reviews v.shared) w m w' := by
    refine hrun'.allow fun m v e hv hok => ⟨hok.2, ?_⟩
    exact reviews_of_run (Config.quiet_idle _)
      (hrun.trans (hv.mono sparesLapsedAlone_withinIncarnation))
  have hkept : w'.shared.Sound ∧
      ∃ r', w'.shared.attempts.record id = some r' ∧ r'.state.isLapsed = true := by
    refine hreviewed.invariant (I := fun w' => w'.shared.Sound ∧
      ∃ r', w'.shared.attempts.record id = some r' ∧ r'.state.isLapsed = true)
      ⟨hsound, r, hr, hlapsed⟩ ?_
    rintro v e v' ⟨hv, x, hx, hxs⟩ ⟨hspares, hreviews⟩ hs
    cases hs with
    | start _ => exact ⟨hv, x, hx, hxs⟩
    | restart _ => exact hspares.elim
    | @move i k b here =>
      refine ⟨hv.step _ _, ?_⟩
      have hmove := (Call.step_moves hv.wellFormed b k).record id
      rw [hx] at hmove
      obtain ⟨x', hx'⟩ := hmove.isSome
      rw [hx'] at hmove
      refine ⟨x', hx', hmove.lapsed hxs ?_⟩
      -- a check that comes to finalize a lapsed record would revive it
      rintro c status evidence current rfl hid
      have hreview := hreviews i _ here
      obtain ⟨hopened, hverify, hrevalidate⟩ := hreview.opened c rfl fun h => by cases h
      have hboot := hreview.final c status evidence current rfl
      obtain rfl : x = c.record := by
        rw [← hid, hv.wellFormed.record_attempt hx, hx] at hopened
        exact Option.some.inj hopened
      refine hspares ⟨c.record, hopened, ?_⟩
      cases hstate : c.record.state with
      | failed =>
        cases hkind : c.kind with
        | verify => exact .inl ⟨rfl, rfl⟩
        | revalidate => exact absurd hstate (hrevalidate hkind)
      | stale =>
        cases hkind : c.kind with
        | verify => exact absurd hstate (hverify hkind)
        | revalidate => exact .inr (.inl ⟨rfl, rfl⟩)
      | ambiguous => exact .inr (.inr ⟨rfl, hboot⟩)
      | _ =>
        rw [hstate] at hxs
        cases hxs
  obtain ⟨hsound', r', hr', hs⟩ := hkept
  refine ⟨r', hr', hs, ?_⟩
  have hlabel := hsound'.labelled id r' hr'
  rw [ApplicationRecord.Labelled] at hlabel
  rw [hlabel]
  cases hstate : r'.state with
  | failed | stale | ambiguous => rfl
  | _ =>
    rw [hstate] at hs
    cases hs

namespace Scenario

/-- The backend turns every request down. -/
def rejecting : Answers := { answers with ack := { attempt := ⟨1⟩, accepted := false } }

/-- A policy of the flow itself, which takes precedence over that of its resource. -/
def overriding : PacingPolicy := { policy with ref := ⟨⟨2⟩, ⟨1⟩⟩, layer := .flow, flow := ⟨1⟩ }

/-- An apply the backend turns down. -/
def applyRejected : List (Action Request Answers) :=
  setup ++ .start 0 (.applyEnvelope ⟨⟨1⟩, ⟨1⟩⟩ ⟨1⟩ {}) :: List.replicate 13 (.move 0 rejecting)

/-- An apply, and a verification of it under a policy that overrides the one it was derived
from. -/
def applyOverridden : List (Action Request Answers) :=
  setup ++ calls 0 (.applyEnvelope ⟨⟨1⟩, ⟨1⟩⟩ ⟨1⟩ {}) 22 ++
    calls 0 (.publishPolicy overriding) 4 ++ calls 0 (.verifyAttempt ⟨1⟩) 11

/-- A step of thread `0` on its own that finalizes no check. -/
def sparing (w : World) : Event Call Request Answers → Bool
  | .move _ (.finalizeCheck ..) _ => false
  | e => decide (alone 0 w e)

theorem sparesLapsed_of_sparing (w : World) (e : Event Call Request Answers)
    (h : sparing w e = true) : alone 0 w e ∧ sparesLapsed w e := by
  cases e with
  | start i r => exact ⟨of_decide_eq_true h, trivial⟩
  | restart => cases h
  | move i k a =>
    cases k with
    | finalizeCheck c status evidence current => cases h
    | _ => exact ⟨of_decide_eq_true h, id⟩

/-- The first attempt was in `state`, and is applied. -/
def turned (w w' : World) (state : ApplicationState) : Bool :=
  (w.shared.attempts.record ⟨1⟩).any (fun r => r.state == state) &&
    (w'.shared.attempts.record ⟨1⟩).any fun r =>
      r.state == .applied && r.effect == .syntheticVerified

theorem of_turned {w w' : World} {state : ApplicationState} (h : turned w w' state = true) :
    ∃ r r', w.shared.attempts.record ⟨1⟩ = some r ∧ r.state = state ∧
      w'.shared.attempts.record ⟨1⟩ = some r' ∧ r'.state = .applied ∧
      r'.effect = .syntheticVerified := by
  simp only [turned, Bool.and_eq_true, Option.any_eq_true, beq_iff_eq] at h
  obtain ⟨⟨r, hr, hstate⟩, r', hr', happlied, heffect⟩ := h
  exact ⟨r, r', hr, hstate, hr', happlied, heffect⟩

theorem run_applyOverridden :
    (∃ n, Run coordinator (alone 0) started n (coordinator.exec started applyOverridden)) ∧
      (coordinator.exec started applyOverridden).Quiet := by
  obtain ⟨n, hn⟩ := Program.run_of_alone (P := coordinator) 0 applyOverridden
    (c := started) (by decide +kernel)
  exact ⟨⟨n, hn⟩, hn.quiet_of_alone (Config.quiet_idle _) (by decide +kernel)⟩

end Scenario

/-- A verification of a stale attempt is refused, also when its authority has come back. -/
theorem lapsed_stays_lapsed_refused :
    ∃ r, (coordinator.exec (coordinator.exec Scenario.started Scenario.applyOverridden)
        (Scenario.calls 0 (.removePolicy ⟨2⟩) 4 ++
          Scenario.calls 0 (.verifyAttempt ⟨1⟩) 5)).shared.attempts.record ⟨1⟩ = some r ∧
      r.state.isLapsed = true ∧ r.effect = .none := by
  obtain ⟨⟨n, hn⟩, hquiet⟩ := Scenario.run_applyOverridden
  obtain ⟨m, hm⟩ := Program.run_of_allows (P := coordinator) Scenario.sparesLapsed_of_sparing
    (Scenario.calls 0 (.removePolicy ⟨2⟩) 4 ++ Scenario.calls 0 (.verifyAttempt ⟨1⟩) 5)
    (c := coordinator.exec Scenario.started Scenario.applyOverridden) (by decide +kernel)
  have hstale : ((coordinator.exec Scenario.started
      Scenario.applyOverridden).shared.attempts.record ⟨1⟩).map (·.state) = some .stale := by
    decide +kernel
  obtain ⟨r, hr, hs⟩ := Option.map_eq_some_iff.1 hstale
  exact @lapsed_stays_lapsed Scenario.config {} Scenario.answers (by decide +kernel) _ _ _ _
    (hn.sequential_within (Config.quiet_idle _)) (Run.sequential_of_alone hquiet hm) _ _ hr
    (by rw [hs]; rfl)

/-- A failed attempt is verified, and a stale one whose authority has come back is
revalidated: either is applied, with an effect. -/
theorem lapsed_applied :
    ∃ (config : FabricConfig) (disk : Disk) (a : Answers),
      ((Fabric.construct config disk).initializeFabric a).1.isOk = true ∧
      ∀ state, state = ApplicationState.failed ∨ state = .stale →
        ∃ (w w' : World) (n m : ℕ),
          Run coordinator (fun w e => sequential w e ∧ withinIncarnation w e)
            (.idle ((Fabric.construct config disk).initializeFabric a).2) n w ∧
          Run coordinator (fun w e => sequential w e ∧ withinIncarnation w e) w m w' ∧
          ∃ r r', w.shared.attempts.record ⟨1⟩ = some r ∧ r.state = state ∧
            w'.shared.attempts.record ⟨1⟩ = some r' ∧ r'.state = .applied ∧
            r'.effect = .syntheticVerified := by
  refine ⟨Scenario.config, {}, Scenario.answers, by decide +kernel, ?_⟩
  rintro state (rfl | rfl)
  · obtain ⟨n, hn⟩ := Program.run_of_alone (P := coordinator) 0
      Scenario.applyRejected (c := Scenario.started) (by decide +kernel)
    have hquiet := hn.quiet_of_alone (Config.quiet_idle _) (by decide +kernel)
    obtain ⟨m, hm⟩ := Program.run_of_alone (P := coordinator) 0
      (Scenario.calls 0 (.verifyAttempt ⟨1⟩) 12)
      (c := coordinator.exec Scenario.started Scenario.applyRejected) (by decide +kernel)
    obtain ⟨r, r', hr, hfailed, hr', happlied⟩ := @Scenario.of_turned
      (coordinator.exec Scenario.started Scenario.applyRejected)
      (coordinator.exec (coordinator.exec Scenario.started Scenario.applyRejected)
        (Scenario.calls 0 (.verifyAttempt ⟨1⟩) 12)) .failed (by decide +kernel)
    exact ⟨_, _, n, m, hn.sequential_within (Config.quiet_idle _), hm.sequential_within hquiet,
      r, r', hr, hfailed, hr', happlied⟩
  · obtain ⟨⟨n, hn⟩, hquiet⟩ := Scenario.run_applyOverridden
    obtain ⟨m, hm⟩ := Program.run_of_alone (P := coordinator) 0
      (Scenario.calls 0 (.removePolicy ⟨2⟩) 4 ++ Scenario.calls 0 (.revalidate ⟨1⟩) 13)
      (c := coordinator.exec Scenario.started Scenario.applyOverridden) (by decide +kernel)
    obtain ⟨r, r', hr, hstale, hr', happlied⟩ := @Scenario.of_turned
      (coordinator.exec Scenario.started Scenario.applyOverridden)
      (coordinator.exec (coordinator.exec Scenario.started Scenario.applyOverridden)
        (Scenario.calls 0 (.removePolicy ⟨2⟩) 4 ++ Scenario.calls 0 (.revalidate ⟨1⟩) 13))
      .stale (by decide +kernel)
    exact ⟨_, _, n, m, hn.sequential_within (Config.quiet_idle _), hm.sequential_within hquiet,
      r, r', hr, hstale, hr', happlied⟩

end Pacing
