import PacingFabric.Theorems.ClockOrder
import PacingFabric.Theorems.Commits
import PacingFabric.Theorems.Currency
import PacingFabric.Theorems.Restart

/-!
# A clock that moves backwards

Every reading of the clock is folded into a watch, which raises a flag once a reading is below
the highest one seen. Each operation that authorizes pacing tests the flag when it begins and
again at the start of `fetch_authority`; the sample that `fetch_authority` takes afterwards is
folded into the watch, and nothing tests the flag between that sample and the derivation or
the commit.

## Main definitions

* `recorded`: the coordinator with the readings its calls have taken.
* `heedsClock`: the last sample before a derivation or a commit is not below the highest
  instant seen.

## Main results

* `regression_refused`: then nothing is authorized once a reading went back.
* `regression_overlooked`: an envelope derived after the sample that went back.
-/

namespace Pacing

open Interleaving

/-! ### The watch and the readings -/

/-- The readings, latest first, are not in order: one is below an earlier one. -/
def WentBack (readings : List Instant) : Prop :=
  ¬ readings.Pairwise fun later earlier => earlier.ns ≤ later.ns

namespace ClockWatch

/-- The watch that has folded the readings, latest first. -/
def folded (readings : List Instant) : ClockWatch :=
  readings.foldr (fun now watch => watch.observe now) {}

variable {readings : List Instant}

/-- The watch holds the highest reading, and its flag says that some reading went back. -/
theorem folded_highest (h : (folded readings).regressed = false) :
    ∀ t ∈ readings, t.ns ≤ (folded readings).lastObservedNs := by
  induction readings with
  | nil => simp
  | cons now earlier ih =>
    change ((folded earlier).observe now).regressed = false at h
    intro t ht
    change t.ns ≤ ((folded earlier).observe now).lastObservedNs
    rcases (folded earlier).observe_cases now with hreg | ⟨hle, hlast⟩
    · rw [hreg] at h
      cases h
    · rw [hlast]
      have hclean : (folded earlier).regressed = false := by
        cases hc : (folded earlier).regressed with
        | false => rfl
        | true => rw [regressed_observe hc now] at h; cases h
      rcases List.mem_cons.1 ht with rfl | ht
      · exact UInt64.le_refl _
      · exact UInt64.le_trans (ih hclean t ht) hle

/-- A watch that is trustworthy has seen no reading go back. -/
theorem ordered_of_folded (h : (folded readings).regressed = false) :
    readings.Pairwise fun later earlier => earlier.ns ≤ later.ns := by
  induction readings with
  | nil => exact .nil
  | cons now earlier ih =>
    have hstep : ((folded earlier).observe now).regressed = false := h
    have hclean : (folded earlier).regressed = false := by
      cases hc : (folded earlier).regressed with
      | false => rfl
      | true => rw [regressed_observe hc now] at hstep; cases hstep
    refine .cons (fun t ht => ?_) (ih hclean)
    rcases (folded earlier).observe_cases now with hreg | ⟨hle, -⟩
    · rw [hreg] at hstep
      cases hstep
    · exact UInt64.le_trans (folded_highest hclean t ht) hle

theorem regressed_of_wentBack (h : WentBack readings) : (folded readings).regressed = true := by
  cases hc : (folded readings).regressed with
  | true => rfl
  | false => exact absurd (ordered_of_folded hc) h

end ClockWatch

namespace Call

variable {f : Fabric} {a : Answers}

/-- The step folds a reading of the clock into the watch. -/
def samples : Call → Bool
  | .sample _ | .fetch _ _ (.sample ..) => true
  | _ => false

/-- No locked section reads the clock. -/
theorem lockedState_clock (f : Fabric) (a : Answers) (now : Instant) (request : Request) :
    (lockedState f a now request).clock = f.clock := by
  cases request with
  | advanceEpoch =>
    obtain ⟨_, _, _, _, h⟩ := f.advanceEpoch_frame a now
    rw [lockedState, h]
  | bindFlow binding =>
    obtain ⟨_, _, h⟩ := f.bindFlow_frame a now binding
    rw [lockedState, h]
  | unbindFlow flow =>
    obtain ⟨_, _, h⟩ := f.unbindFlow_frame a now flow
    rw [lockedState, h]
  | unregisterBackend id =>
    obtain ⟨_, h⟩ := f.unregisterBackend_frame id
    rw [lockedState, h]
  | publishPolicy policy =>
    obtain ⟨_, _, h⟩ := f.publishPolicy_frame a now policy
    rw [lockedState, h]
  | removePolicy id =>
    obtain ⟨_, _, h⟩ := f.removePolicy_frame a now id
    rw [lockedState, h]
  | cancelAttempt id reason =>
    obtain ⟨_, _, h⟩ := f.cancelAttempt_frame a now id reason
    rw [lockedState, h]
    split <;> rfl
  | revokeEnvelope ref reason =>
    obtain ⟨_, _, _, h⟩ := f.revokeEnvelope_frame a now ref reason
    rw [lockedState, h]
    split_ifs <;> rfl
  | fenceBelow epoch =>
    obtain ⟨_, _, _, h⟩ := f.fenceBelow_frame a now epoch
    rw [lockedState, h]
    split <;> rfl
  | _ => rfl

/-- Only a sample moves the watch. -/
theorem step_clock (f : Fabric) (a : Answers) (k : Call) :
    (step f a k).1.clock = if k.samples then f.clock.observe a.now else f.clock := by
  cases k with
  | locked request now =>
    exact (congrArg Fabric.clock (lockedStep_fst f a now request)).trans
      (lockedState_clock f a now request)
  | fetch caller flow phase =>
    cases phase with
    | lookup =>
      simp only [step, fetchStep]
      cases f.lookupAuthority flow <;> rfl
    | grant binding policy =>
      simp only [step, fetchStep]
      cases Fabric.checkGrant a.grant <;> rfl
    | _ => rfl
  -- the remaining sections write tables and storage only
  | register now backend desc =>
    obtain ⟨_, _, h⟩ := f.registerBackend_frame a now backend desc
    exact (congrArg Fabric.clock h).trans rfl
  | derive inputs now =>
    obtain ⟨_, _, _, _, _, h, _⟩ := f.deriveEnvelope_frame a now inputs
    exact (congrArg Fabric.clock h).trans rfl
  | reserve p =>
    obtain ⟨_, _, _, _, h⟩ :=
      f.reserveAttempt_frame a p.now p.ref p.backendId p.requested p.envelope p.backend
    rw [step_reserve_fst, h]
    rfl
  | acknowledge i status ack =>
    obtain ⟨_, _, h⟩ := f.acknowledgeAttempt_frame a i.now i.request.attempt status ack
    rw [step_acknowledge_fst, h]
    rfl
  | commitUnverified i current =>
    obtain ⟨_, _, h⟩ := f.commitUnverified_frame a i.now i.request.attempt
      (driftAfter i.envelope.authority current).1 (driftAfter i.envelope.authority current).2
    exact (congrArg Fabric.clock h).trans rfl
  | commitVerified i status evidence current =>
    obtain ⟨_, _, h⟩ := f.commitVerified_frame a i.now i.request.attempt i.envelope status
      evidence (driftAfter i.envelope.authority current).1
      (driftAfter i.envelope.authority current).2
    exact (congrArg Fabric.clock h).trans rfl
  | staleCheck c drift =>
    obtain ⟨_, _, hverify⟩ := f.staleVerify_frame a c.now c.id drift
    obtain ⟨_, _, hrevalidate⟩ := f.staleRevalidate_frame a c.now c.id drift
    cases hk : c.kind <;> simp [step, hk, hverify, hrevalidate, samples]
  | noEvidence c =>
    obtain ⟨_, _, h⟩ := f.noEvidence_frame a c.now c.id
    exact (congrArg Fabric.clock h).trans rfl
  | finalizeCheck c status evidence current =>
    obtain ⟨_, _, hverify⟩ := f.finalizeVerify_frame a c.now c.id c.envelope status evidence
    obtain ⟨_, _, hrevalidate⟩ := f.finalizeRevalidate_frame a c.now c.id c.envelope evidence
    cases hk : c.kind <;> simp [step, hk, hverify, hrevalidate, samples]
  | enter request => cases request <;> rfl
  | stop =>
    simp only [step]
    split <;> rfl
  | _ => rfl

end Call

/-! ### Authorization -/

/-- The callers that derive or commit under what `fetch_authority` returns. -/
def Caller.acts : Caller → Bool
  | .derive _ | .applyAfter .. | .check _ => true
  | .applyBefore _ | .applyUnverified _ => false

namespace Call

variable {f : Fabric} {a : Answers}

/-- The step derives an envelope, or moves an attempt to `Applied`. -/
def Authorizes (f : Fabric) (a : Answers) (k : Call) : Prop :=
  (∃ inputs now envelope, k = .derive inputs now ∧
    (f.deriveEnvelope a inputs now).1 = .ok envelope) ∨ ∃ id, k.Applies f a id

/-- The call has passed the test of the flag, and a derivation or a commit may follow without
another one. -/
def vouched : Call → Bool
  | .fetch _ _ .trust => false
  | .fetch caller _ (.stamp ..) => caller.acts
  | .fetch .. | .derive .. | .readbackCheck .. | .finalizeCheck .. => true
  | .commitVerified _ _ _ (.ok _) => true
  | _ => false

theorem vouched_of_authorizes {k : Call} (hwf : f.attempts.WellFormed)
    (h : k.Authorizes f a) : k.vouched = true := by
  rcases h with ⟨inputs, now, envelope, rfl, -⟩ | ⟨id, happlies⟩
  · rfl
  · obtain ⟨x, r, -, hfinal⟩ := happlies.finalizes hwf
    have hx := hfinal.finalization
    cases k with
    | commitVerified i status evidence current =>
      obtain ⟨-, hcurrent, -⟩ := hfinal.apply _ _ _ _ rfl
      cases current with
      | ok inputs => rfl
      | error status => cases hcurrent
    | finalizeCheck c status evidence current => rfl
    | _ => cases hx

theorem vouched_resume_error (status : Status) (caller : Caller) :
    (resume (.error status) caller).vouched = false := by
  cases caller <;> rfl

/-- Only the callers that act go on to a derivation or a commit. -/
theorem acts_of_vouched_resume {current : StatusOr AuthorityInputs} {caller : Caller}
    (h : (resume current caller).vouched = true) : caller.acts = true := by
  cases caller with
  | applyBefore p =>
    cases current with
    | error status => cases h
    | ok inputs =>
      simp only [resume] at h
      split at h <;> cases h
  | applyUnverified i => cases h
  | _ => rfl

/-- Inside `fetch_authority` the flag is tested first, and folded once more at the sample. -/
theorem vouched_fetch {caller : Caller} {flow : FlowId} {phase : Fetch}
    (hk : (fetch caller flow phase).vouched = true → f.clock.regressed = false)
    (hheeds : ∀ binding policy grant, phase = .sample binding policy grant →
      caller.acts = true → f.clock.lastObservedNs ≤ a.now.ns)
    (hv : (fetchStep f a caller flow phase).2.vouched = true) :
    (fetchStep f a caller flow phase).1.clock.regressed = false := by
  have herror : ∀ status, (resume (.error status) caller).vouched ≠ true := fun status => by
    rw [vouched_resume_error]
    exact Bool.false_ne_true
  cases phase with
  | trust =>
    simp only [fetchStep] at hv ⊢
    split at hv
    · rename_i htrusted
      simpa [ClockWatch.isOk_requireTrustworthy] using htrusted
    · exact absurd hv (herror _)
  | lookup =>
    simp only [fetchStep] at hv ⊢
    cases hlookup : f.lookupAuthority flow with
    | error status =>
      rw [hlookup] at hv
      exact absurd hv (herror _)
    | ok found => exact hk rfl
  | grant binding policy =>
    simp only [fetchStep] at hv ⊢
    cases hgrant : Fabric.checkGrant a.grant with
    | error status =>
      rw [hgrant] at hv
      exact absurd hv (herror _)
    | ok grant => exact hk rfl
  | sample binding policy grant =>
    simp only [fetchStep] at hv ⊢
    split at hv
    · exact absurd hv (herror _)
    -- the caller acts on this sample, so it is not below the highest instant seen
    · have hlast := hheeds binding policy grant rfl hv
      change (f.clock.observe a.now).regressed = false
      rw [ClockWatch.observe_of_le hlast]
      exact hk rfl
  | stamp binding policy grant => exact hk (acts_of_vouched_resume hv)

/-- No other step leads past the test. -/
theorem vouched_of_step {k k' : Call} (hk' : (step f a k).2 = some k')
    (hv : k'.vouched = true) :
    k.vouched = true ∨ ∃ caller flow phase, k = .fetch caller flow phase := by
  cases k with
  | fetch caller flow phase => exact .inr ⟨caller, flow, phase, rfl⟩
  | readbackCheck c backend current => exact .inl rfl
  | locked request now =>
    exfalso
    cases request <;> simp only [step, lockedStep] at hk'
    all_goals repeat' split at hk'
    all_goals first
      | (obtain rfl := Option.some.inj hk'
         unfold withdrawing at hv
         split at hv <;> cases hv)
      | (obtain rfl := Option.some.inj hk'
         unfold rebinding at hv
         split at hv <;> cases hv)
      | (obtain rfl := Option.some.inj hk'
         cases hv)
      | cases hk'
  | enter request =>
    exfalso
    cases request <;> (obtain rfl := Option.some.inj hk'; cases hv)
  | withdraw todo reason reply =>
    obtain rfl := Option.some.inj hk'
    unfold withdrawing at hv
    split at hv <;> cases hv
  | rebind todo epoch reply =>
    obtain rfl := Option.some.inj hk'
    unfold rebinding at hv
    split at hv <;> cases hv
  | _ =>
    exfalso
    simp only [step] at hk'
    repeat' split at hk'
    all_goals first
      | (obtain rfl := Option.some.inj hk'
         cases hv)
      | cases hk'

end Call

/-! ### Sequential runs -/

/-- Within one incarnation, and the sample `fetch_authority` takes for a caller that acts on
it is not below the highest instant seen. -/
def heedsClock (w : World) : Event Call Request Answers → Prop
  | .start _ _ => True
  | .move _ (.fetch caller _ (.sample ..)) a =>
    caller.acts = true → w.shared.clock.lastObservedNs ≤ a.now.ns
  | .move .. => True
  | .restart => False

/-- Calls do not overlap, and heed the clock. -/
def heedsClockAlone (w : World) (e : Event Call Request Answers) : Prop :=
  sequential w e ∧ heedsClock w e

theorem heedsClockAlone_withinIncarnation (w : World) (e : Event Call Request Answers)
    (h : heedsClockAlone w e) : withinIncarnation w e := by
  cases e with
  | restart => exact h.2
  | _ => trivial

/-- While a call is past the test of the flag, the flag is down. -/
theorem vouched_trustworthy {w₀ w : World} {n : ℕ} (h₀ : w₀.Quiet)
    (h : Run coordinator heedsClockAlone w₀ n w) :
    ∀ i k, w.calls i = some k → k.vouched = true → w.shared.clock.regressed = false := by
  refine h.assertion (A := fun f k => k.vouched = true → f.clock.regressed = false)
    (fun _ _ => And.left) (fun f r hv => by cases r <;> cases hv) ?_ h₀
  intro c i k k' a hok hk hk' hv
  by_cases hfetch : ∃ caller flow phase, k = .fetch caller flow phase
  · obtain ⟨caller, flow, phase, rfl⟩ := hfetch
    obtain rfl := Option.some.inj hk'
    refine Call.vouched_fetch hk ?_ hv
    rintro binding policy grant rfl
    exact hok.2
  · have hvouched := (Call.vouched_of_step hk' hv).resolve_right hfetch
    have hsamples : k.samples = false := by
      cases k with
      | fetch caller flow phase => exact absurd ⟨_, _, _, rfl⟩ hfetch
      | sample request => cases hvouched
      | _ => rfl
    change (Call.step c.shared a k).1.clock.regressed = false
    rw [Call.step_clock, hsamples]
    exact hk hvouched

/-- The coordinator with the readings its calls have taken, latest first. -/
def recorded : Program (Fabric × List Instant) Call Request Answers :=
  coordinator.instrument [] fun readings _ a k =>
    if k.samples then a.now :: readings else readings

/-- The readings a successful start takes, latest first. -/
def startReadings (config : FabricConfig) (a : Answers) : List Instant :=
  if Fabric.usesDirectory config then [a.recoverNow, a.now] else [a.now]

theorem initializeFabric_clock {config : FabricConfig} {disk : Disk} {a : Answers}
    (hok : ((Fabric.construct config disk).initializeFabric a).1.isOk = true) :
    ((Fabric.construct config disk).initializeFabric a).2.clock =
      ClockWatch.folded (startReadings config a) := by
  unfold startReadings
  by_cases hdurable : Fabric.usesDirectory config = true
  · obtain ⟨store, disk', hopen⟩ := Fabric.initializeFabric_opened a hdurable hok
    obtain ⟨-, heq⟩ := Fabric.initializeFabric_recover a hdurable hopen hok
    rw [heq, if_pos hdurable]
    exact (Fabric.recover_kept a _ _).2
  · have hunused : ¬ ((Fabric.begun a config disk).config.enableDurability &&
        !(Fabric.begun a config disk).config.durableDirectory.isEmpty) = true := hdurable
    rw [if_neg hdurable, (Fabric.initializeFabric_ok a hok).2, Fabric.openDurable,
      if_neg hunused]
    rfl

/-- The watch holds what the readings of the run fold to. -/
theorem recorded_clock {config : FabricConfig} {disk : Disk} {a : Answers}
    (hstart : ((Fabric.construct config disk).initializeFabric a).1.isOk = true)
    {w : Config (Fabric × List Instant) Call} {n : ℕ}
    (h : Run recorded (fun w e => heedsClockAlone w.erase e)
      (.idle (((Fabric.construct config disk).initializeFabric a).2, startReadings config a))
      n w) : w.shared.1.clock = ClockWatch.folded w.shared.2 := by
  refine h.invariant (I := fun w => w.shared.1.clock = ClockWatch.folded w.shared.2)
    (initializeFabric_clock hstart) ?_
  intro w e w' hw hok hs
  cases hs with
  | start free => exact hw
  | restart _ => exact hok.2.elim
  | @move i k b here =>
    change (Call.step w.shared.1 b k).1.clock =
      ClockWatch.folded (if k.samples then b.now :: w.shared.2 else w.shared.2)
    rw [Call.step_clock]
    split
    · rw [hw]
      rfl
    · exact hw

/-- In a sequential run whose last samples are not below the highest instant seen, nothing is
authorized from the sample on that went back. -/
theorem regression_refused {config : FabricConfig} {disk : Disk} {a : Answers}
    (hstart : ((Fabric.construct config disk).initializeFabric a).1.isOk = true)
    {w : Config (Fabric × List Instant) Call} {n : ℕ}
    (hrun : Run recorded (fun w e => heedsClockAlone w.erase e)
      (.idle (((Fabric.construct config disk).initializeFabric a).2, startReadings config a))
      n w)
    (hback : WentBack w.shared.2) {i : ℕ} {k : Call} (hcall : w.calls i = some k)
    (b : Answers) : ¬ k.Authorizes w.shared.1 b := by
  intro hauthorizes
  have hplain : Run coordinator heedsClockAlone
      (.idle ((Fabric.construct config disk).initializeFabric a).2) n w.erase := hrun.erase
  have hsound : w.erase.shared.Sound :=
    sound_of_run heedsClockAlone_withinIncarnation
      (Fabric.initializeFabric_started a config disk hstart).sound hplain
  have hvouched := Call.vouched_of_authorizes hsound.wellFormed hauthorizes
  have hclean : w.shared.1.clock.regressed = false :=
    vouched_trustworthy (Config.quiet_idle _) hplain i k hcall hvouched
  rw [recorded_clock hstart hrun, ClockWatch.regressed_of_wentBack hback] at hclean
  cases hclean

namespace Scenario

/-- A reading below the ones before it. -/
def backwards : Answers := { answers with now := ⟨1⟩ }

/-- A policy and a binding, and a derivation as far as `n` of its steps. -/
def derivingUpTo (n : ℕ) : List (Action Request Answers) :=
  calls 0 (.publishPolicy policy) 4 ++ calls 0 (.bindFlow binding) 4 ++
    calls 0 (.deriveEnvelope ⟨1⟩) n

/-- The first sample of the derivation goes back, and the flag is tested after it. -/
def regressedEarly : List (Action Request Answers) :=
  derivingUpTo 2 ++ [.move 0 backwards, .move 0 answers, .move 0 answers]

/-- The last sample of the derivation goes back, and nothing tests the flag after it. -/
def regressedLate : List (Action Request Answers) :=
  derivingUpTo 7 ++ [.move 0 backwards, .move 0 answers]

def recording : Config (Fabric × List Instant) Call :=
  .idle (((Fabric.construct config {}).initializeFabric answers).2, startReadings config answers)

/-- `heedsClock` of a move, as a test. -/
def heeds (w : Config (Fabric × List Instant) Call) : Event Call Request Answers → Bool
  | .move _ (.fetch caller _ (.sample ..)) a =>
    !caller.acts || decide (w.shared.1.clock.lastObservedNs ≤ a.now.ns)
  | _ => true

theorem heedsClock_of_heeds (w : Config (Fabric × List Instant) Call)
    (e : Event Call Request Answers) (h : (decide (alone 0 w e) && heeds w e) = true) :
    alone 0 w e ∧ heedsClock w.erase e := by
  rw [Bool.and_eq_true, decide_eq_true_eq] at h
  refine ⟨h.1, ?_⟩
  cases e with
  | start i r => trivial
  | restart => exact h.1
  | move i k a =>
    cases k with
    | fetch caller flow phase =>
      cases phase with
      | sample binding policy grant =>
        intro hacts
        change w.shared.1.clock.lastObservedNs ≤ a.now.ns
        simpa [heeds, hacts] using h.2
      | _ => trivial
    | _ => trivial

end Scenario

/-- After a first sample that goes back the derivation has nothing to return. -/
theorem regression_refused_early :
    ∃ w : Config (Fabric × List Instant) Call,
      w = recorded.exec Scenario.recording Scenario.regressedEarly ∧ WentBack w.shared.2 ∧
      ∀ k, w.calls 0 = some k → ∀ b, ¬ k.Authorizes w.shared.1 b := by
  obtain ⟨n, hn⟩ := Program.run_of_allows (P := recorded) Scenario.heedsClock_of_heeds
    Scenario.regressedEarly (c := Scenario.recording) (by decide +kernel)
  have hrun : Run recorded (fun w e => heedsClockAlone w.erase e) Scenario.recording n
      (recorded.exec Scenario.recording Scenario.regressedEarly) :=
    (Run.sequential_of_alone (Config.quiet_idle _) hn).mono
      fun w e h => ⟨sequential_erase.2 h.1, h.2⟩
  have hback : WentBack (recorded.exec Scenario.recording Scenario.regressedEarly).shared.2 := by
    unfold WentBack
    decide +kernel
  exact ⟨_, rfl, hback, fun k hk b => regression_refused (by decide +kernel) hrun hback hk b⟩

/-- The last sample of a derivation goes back, and the derivation returns its envelope. -/
theorem regression_overlooked :
    ∃ (config : FabricConfig) (disk : Disk) (a : Answers)
      (w : Config (Fabric × List Instant) Call) (n : ℕ),
      ((Fabric.construct config disk).initializeFabric a).1.isOk = true ∧
      Run recorded (fun w e => sequential w e ∧ withinIncarnation w e)
        (.idle (((Fabric.construct config disk).initializeFabric a).2,
          startReadings config a)) n w ∧
      WentBack w.shared.2 ∧
      ∃ k b, w.calls 0 = some k ∧ k.Authorizes w.shared.1 b := by
  obtain ⟨n, hn⟩ := Program.run_of_alone (P := recorded) 0 Scenario.regressedLate
    (c := Scenario.recording) (by decide +kernel)
  have hrun := hn.sequential_within (Config.quiet_idle _)
  have hback : WentBack (recorded.exec Scenario.recording Scenario.regressedLate).shared.2 := by
    unfold WentBack
    decide +kernel
  obtain ⟨inputs, now, envelope, -, hcall, hissued⟩ := @Scenario.of_inserting
    (recorded.exec Scenario.recording Scenario.regressedLate).erase 0 (by decide +kernel)
  generalize recorded.exec Scenario.recording Scenario.regressedLate = w at hrun hback hcall hissued
  exact ⟨Scenario.config, {}, Scenario.answers, w, n, by decide +kernel, hrun, hback, _,
    Scenario.answers, hcall, .inl ⟨inputs, now, envelope, rfl, hissued⟩⟩

end Pacing
