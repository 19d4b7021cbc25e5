import PacingFabric.Model.Control
import PacingFabric.Theorems.Closed

/-!
# The stamp of a request

A dispatch compares the epoch of its stamp in one locked read and the nonce in another, and
then runs its operation. What it read holds where the operation first takes effect as long
as no other connection advances the epoch in between; the counter is never compared, and a
zero nonce is not either.

## Main definitions

* `CallerStamp.Current`: the stamp names the epoch and the boot the coordinator holds.
* `Dispatch.Respects`: what the stamp promises of one step.
* `stampsHold`: the steps under which it does.

## Main results

* `dispatch_respects`: every step of every dispatch respects its stamp.
* `dispatch_overtaken`: without the condition neither half of the check suffices.
-/

namespace Pacing

open Interleaving

variable {limits : Limits} {f : Fabric} {a : Answers}

/-- The stamp names the current epoch and boot. -/
def CallerStamp.Current (s : CallerStamp) (f : Fabric) : Prop :=
  s.epoch = f.epoch.value ∧ s.bootCounter = f.boot.counter ∧ s.bootNonce = f.boot.nonce

/-- More has changed than the reading of the clock and the count of guards. -/
def Fabric.Changed (f f' : Fabric) : Prop :=
  f' ≠ { f with clock := f'.clock, activeOperations := f'.activeOperations }

namespace Call

/-- What an application does once its attempt is reserved, which is its first effect. -/
def resumes : Call → Bool
  | .acknowledge .. | .commitUnverified .. | .commitVerified .. => true
  | _ => false

/-- The first effect is still to come. -/
def pending : Call → Bool
  | .enter _ | .trust _ | .sample _ | .locked .. | .describe .. | .register .. => true
  | .fetch (.derive _) .. | .fetch (.applyBefore _) .. | .fetch (.check _) .. => true
  | .derive .. | .reserve _ => true
  | .staleCheck .. | .readbackCheck .. | .noEvidence _ | .finalizeCheck .. => true
  | .stop | .drain | .detach | .clear => true
  | _ => false

/-- An operation that is past its first effect, and does not resume one, changes nothing. -/
theorem step_idle {k : Call} (hpending : k.pending = false) (hresumes : k.resumes = false) :
    ¬ f.Changed (step f a k).1 := by
  refine not_not.2 ?_
  cases k with
  | fetch caller flow phase =>
    obtain ⟨clock, h⟩ := fetchStep_fst f a caller flow phase
    rw [show (step f a (.fetch caller flow phase)).1 = _ from h]
  | acknowledge | commitUnverified | commitVerified => cases hresumes
  | install | describeReadback | readback | report | withdraw | rebind | leave => rfl
  | _ => cases hpending

theorem withdrawing_pending (todo : List Withdrawal) (reason : Bytes) (reply : Reply) :
    (withdrawing todo reason reply).pending = false := by
  unfold withdrawing
  split <;> rfl

theorem rebinding_pending (todo : List BackendPtr) (epoch : Epoch) (reply : Reply) :
    (rebinding todo epoch reply).pending = false := by
  unfold rebinding
  split <;> rfl

theorem resume_pending (current : StatusOr AuthorityInputs) (caller : Caller)
    (h : (fetch caller ⟨0⟩ .trust).pending = false) : (resume current caller).pending = false := by
  cases caller with
  | applyUnverified install => rfl
  | applyAfter install status evidence => rfl
  | _ => cases h

/-- What comes after the first effect comes after it for good. -/
theorem step_pending {k k' : Call} (hpending : k.pending = false)
    (h : (step f a k).2 = some k') : k'.pending = false := by
  cases k with
  | install i => obtain rfl := Option.some.inj h; rfl
  | acknowledge i status ack =>
    simp only [step] at h
    split at h <;> obtain rfl := Option.some.inj h <;> rfl
  | describeReadback i =>
    obtain rfl := Option.some.inj h
    split <;> rfl
  | readback i => obtain rfl := Option.some.inj h; rfl
  | commitUnverified i current =>
    simp only [step] at h
    obtain rfl := Option.some.inj h
    split <;> rfl
  | commitVerified i status evidence current =>
    simp only [step] at h
    obtain rfl := Option.some.inj h
    split <;> rfl
  | fetch caller flow phase =>
    -- whether a fetch is pending depends on who called it, not on its phase
    have hcaller : (fetch caller ⟨0⟩ .trust).pending = false := by
      cases caller <;> first | rfl | exact hpending
    have hstays : ∀ phase', (fetch caller flow phase').pending = false := by
      intro phase'
      cases caller <;> first | rfl | exact hpending
    obtain rfl := Option.some.inj h
    cases phase <;> dsimp only [fetchStep]
    all_goals repeat' split
    all_goals first
      | exact hstays _
      | exact resume_pending (.error _) _ hcaller
      | exact resume_pending _ _ hcaller
  | report c => obtain rfl := Option.some.inj h; rfl
  | withdraw todo reason reply =>
    obtain rfl := Option.some.inj h
    exact withdrawing_pending ..
  | rebind todo epoch reply =>
    obtain rfl := Option.some.inj h
    exact rebinding_pending ..
  | leave reply => cases h
  | _ => cases hpending

/-- The epoch advances where an `advance_epoch` finds the coordinator running and has a next
one. -/
def advances (f : Fabric) : Call → Bool
  | .locked .advanceEpoch _ => f.running && !f.epoch.advanced.2
  | _ => false

theorem step_epoch {k : Call} (h : k.advances f = false) : (step f a k).1.epoch = f.epoch := by
  by_cases hk : k.writesEpoch = false
  · exact (step_frame f a k).epoch hk
  cases k with
  | locked request now =>
    cases request with
    | advanceEpoch =>
      have hstep : (step f a (.locked .advanceEpoch now)).1 = (f.advanceEpoch a now).2 :=
        lockedStep_fst f a now .advanceEpoch
      rw [hstep]
      unfold Fabric.advanceEpoch
      split
      · rfl
      · rename_i hrun
        have hexhausted : f.epoch.advanced.2 = true := by
          simpa [advances, show f.running = true by simpa using hrun] using h
        unfold Fabric.advanceEpochLocked
        dsimp only
        rw [if_pos hexhausted]
    | _ => exact absurd rfl hk
  | _ => exact absurd rfl hk

/-- An advance is the first effect of its call. -/
theorem step_advances {k : Call} (h : k.writesEpoch = true) (k' : Call)
    (hnext : (step f a k).2 = some k') : k'.pending = false := by
  cases k with
  | locked request now =>
    cases request with
    | advanceEpoch =>
      simp only [step, lockedStep] at hnext
      split at hnext
      · obtain rfl := Option.some.inj hnext
        rfl
      · obtain rfl := Option.some.inj hnext
        exact rebinding_pending ..
    | _ => cases h
  | _ => cases h

end Call

namespace Dispatch

/-- The stamp has been compared, or half of it, and the operation has had no effect yet. -/
def pending : Dispatch → Bool
  | .checkBoot _ => true
  | .decode r => r.op != .epoch && r.op != .stop
  | .operate _ k => k.pending
  | _ => false

/-- What the checks read of the stamp. -/
def Vouched (f : Fabric) : Dispatch → Prop
  | .checkBoot r => r.stamp.epoch = f.epoch.value
  | .decode r => r.op ≠ .epoch → r.op ≠ .stop → r.stamp.Current f
  | .operate r k => k.pending = true → r.stamp.Current f
  | _ => True

/-- What the stamp promises: a step that refuses answers so, a step that has the first effect
finds the stamp current, and no other step has one. -/
def Respects (limits : Limits) (f : Fabric) (a : Answers) : Dispatch → Prop
  | .check r => r.stamp.epoch ≠ f.epoch.value → ∃ detail,
      step limits f a (.check r) = (f, some (.respond (.failure .staleEpoch detail)))
  | .checkBoot r => ¬ (r.stamp.bootCounter = f.boot.counter ∧ r.stamp.bootNonce = f.boot.nonce) →
      ∃ detail,
        step limits f a (.checkBoot r) = (f, some (.respond (.failure .staleBoot detail)))
  | .operate r k => k.resumes = false → f.Changed (step limits f a (.operate r k)).1 →
      r.stamp.Current f
  | d => ¬ f.Changed (step limits f a d).1

theorem Vouched.of_eq {f f' : Fabric} {d : Dispatch} (h : d.Vouched f)
    (hboot : f'.boot = f.boot) (hepoch : f'.epoch = f.epoch) : d.Vouched f' := by
  cases d <;> simp only [Vouched, CallerStamp.Current, hboot, hepoch] at h ⊢ <;> exact h

theorem Vouched.of_settled {d : Dispatch} (h : d.pending = false) : d.Vouched f := by
  cases d with
  | checkBoot r => cases h
  | decode r =>
    intro hepoch hstop
    simp [pending, hepoch, hstop] at h
  | operate r k =>
    intro hk
    rw [show k.pending = false from h] at hk
    cases hk
  | _ => trivial

end Dispatch

/-- What the checks leave open: a stamp with a zero nonce or another counter that gets past
the boot check, and an advance of the epoch while another dispatch is between its comparison
and its first effect. -/
def stampsHold (w : Config Fabric Dispatch) : Event Dispatch ControlRequest Answers → Prop
  | .start _ _ => True
  | .move _ (.checkBoot r) _ =>
    (r.stamp.bootNonce ≠ 0 ∧ r.stamp.bootNonce ≠ w.shared.boot.nonce) ∨
      (r.stamp.bootNonce = w.shared.boot.nonce ∧ r.stamp.bootCounter = w.shared.boot.counter)
  | .move i (.operate _ k) _ =>
    k.advances w.shared = true → ∀ j d, j ≠ i → w.calls j = some d → d.pending = false
  | .move _ _ _ => True
  | .restart => False

namespace Dispatch

theorem fetchAuthority_frame (flow : FlowId) :
    ∃ clock, (f.fetchAuthority a flow).2 = { f with clock := clock } := by
  unfold Fabric.fetchAuthority
  dsimp only
  repeat' split
  all_goals exact ⟨_, rfl⟩

theorem step_inspect (r : ControlRequest) (flow : FlowId) :
    ∃ clock, (step limits f a (.inspect r flow)).1 = { f with clock := clock } := by
  obtain ⟨clock, h⟩ := fetchAuthority_frame (f := f) (a := a) flow
  simp only [step]
  split
  · split
    all_goals exact ⟨clock, h⟩
  · exact ⟨f.clock, rfl⟩

/-- A dispatch leaves the boot alone, and the epoch unless its operation advances it. -/
theorem step_frame (d : Dispatch) : (step limits f a d).1.boot = f.boot ∧
    ((∀ r k, d = .operate r k → k.advances f = false) →
      (step limits f a d).1.epoch = f.epoch) := by
  cases d with
  | operate r k =>
    exact ⟨(Call.step_frame f a k).boot, fun h => Call.step_epoch (h r k rfl)⟩
  | inspect r flow =>
    obtain ⟨clock, h⟩ := @step_inspect limits f a r flow
    rw [h]
    exact ⟨rfl, fun _ => rfl⟩
  | _ => exact ⟨rfl, fun _ => rfl⟩

/-- A request that is not checked asks for no operation. -/
theorem work_unchecked {r : ControlRequest} (h : r.op = .epoch ∨ r.op = .stop) :
    r.work limits = .inspect {} := by
  unfold ControlRequest.work
  rcases h with h | h <;> rw [h]

/-- A step establishes what its own dispatch relies on next. -/
theorem step_vouched {d d' : Dispatch} (hd : d.Vouched f)
    (hboot : ∀ r, d = .checkBoot r → (r.stamp.bootNonce ≠ 0 ∧ r.stamp.bootNonce ≠ f.boot.nonce) ∨
      (r.stamp.bootNonce = f.boot.nonce ∧ r.stamp.bootCounter = f.boot.counter))
    (h : (step limits f a d).2 = some d') : d'.Vouched (step limits f a d).1 := by
  cases d with
  | check r =>
    obtain rfl := Option.some.inj h
    split
    · trivial
    split
    · trivial
    · rename_i hne
      exact not_not.1 hne
  | checkBoot r =>
    obtain rfl := Option.some.inj h
    split
    · trivial
    -- the boot is read a second time, so its counter is the condition's
    · rename_i hpass
      intro _ _
      rcases hboot r rfl with hrefused | ⟨hnonce, hcounter⟩
      · exact absurd hrefused hpass
      · exact ⟨hd, hcounter, hnonce⟩
  | decode r =>
    obtain rfl := Option.some.inj h
    cases hwork : r.work limits with
    | operate request =>
      intro _
      by_cases hop : r.op = .epoch ∨ r.op = .stop
      · rw [work_unchecked hop] at hwork
        cases hwork
      · exact hd (fun h => hop (.inl h)) (fun h => hop (.inr h))
    | inspect flow => trivial
    | refuse response => trivial
  | operate r k =>
    cases hnext : (Call.step f a k).2 with
    | some k' =>
      simp only [step, hnext] at h
      obtain rfl := Option.some.inj h
      intro hk'
      -- what is still to take effect has not taken effect before
      have hpending : k.pending = true := by
        by_contra hnot
        rw [Call.step_pending (by simpa using hnot) hnext] at hk'
        cases hk'
      have hepoch : (Call.step f a k).1.epoch = f.epoch := by
        refine (Call.step_frame f a k).epoch ?_
        by_contra hnot
        rw [Call.step_advances (by simpa using hnot) k' hnext] at hk'
        cases hk'
      have hcurrent := hd hpending
      unfold CallerStamp.Current at hcurrent ⊢
      rw [show (step limits f a (.operate r k)).1 = (Call.step f a k).1 from rfl, hepoch,
        (Call.step_frame f a k).boot]
      exact hcurrent
    | none =>
      simp only [step, hnext] at h
      split at h
      all_goals
        obtain rfl := Option.some.inj h
        trivial
  | inspect r flow =>
    simp only [step] at h
    repeat' split at h
    all_goals
      obtain rfl := Option.some.inj h
      trivial
  | readBack r reply =>
    obtain rfl := Option.some.inj h
    trivial
  | respond response => cases h

theorem not_changed_clock (clock : ClockWatch) : ¬ f.Changed { f with clock := clock } :=
  not_not.2 rfl

/-- Each step of a dispatch whose checks have been met respects its stamp. -/
theorem Vouched.respects {d : Dispatch} (hd : d.Vouched f)
    (hboot : ∀ r, d = .checkBoot r → (r.stamp.bootNonce ≠ 0 ∧ r.stamp.bootNonce ≠ f.boot.nonce) ∨
      (r.stamp.bootNonce = f.boot.nonce ∧ r.stamp.bootCounter = f.boot.counter)) :
    d.Respects limits f a := by
  cases d with
  | check r =>
    intro hstale
    simp only [step]
    by_cases hzero : r.stamp.epoch = 0
    · exact ⟨_, by rw [if_pos hzero]⟩
    · exact ⟨_, by rw [if_neg hzero, if_pos hstale]⟩
  | checkBoot r =>
    intro hstale
    rcases hboot r rfl with hrefused | ⟨hnonce, hcounter⟩
    · exact ⟨_, by simp only [step]; rw [if_pos hrefused]⟩
    · exact absurd ⟨hcounter, hnonce⟩ hstale
  | operate r k =>
    intro hresumes hchanged
    -- an operation that changes something was still pending
    refine hd ?_
    by_contra hnot
    exact Call.step_idle (by simpa using hnot) hresumes hchanged
  | inspect r flow =>
    obtain ⟨clock, h⟩ := @step_inspect limits f a r flow
    change ¬ f.Changed _
    rw [h]
    exact not_changed_clock clock
  | decode r => exact not_changed_clock f.clock
  | readBack r reply => exact not_changed_clock f.clock
  | respond response => exact not_changed_clock f.clock

end Dispatch

/-- Every dispatch in flight relies on what it has read of its stamp. -/
def vouching : Outline Fabric Dispatch where
  shared _ := True
  assertion f d := d.Vouched f
  apart _ _ := True

/-- What the condition says of a boot check. -/
theorem stampsHold_checkBoot {w : Config Fabric Dispatch} {i : ℕ} {d : Dispatch}
    (h : stampsHold w (.move i d a)) (r : ControlRequest) (hd : d = .checkBoot r) :
    (r.stamp.bootNonce ≠ 0 ∧ r.stamp.bootNonce ≠ w.shared.boot.nonce) ∨
      (r.stamp.bootNonce = w.shared.boot.nonce ∧ r.stamp.bootCounter = w.shared.boot.counter) := by
  subst hd
  exact h

theorem vouching_stable : vouching.Stable (control limits) stampsHold where
  begins := by
    intro c i r _ _ _
    refine ⟨?_, fun _ _ _ => ⟨trivial, trivial⟩⟩
    change (Dispatch.begin r).Vouched c.shared
    unfold Dispatch.begin
    split
    · rename_i hop
      intro hepoch hstop
      exact absurd hop (not_or.2 ⟨hepoch, hstop⟩)
    · trivial
  locally := by
    intro c i d a hc hok here
    exact ⟨trivial, fun d' h =>
      Dispatch.step_vouched (hc.assertion i d here) (stampsHold_checkBoot hok) h⟩
  interference := by
    intro c i d a j l hc hok here hji hl
    refine ⟨?_, fun _ _ => ⟨trivial, trivial⟩⟩
    obtain ⟨hboot, hepoch⟩ := @Dispatch.step_frame limits c.shared a d
    by_cases hadvances : ∀ r k, d = .operate r k → k.advances c.shared = false
    · exact Dispatch.Vouched.of_eq (hc.assertion j l hl) hboot (hepoch hadvances)
    · -- the epoch advances under a dispatch that no longer relies on it
      obtain ⟨r, k, rfl, hk⟩ : ∃ r k, d = .operate r k ∧ k.advances c.shared = true := by
        push Not at hadvances
        obtain ⟨r, k, hd, hk⟩ := hadvances
        exact ⟨r, k, hd, by simpa using hk⟩
      exact Dispatch.Vouched.of_settled (hok hk j l hji hl)
  restarts := fun _ _ _ hok => absurd hok id

/-- Every step of every dispatch respects its stamp: what is refused is answered as stale,
and the first effect of an operation finds the epoch and the boot the stamp names. -/
theorem dispatch_respects {w : Config Fabric Dispatch} {n : ℕ}
    (h : Run (control limits) stampsHold (.idle f) n w) {i : ℕ} {d : Dispatch} {a : Answers}
    (here : w.calls i = some d) (hok : stampsHold w (.move i d a)) :
    d.Respects limits w.shared a :=
  ((vouching_stable.holds (Outline.holds_idle trivial) h).assertion i d here).respects
    (stampsHold_checkBoot hok)

/-! ### What the checks leave open -/

namespace Scenario

/-- An advance of the epoch, stamped. -/
def advanceEpoch (epoch counter nonce : UInt64) : ControlRequest where
  op := .advanceEpoch
  stamp := { epoch := epoch, bootCounter := counter, bootNonce := nonce }

def fabric : Fabric := started.shared

/-- Two connections hold the same current stamp, and one advances the epoch after the other's
has been compared; the other is about to. -/
def superseded : List (Action ControlRequest Answers) :=
  .start 0 (advanceEpoch 1 1 1) :: List.replicate 5 (.move 0 answers) ++
    .start 1 (advanceEpoch 1 1 1) :: List.replicate 6 (.move 1 answers)

/-- A stamp with a zero nonce and a counter of no boot. -/
def unnamed : List (Action ControlRequest Answers) :=
  .start 0 (advanceEpoch 1 99 0) :: List.replicate 5 (.move 0 answers)

/-- The dispatch of thread `0` is about to advance the epoch, with a stamp that passes. -/
def advancing (passes : CallerStamp → Fabric → Bool) (w : Config Fabric Dispatch) : Bool :=
  match w.calls 0 with
  | some (.operate r k) => !k.resumes &&
      (Call.step w.shared answers k).1.epoch.value != w.shared.epoch.value &&
      passes r.stamp w.shared
  | _ => false

/-- The steps of thread `0` that `stampsHold` allows whatever the others do. -/
def alone (w : Config Fabric Dispatch) : Event Dispatch ControlRequest Answers → Bool
  | .start i _ => i == 0
  | .move i (.checkBoot r) _ => i == 0 && r.stamp.bootNonce == w.shared.boot.nonce &&
      r.stamp.bootCounter == w.shared.boot.counter
  | .move i (.operate _ k) _ => i == 0 && !k.advances w.shared
  | .move i _ _ => i == 0
  | .restart => false

theorem stampsHold_of_alone (w : Config Fabric Dispatch)
    (e : Event Dispatch ControlRequest Answers) (h : alone w e = true) :
    byThread 0 w e ∧ stampsHold w e := by
  unfold alone at h
  split at h
  · exact ⟨by simpa [byThread] using h, trivial⟩
  · simp only [Bool.and_eq_true, beq_iff_eq] at h
    exact ⟨h.1.1, .inr ⟨h.1.2, h.2⟩⟩
  · simp only [Bool.and_eq_true, beq_iff_eq, Bool.not_eq_true'] at h
    refine ⟨h.1, fun hadvances => ?_⟩
    rw [h.2] at hadvances
    cases hadvances
  · rename_i i d a hboot hoperate
    refine ⟨by simpa [byThread] using h, ?_⟩
    cases d with
    | checkBoot r => exact absurd rfl (hboot r)
    | operate r k => exact absurd rfl (hoperate r k)
    | _ => trivial
  · cases h

theorem advancing_cases {passes : CallerStamp → Fabric → Bool} {w : Config Fabric Dispatch}
    (h : advancing passes w = true) : ∃ r k, w.calls 0 = some (.operate r k) ∧
      k.resumes = false ∧ w.shared.Changed (Call.step w.shared answers k).1 ∧
      passes r.stamp w.shared = true := by
  unfold advancing at h
  split at h
  · rename_i r k hcall
    simp only [Bool.and_eq_true, Bool.not_eq_true', bne_iff_ne] at h
    refine ⟨r, k, hcall, h.1.1, fun hsame => h.1.2 ?_, h.2⟩
    rw [hsame]
  · cases h

end Scenario

/-- The first effect of a request that nobody overtakes. -/
theorem dispatch_respects_advance :
    let w := (control {}).exec (.idle Scenario.fabric) (Scenario.superseded.take 6)
    ∃ r k, w.calls 0 = some (.operate r k) ∧ k.resumes = false ∧
      w.shared.Changed (Call.step w.shared Scenario.answers k).1 ∧
      (Dispatch.operate r k).Respects {} w.shared Scenario.answers := by
  obtain ⟨n, hn⟩ := Program.run_of_allows (P := control {}) Scenario.stampsHold_of_alone
    (Scenario.superseded.take 6) (c := .idle Scenario.fabric) (by decide +kernel)
  obtain ⟨r, k, hcall, hresumes, hchanged, -⟩ := Scenario.advancing_cases
    (show Scenario.advancing (fun _ _ => true) ((control {}).exec (.idle Scenario.fabric)
      (Scenario.superseded.take 6)) = true by decide +kernel)
  refine ⟨r, k, hcall, hresumes, hchanged,
    dispatch_respects (hn.mono fun _ _ h => h.2) hcall ?_⟩
  intro _ j d hj hd
  rw [(hn.mono fun _ _ h => h.1).others (fun _ _ => rfl) j hj] at hd
  cases hd

/-- An epoch that is advanced between the comparison and the effect, and a stamp that names no
boot at all: both requests change the coordinator. -/
theorem dispatch_overtaken :
    (∃ n w r k a, Run (control {}) withinIncarnation (.idle Scenario.fabric) n w ∧
      w.calls 0 = some (.operate r k) ∧ r.stamp.bootCounter = w.shared.boot.counter ∧
      r.stamp.bootNonce = w.shared.boot.nonce ∧
      ¬ (Dispatch.operate r k).Respects {} w.shared a) ∧
    ∃ n w r k a, Run (control {}) withinIncarnation (.idle Scenario.fabric) n w ∧
      w.calls 0 = some (.operate r k) ∧ r.stamp.epoch = w.shared.epoch.value ∧
      ¬ (Dispatch.operate r k).Respects {} w.shared a := by
  constructor
  · obtain ⟨n, hn⟩ := Program.run_exec (P := control {}) (.idle Scenario.fabric)
      Scenario.superseded
    obtain ⟨r, k, hcall, hresumes, hchanged, hpasses⟩ := Scenario.advancing_cases
      (show Scenario.advancing (fun s f => s.epoch != f.epoch.value &&
          (s.bootCounter == f.boot.counter && s.bootNonce == f.boot.nonce))
        ((control {}).exec (.idle Scenario.fabric) Scenario.superseded) = true by decide +kernel)
    simp only [Bool.and_eq_true, bne_iff_ne, beq_iff_eq] at hpasses
    exact ⟨n, _, r, k, Scenario.answers, hn, hcall, hpasses.2.1, hpasses.2.2,
      fun hrespects => hpasses.1 (hrespects hresumes hchanged).1⟩
  · obtain ⟨n, hn⟩ := Program.run_exec (P := control {}) (.idle Scenario.fabric)
      Scenario.unnamed
    obtain ⟨r, k, hcall, hresumes, hchanged, hpasses⟩ := Scenario.advancing_cases
      (show Scenario.advancing (fun s f => s.epoch == f.epoch.value &&
          s.bootCounter != f.boot.counter)
        ((control {}).exec (.idle Scenario.fabric) Scenario.unnamed) = true by decide +kernel)
    simp only [Bool.and_eq_true, bne_iff_ne, beq_iff_eq] at hpasses
    exact ⟨n, _, r, k, Scenario.answers, hn, hcall, hpasses.1,
      fun hrespects => hpasses.2 (hrespects hresumes hchanged).2.1⟩

end Pacing
