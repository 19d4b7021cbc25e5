import PacingFabric.Theorems.Closed

/-!
# What a backend keeps installed

A backend installs an attempt when it accepts its application and removes it when it is told
to revoke it. An attempt that was closed, or whose backend was unregistered, before its
outcome is committed is withdrawn by the application itself; the last section of an
application without readback is the one that does not.

## Main definitions

* `placing`: the coordinator beside what its backends hold.
* `Call.Owes`: the calls that are still to commit or to withdraw an attempt.

## Main results

* `lost_withdrawn`: once every call has returned, no lost attempt is installed.
* `lost_installed`: a fence before the last section without readback leaves one installed.
-/

namespace Interleaving

variable {σ κ ρ α : Type*}

/-- The thread an entry of a schedule is for. -/
def Action.thread : Action ρ α → ℕ
  | .start i _ | .move i _ => i

namespace Program

variable (P : Program σ κ ρ α)

/-- An entry changes the call of its own thread only. -/
theorem act_calls {c : Config σ κ} {action : Action ρ α} {i : ℕ} (h : i ≠ action.thread) :
    (P.act c action).calls i = c.calls i := by
  cases action with
  | start j r =>
    unfold act
    dsimp only
    split
    · rfl
    · exact Function.update_of_ne h ..
  | move j a =>
    unfold act
    dsimp only
    split
    · rfl
    · exact Function.update_of_ne h ..

/-- A schedule leaves the threads it does not name alone. -/
theorem exec_calls {schedule : List (Action ρ α)} {i : ℕ} {c : Config σ κ}
    (h : ∀ action ∈ schedule, i ≠ action.thread) :
    (P.exec c schedule).calls i = c.calls i := by
  unfold exec
  induction schedule generalizing c with
  | nil => rfl
  | cons action rest ih =>
    exact (ih fun action' h' => h action' (List.mem_cons_of_mem _ h')).trans
      (P.act_calls (h action List.mem_cons_self))

/-- A schedule ends quiet when the threads it names do. -/
theorem quiet_exec {c : Config σ κ} (hc : c.Quiet) (schedule : List (Action ρ α)) (m : ℕ)
    (hthreads : schedule.all (fun action => decide (action.thread < m)) = true)
    (h : (List.range m).all (fun i => ((P.exec c schedule).calls i).isNone) = true) :
    (P.exec c schedule).Quiet := by
  intro i
  by_cases hi : i < m
  · simpa using List.all_eq_true.1 h i (List.mem_range.2 hi)
  · refine (P.exec_calls fun action hmem => ?_).trans (hc i)
    have hlt := of_decide_eq_true (List.all_eq_true.1 hthreads action hmem)
    omega

end Program

end Interleaving

namespace Pacing

open Interleaving

/-- An attempt at a backend object. -/
abbrev Placement := BackendPtr × AttemptId

/-- The attempt is closed, or gone after it was, or its backend is not registered. -/
def Fabric.lost (f : Fabric) (id : AttemptId) : Bool :=
  match f.attempts.find id with
  | none => true
  | some (_, entry) =>
    entry.record.state.isClosed || (f.backendPtr entry.record.backend.id).isNone

/-- The coordinator, what its backends hold, and whether the last section that committed the
outcome of an attempt found it lost. -/
structure Installation where
  fabric : Fabric
  installed : List Placement := []
  lost : Placement → Bool := fun _ => false

namespace Call

def placement (i : Installing) : Placement := (i.backend, i.request.attempt)

/-- What the backends hold after a step. -/
def installedAfter (installed : List Placement) (a : Answers) : Call → List Placement
  | .install i =>
    if a.status.isOk && a.ack.accepted then placement i :: installed else installed
  | .withdraw ((backend, request) :: _) _ _ =>
    installed.filter fun p => decide (p ≠ (backend, request.attempt))
  | _ => installed

/-- What the committing sections have found after a step. -/
def lostAfter (f : Fabric) (lost : Placement → Bool) : Call → Placement → Bool
  | .acknowledge i _ _ | .commitUnverified i _ | .commitVerified i _ _ _ =>
    Function.update lost (placement i) (f.lost i.request.attempt)
  | _ => lost

/-- What a committing section leaves with the backend although it finds it lost. -/
def leaves (f : Fabric) : Call → Option Placement
  | .acknowledge i _ _ | .commitVerified i _ _ _ =>
    if (f.attempts.find i.request.attempt).isNone then some (placement i) else none
  | .commitUnverified i _ => if f.lost i.request.attempt then some (placement i) else none
  | _ => none

/-- The call will commit the outcome of the attempt, or withdraw it. -/
def Owes (p : Placement) : Call → Prop
  | .acknowledge i _ _ | .describeReadback i | .readback i | .commitUnverified i _
  | .commitVerified i _ _ _ | .fetch (.applyUnverified i) _ _ | .fetch (.applyAfter i _ _) _ _ =>
    placement i = p
  | .withdraw todo _ _ => ∃ request, (p.1, request) ∈ todo ∧ request.attempt = p.2
  | _ => False

end Call

/-- The coordinator beside its backends, within one incarnation. -/
def placing : Program Installation Call Request Answers where
  begin := Call.begin
  step s a k :=
    (⟨(Call.step s.fabric a k).1, k.installedAfter s.installed a, k.lostAfter s.fabric s.lost⟩,
      (Call.step s.fabric a k).2)
  restarts _ _ := False

/-- What a committing section leaves is not installed any more, or owed by another call. -/
def losesNothing (w : Config Installation Call) : Event Call Request Answers → Prop
  | .move i k _ => ∀ p, k.leaves w.shared.fabric = some p → p ∈ w.shared.installed →
      ∃ j l, j ≠ i ∧ w.calls j = some l ∧ l.Owes p
  | _ => True

/-! ### Each committing section -/

variable {f : Fabric} {a : Answers} {now : Instant} {id : AttemptId}

/-- What an attempt that is lost looks like to a section. -/
theorem Fabric.lost_cases (h : f.lost id = true) (hfound : f.attempts.find id ≠ none) :
    ∃ i entry, f.attempts.find id = some (i, entry) ∧
      (entry.record.state.isClosed = true ∨
        (f.backendPtr entry.record.backend.id).isNone = true) := by
  unfold lost at h
  cases hfind : f.attempts.find id with
  | none => exact absurd hfind hfound
  | some slot =>
    rw [hfind] at h
    exact ⟨slot.1, slot.2, rfl, by simpa using h⟩

theorem ApplicationState.pending_of_isClosed {s : ApplicationState} (h : s.isClosed = true) :
    s ≠ .submitted ∧ s ≠ .acknowledged := by
  constructor <;> rintro rfl <;> cases h

/-- Phase D discards the completion of a lost attempt. -/
theorem Fabric.acknowledge_lost (h : f.lost id = true)
    (hfound : f.attempts.find id ≠ none) (status : Status) (ack : ApplyAck) :
    ∃ code, (f.acknowledgeAttempt a now id status ack).1 = .closedEarly code := by
  obtain ⟨i, entry, hfind, hcause⟩ := lost_cases h hfound
  unfold acknowledgeAttempt
  rw [hfind]
  dsimp only
  by_cases hstate : entry.record.state ≠ .submitted
  · exact ⟨_, by rw [if_pos hstate]⟩
  · -- the attempt is open, so it is its backend that is gone
    rcases hcause with hclosed | hgone
    · exact absurd (ApplicationState.pending_of_isClosed hclosed).1 hstate
    · exact ⟨_, by rw [if_neg hstate, if_pos hgone]⟩

/-- The last section with readback withdraws a lost attempt. -/
theorem Fabric.commitVerified_lost (h : f.lost id = true)
    (hfound : f.attempts.find id ≠ none) (envelope : PacingEnvelope)
    (status : Status) (evidence : ReadbackEvidence) (drift : AuthorityDrift) (code : ErrorCode) :
    ∃ reason, (f.commitVerified a now id envelope status evidence drift code).1.withdraw =
      some reason := by
  obtain ⟨i, entry, hfind, hcause⟩ := lost_cases h hfound
  unfold commitVerified
  rw [hfind]
  dsimp only
  by_cases hstate : entry.record.state ≠ .acknowledged
  · exact ⟨_, by rw [if_pos hstate]⟩
  · rcases hcause with hclosed | hgone
    · exact absurd (ApplicationState.pending_of_isClosed hclosed).2 hstate
    · exact ⟨_, by rw [if_neg hstate, if_pos hgone]⟩

namespace Call

theorem resume_owes {p : Placement} {caller : Caller} (current : StatusOr AuthorityInputs)
    (h : (fetch caller ⟨0⟩ .trust).Owes p) : (resume current caller).Owes p := by
  cases caller with
  | applyUnverified install => exact h
  | applyAfter install status evidence => exact h
  | _ => exact absurd h id

theorem fetchStep_owes {p : Placement} {caller : Caller} {flow : FlowId} {phase : Fetch}
    (h : (fetch caller flow phase).Owes p) : (fetchStep f a caller flow phase).2.Owes p := by
  have hcaller : (fetch caller ⟨0⟩ .trust).Owes p := by
    cases caller <;> exact h
  have hstays : ∀ phase', (fetch caller flow phase').Owes p := by
    intro phase'
    cases caller <;> exact h
  cases phase <;> dsimp only [fetchStep]
  all_goals repeat' split
  all_goals first
    | exact hstays _
    | exact resume_owes (.error _) hcaller
    | exact resume_owes _ hcaller

/-- What a call owes it goes on owing, until its attempt is withdrawn or was not lost. -/
theorem step_owes {p : Placement} {k : Call} {lost : Placement → Bool}
    {installed : List Placement} (howes : k.Owes p) (hp : p ∈ k.installedAfter installed a)
    (hlost : k.lostAfter f lost p = true) (hk : k.leaves f ≠ some p) :
    ∃ k', (step f a k).2 = some k' ∧ k'.Owes p := by
  cases k with
  | acknowledge i status ack =>
    obtain rfl : placement i = p := howes
    simp only [lostAfter, Function.update_self] at hlost
    -- lost before the backend answered: the completion is discarded and withdrawn
    obtain ⟨code, hclosed⟩ := @Fabric.acknowledge_lost f a i.now _ hlost
      (by simpa [leaves] using hk) status ack
    simp only [step]
    generalize f.acknowledgeAttempt a i.now i.request.attempt status ack = out at hclosed
    obtain ⟨outcome, f'⟩ := out
    obtain rfl : outcome = .closedEarly code := hclosed
    exact ⟨_, rfl, i.request, List.mem_singleton.2 rfl, rfl⟩
  | describeReadback i =>
    refine ⟨_, rfl, ?_⟩
    split <;> exact howes
  | readback i => exact ⟨_, rfl, howes⟩
  | commitUnverified i current =>
    obtain rfl : placement i = p := howes
    simp only [lostAfter, Function.update_self] at hlost
    -- this section leaves a lost attempt behind
    exact absurd (if_pos hlost) hk
  | commitVerified i status evidence current =>
    obtain rfl : placement i = p := howes
    simp only [lostAfter, Function.update_self] at hlost
    obtain ⟨reason, hreason⟩ := @Fabric.commitVerified_lost f a i.now _ hlost
      (by simpa [leaves] using hk) i.envelope status evidence
      (driftAfter i.envelope.authority current).1 (driftAfter i.envelope.authority current).2
    simp only [step]
    generalize f.commitVerified a i.now i.request.attempt i.envelope status evidence
      (driftAfter i.envelope.authority current).1
      (driftAfter i.envelope.authority current).2 = out at hreason
    rw [hreason]
    exact ⟨_, rfl, i.request, List.mem_singleton.2 rfl, rfl⟩
  | fetch caller flow phase => exact ⟨_, rfl, fetchStep_owes howes⟩
  | withdraw todo reason reply =>
    obtain ⟨request, hmem, hattempt⟩ := howes
    refine ⟨_, rfl, ?_⟩
    cases todo with
    | nil => cases hmem
    | cons head rest =>
      obtain ⟨backend, headRequest⟩ := head
      rcases List.mem_cons.1 hmem with heq | hmem
      · -- this is the withdrawal that has just been issued
        obtain ⟨hb, rfl⟩ := Prod.mk.inj heq
        simp only [installedAfter, List.mem_filter, decide_eq_true_eq] at hp
        exact absurd (Prod.ext hb hattempt.symm) hp.2
      · unfold withdrawing
        rw [if_neg (by simpa using List.ne_nil_of_mem hmem)]
        exact ⟨request, hmem, hattempt⟩
  | _ => exact absurd howes id

/-- A step installs only what its own call goes on to owe. -/
theorem step_installs {p : Placement} {k : Call} {installed : List Placement}
    (hp : p ∈ k.installedAfter installed a) :
    p ∈ installed ∨ ∃ k', (step f a k).2 = some k' ∧ k'.Owes p := by
  unfold installedAfter at hp
  split at hp
  · rename_i i
    split at hp
    · rcases List.mem_cons.1 hp with rfl | hp
      · exact .inr ⟨_, rfl, rfl⟩
      · exact .inl hp
    · exact .inl hp
  · exact .inl (List.mem_filter.1 hp).1
  · exact .inl hp

/-- A committing section speaks of what its own call owes. -/
theorem owes_of_lostAfter {p : Placement} {k : Call} {lost : Placement → Bool}
    (h : k.lostAfter f lost p = true) : lost p = true ∨ k.Owes p := by
  unfold lostAfter at h
  split at h
  all_goals first
    | exact .inl h
    | (rename_i i _ _
       by_cases hp : p = placement i
       · exact .inr hp.symm
       · rw [Function.update_of_ne hp] at h
         exact .inl h)
    | (rename_i i _
       by_cases hp : p = placement i
       · exact .inr hp.symm
       · rw [Function.update_of_ne hp] at h
         exact .inl h)
    | (rename_i i _ _ _
       by_cases hp : p = placement i
       · exact .inr hp.symm
       · rw [Function.update_of_ne hp] at h
         exact .inl h)

end Call

/-! ### Every interleaving -/

/-- What is installed and lost is still owed by a call in flight. -/
def Accounted (w : Config Installation Call) : Prop :=
  ∀ p ∈ w.shared.installed, w.shared.lost p = true →
    ∃ i k, w.calls i = some k ∧ k.Owes p

theorem accounted {s : Fabric} {w : Config Installation Call} {n : ℕ}
    (h : Run placing losesNothing (.idle { fabric := s }) n w) : Accounted w := by
  refine h.invariant (I := Accounted) (fun p hp => absurd hp List.not_mem_nil) ?_
  intro w e w' hw hok hs
  cases hs with
  | @start i r free =>
    intro p hp hlost
    obtain ⟨j, k, hj, howes⟩ := hw p hp hlost
    have hji : j ≠ i := by
      rintro rfl
      rw [free] at hj
      cases hj
    exact ⟨j, k, (Function.update_of_ne hji ..).trans hj, howes⟩
  | @move i k a here =>
    intro p hp hlost
    have hp : p ∈ k.installedAfter w.shared.installed a := hp
    have hlost : k.lostAfter w.shared.fabric w.shared.lost p = true := hlost
    have hother : ∀ j l, j ≠ i → w.calls j = some l → l.Owes p → ∃ j l,
        Function.update w.calls i (Call.step w.shared.fabric a k).2 j = some l ∧ l.Owes p :=
      fun j l hji hj hl => ⟨j, l, (Function.update_of_ne hji ..).trans hj, hl⟩
    have hown : (∃ k', (Call.step w.shared.fabric a k).2 = some k' ∧ k'.Owes p) → ∃ j l,
        Function.update w.calls i (Call.step w.shared.fabric a k).2 j = some l ∧ l.Owes p :=
      fun ⟨k', hnext, hk'⟩ => ⟨i, k', by rw [Function.update_self]; exact hnext, hk'⟩
    rcases Call.step_installs (f := w.shared.fabric) hp with hbefore | hnew
    swap
    · exact hown hnew
    -- the call that owed it, or this one if the step loses it
    have howed : k.Owes p ∨ ∃ j l, j ≠ i ∧ w.calls j = some l ∧ l.Owes p := by
      rcases Call.owes_of_lostAfter hlost with hwas | howes
      · obtain ⟨j, l, hj, hl⟩ := hw p hbefore hwas
        by_cases hji : j = i
        · subst hji
          obtain rfl := Option.some.inj (here.symm.trans hj)
          exact .inl hl
        · exact .inr ⟨j, l, hji, hj, hl⟩
      · exact .inl howes
    rcases howed with howes | ⟨j, l, hji, hj, hl⟩
    · by_cases hk : k.leaves w.shared.fabric = some p
      · -- the section withdraws nothing, and leaves the attempt to another call
        obtain ⟨j, l, hji, hj, hl⟩ := hok p hk hbefore
        exact hother j l hji hj hl
      · exact hown (Call.step_owes howes hp hlost hk)
    · exact hother j l hji hj hl
  | restart hr => exact absurd hr id

/-- Once every call has returned, a backend holds no attempt that was closed, or whose backend
was unregistered, before the section that committed its outcome. -/
theorem lost_withdrawn {s : Fabric} {w : Config Installation Call} {n : ℕ}
    (h : Run placing losesNothing (.idle { fabric := s }) n w) (hquiet : w.Quiet)
    {p : Placement} (hlost : w.shared.lost p = true) : p ∉ w.shared.installed := by
  intro hp
  obtain ⟨i, k, hi, -⟩ := accounted h p hp hlost
  rw [hquiet i] at hi
  cases hi

/-! ### The section that withdraws nothing -/

namespace Scenario

def installation : Config Installation Call := .idle { fabric := started.shared }

/-- Answers of a backend without readback. -/
def blind : Answers := { answers with
  describe := fun _ => { descriptor with supportsReadback := false } }

/-- The envelope is applied at a backend without readback as far as the last section. -/
def acknowledgedBlind : List (Action Request Answers) :=
  setup ++ .start 1 (.applyEnvelope ⟨⟨1⟩, ⟨1⟩⟩ ⟨1⟩ {}) :: List.replicate 18 (.move 1 blind)

/-- A fence reaches the attempt before that section. -/
def fenceBlind : List (Action Request Answers) :=
  acknowledgedBlind ++ calls 3 (.fenceBelow ⟨2⟩) 6 ++ List.replicate 4 (.move 1 blind)

/-- A cancellation before the completion is committed, and the rest of the application. -/
def cancelAndFinish : List (Action Request Answers) :=
  cancelWhileApplying ++ List.replicate 12 (.move 1 answers)

/-- No committing section leaves anything. -/
def leavesNothing (w : Config Installation Call) : Event Call Request Answers → Bool
  | .move _ k _ => (k.leaves w.shared.fabric).isNone
  | _ => true

theorem losesNothing_of_leavesNothing (w : Config Installation Call)
    (e : Event Call Request Answers) (h : leavesNothing w e = true) : losesNothing w e := by
  cases e with
  | start i r => trivial
  | restart => trivial
  | move i k a =>
    intro p hp
    rw [leavesNothing, hp] at h
    cases h

end Scenario

/-- A cancellation between the installation and the commit of its completion. -/
theorem lost_withdrawn_cancelled :
    (placing.exec Scenario.installation Scenario.cancelAndFinish).shared.lost (⟨0⟩, ⟨1⟩) =
        true ∧
      (⟨0⟩, ⟨1⟩) ∉
        (placing.exec Scenario.installation Scenario.cancelAndFinish).shared.installed := by
  obtain ⟨n, hn⟩ := Program.run_of_allows (P := placing)
    Scenario.losesNothing_of_leavesNothing Scenario.cancelAndFinish
    (c := Scenario.installation) (by decide +kernel)
  have hlost : (placing.exec Scenario.installation Scenario.cancelAndFinish).shared.lost
      (⟨0⟩, ⟨1⟩) = true := by decide +kernel
  have hquiet : (placing.exec Scenario.installation Scenario.cancelAndFinish).Quiet :=
    placing.quiet_exec (Config.quiet_idle _) Scenario.cancelAndFinish 4 (by decide +kernel)
      (by decide +kernel)
  exact ⟨hlost, lost_withdrawn hn hquiet hlost⟩

/-- A fence that runs to its end before the last section of an application without readback:
every call returns, and the backend keeps the fenced attempt. -/
theorem lost_installed :
    ∃ n w p, Run placing anyStep Scenario.installation n w ∧ w.Quiet ∧
      w.shared.lost p = true ∧ p ∈ w.shared.installed := by
  obtain ⟨n, hn⟩ := placing.run_exec Scenario.installation Scenario.fenceBlind
  have hquiet : (placing.exec Scenario.installation Scenario.fenceBlind).Quiet :=
    placing.quiet_exec (Config.quiet_idle _) Scenario.fenceBlind 4 (by decide +kernel)
      (by decide +kernel)
  obtain ⟨hlost, hheld⟩ : (placing.exec Scenario.installation Scenario.fenceBlind).shared.lost
      (⟨0⟩, ⟨1⟩) = true ∧ (⟨0⟩, ⟨1⟩) ∈
        (placing.exec Scenario.installation Scenario.fenceBlind).shared.installed := by
    decide +kernel
  exact ⟨n, _, (⟨0⟩, ⟨1⟩), hn.mono fun _ _ _ => trivial, hquiet, hlost, hheld⟩

end Pacing
