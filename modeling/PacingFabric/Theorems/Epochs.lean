import PacingFabric.Theorems.Restart
import PacingFabric.Theorems.Closed

/-!
# Epochs across incarnations

`advance_epoch` moves the epoch in memory before it journals it, and leaves it there when
the append fails. The next incarnation starts from the journaled epochs, so an epoch that
was never journaled is reported again.

## Main definitions

* `Chronicle`: which epochs were reported, and which were journaled, so far.
* `incarnations`: incarnations of the coordinator over one durable directory.
* `journaledAtRestart`: no incarnation ends with its epoch in memory only.

## Main results

* `epochs_increase`: then no two incarnations report the same epoch.
* `epoch_shared`: two incarnations that report the same epoch.
-/

namespace Pacing

open Interleaving

/-- What is remembered of a run: the number of incarnations that started, whether the last
start succeeded, the epoch every started incarnation reported after each of its steps, and
the epochs whose record was appended. -/
structure Chronicle where
  incarnation : ℕ := 0
  started : Bool := false
  reported : List (ℕ × Epoch) := []
  journaled : List Epoch := []

namespace Chronicle

/-- The state after a step reports its epoch. -/
def report (c : Chronicle) (epoch : Epoch) : Chronicle :=
  if c.started then { c with reported := (c.incarnation, epoch) :: c.reported } else c

/-- A step of `advance_epoch` that returned Ok has appended the record of its epoch. -/
def observe (c : Chronicle) (f : Fabric) (a : Answers) : Call → Chronicle
  | .locked .advanceEpoch now =>
    match f.advanceEpoch a now with
    | (.ok (epoch, _), _) => { c with journaled := epoch :: c.journaled }
    | (.error _, _) => c
  | _ => c

/-- A start that succeeds is a new incarnation, and has appended its epoch. -/
def restarted (c : Chronicle) (out : Status × Fabric) : Chronicle :=
  if out.1.isOk then
    { c with
      incarnation := c.incarnation + 1
      started := true
      journaled := out.2.epoch :: c.journaled }
  else { c with started := false }

/-- Epochs of later incarnations are strictly greater. -/
def Increasing (c : Chronicle) : Prop :=
  ∀ p ∈ c.reported, ∀ q ∈ c.reported, p.1 < q.1 → p.2.value < q.2.value

end Chronicle

/-- Every journaled epoch is recovered: as its own record, or as a later one a checkpoint put
in its place. -/
def recoversAll (recovered : List DurableRecord) (journaled : List Epoch) : Bool :=
  journaled.all fun epoch => recovered.any fun record =>
    record.type == .epochAdvance &&
      match decodePayload decodeEpoch record.payload with
      | some (persisted, _) => decide (epoch.value ≤ persisted.value)
      | none => false

/-- A start over the directory `disk`, with what it recovers when the directory opens. -/
def startsOver (config : FabricConfig) (disk : Disk) (journaled : List Epoch) (a : Answers) :
    Bool :=
  Fabric.usesDirectory config &&
    match (DurableStore.openStore config.limits disk a.files.opening).1 with
    | .ok store => recoversAll store.recovered journaled
    | .error _ => true

/-- Incarnations over one durable directory, each start recovering what was appended. -/
def incarnations : Program (Fabric × Chronicle) Call Request Answers where
  begin := Call.begin
  step s a k :=
    ((((Call.step s.1 a k).1),
      (s.2.observe s.1 a k).report (Call.step s.1 a k).1.epoch), (Call.step s.1 a k).2)
  restarts s s' := ∃ config a,
    startsOver config s.1.storage.disk s.2.journaled a = true ∧
      s' = (((Fabric.construct config s.1.storage.disk).initializeFabric a).2,
        (s.2.restarted ((Fabric.construct config s.1.storage.disk).initializeFabric a)).report
          ((Fabric.construct config s.1.storage.disk).initializeFabric a).2.epoch)

/-- An incarnation does not end while the epoch it reports is not journaled. -/
def journaledAtRestart (c : Config (Fabric × Chronicle) Call) :
    Event Call Request Answers → Prop
  | .restart => c.shared.2.started = true → c.shared.1.epoch ∈ c.shared.2.journaled
  | _ => True

/-! ### Epochs never go back -/

theorem Epoch.le_advanced (e : Epoch) : e.value ≤ e.advanced.1.value := by
  unfold Epoch.advanced
  split
  · exact UInt64.le_refl _
  · rename_i h
    have hne : e.value ≠ Checked.u64Max := by simpa using h
    exact UInt64.le_of_lt (UInt64.lt_add_one hne)

theorem Call.epoch_le_step (f : Fabric) (a : Answers) (k : Call) :
    f.epoch.value ≤ (Call.step f a k).1.epoch.value := by
  by_cases hk : k.writesEpoch = false
  · rw [(Call.step_frame f a k).epoch hk]
    exact UInt64.le_refl _
  · obtain ⟨now, rfl⟩ : ∃ now, k = .locked .advanceEpoch now := by
      unfold Call.writesEpoch at hk
      split at hk
      · exact ⟨_, rfl⟩
      · exact absurd rfl hk
    rw [show (Call.step f a (.locked .advanceEpoch now)).1 = (f.advanceEpoch a now).2 from
      Call.lockedStep_fst f a now .advanceEpoch]
    unfold Fabric.advanceEpoch
    split
    · exact UInt64.le_refl _
    · unfold Fabric.advanceEpochLocked
      dsimp only
      split
      · exact UInt64.le_refl _
      · obtain ⟨_, _, h⟩ := Fabric.fenceAttempts_frame
          (Fabric.fenceEnvelopes { f with epoch := f.epoch.advanced.1 } f.epoch.advanced.1
            "coordinator epoch advanced") a now f.epoch.advanced.1
          "coordinator epoch advanced past this attempt"
        rw [h]
        split <;> exact f.epoch.le_advanced

/-- A start that succeeds has an epoch above every journaled one. -/
theorem lt_epoch_of_startsOver {config : FabricConfig} {disk : Disk} {journaled : List Epoch}
    {a : Answers} (hstart : startsOver config disk journaled a = true)
    (hok : ((Fabric.construct config disk).initializeFabric a).1.isOk = true) :
    ∀ e ∈ journaled,
      e.value < ((Fabric.construct config disk).initializeFabric a).2.epoch.value := by
  unfold startsOver at hstart
  rw [Bool.and_eq_true] at hstart
  obtain ⟨hdurable, hrecovers⟩ := hstart
  obtain ⟨store, disk', hopen⟩ := Fabric.initializeFabric_opened a hdurable hok
  rw [hopen] at hrecovers
  obtain ⟨hok', heq⟩ := Fabric.initializeFabric_recover a hdurable hopen hok
  have hepochs := (Fabric.recover_recovered a (f := Fabric.opened a config disk' store) rfl _
    hok').epochs
  intro e he
  obtain ⟨record, hrecord, hpair⟩ := List.any_eq_true.1 (List.all_eq_true.1 hrecovers e he)
  rw [Bool.and_eq_true, beq_iff_eq] at hpair
  obtain ⟨htype, hdecodes⟩ := hpair
  split at hdecodes
  · rename_i persisted boot hdecode
    rw [heq]
    exact UInt64.lt_of_le_of_lt (by simpa using hdecodes)
      (hepochs record hrecord htype persisted boot hdecode).1
  · cases hdecodes

/-! ### Chronicles -/

/-- What a chronicle owes to the state it belongs to. -/
structure Chronicle.Sound (f : Fabric) (c : Chronicle) : Prop where
  past : ∀ p ∈ c.reported, p.1 ≤ c.incarnation
  current : c.started = true → ∀ p ∈ c.reported, p.2.value ≤ f.epoch.value ∧
    (p.1 < c.incarnation → p.2.value < f.epoch.value)
  ended : c.started = false → ∀ p ∈ c.reported, ∃ e ∈ c.journaled, p.2.value ≤ e.value
  increasing : c.Increasing

namespace Chronicle

variable {f f' : Fabric} {c : Chronicle}

theorem Sound.empty : ({} : Chronicle).Sound f :=
  ⟨by simp, by simp, by simp, by simp [Increasing]⟩

/-- Reporting an epoch that has not gone back. -/
theorem Sound.report (h : c.Sound f) (hle : f.epoch.value ≤ f'.epoch.value) :
    (c.report f'.epoch).Sound f' := by
  unfold Chronicle.report
  split
  · rename_i hstarted
    have hcurrent : ∀ p ∈ c.reported, p.2.value ≤ f'.epoch.value ∧
        (p.1 < c.incarnation → p.2.value < f'.epoch.value) := fun p hp =>
      ⟨UInt64.le_trans (h.current hstarted p hp).1 hle,
        fun hlt => UInt64.lt_of_lt_of_le ((h.current hstarted p hp).2 hlt) hle⟩
    refine ⟨?_, fun _ => ?_, fun hnot => ?_, ?_⟩
    · intro p hp
      rcases List.mem_cons.1 hp with rfl | hp
      · exact le_rfl
      · exact h.past p hp
    · intro p hp
      rcases List.mem_cons.1 hp with rfl | hp
      · exact ⟨UInt64.le_refl _, fun hlt => absurd hlt (lt_irrefl _)⟩
      · exact hcurrent p hp
    · exact absurd hstarted (by simpa using hnot)
    · intro p hp q hq hlt
      rcases List.mem_cons.1 hp with rfl | hp <;> rcases List.mem_cons.1 hq with rfl | hq
      · exact absurd hlt (lt_irrefl _)
      · exact absurd (h.past q hq) (not_le.2 hlt)
      · exact (hcurrent p hp).2 hlt
      · exact h.increasing p hp q hq hlt
  · rename_i hstopped
    exact ⟨h.past, fun hs => absurd hs hstopped, h.ended, h.increasing⟩

theorem Sound.observe (h : c.Sound f) (g : Fabric) (a : Answers) (k : Call) :
    (c.observe g a k).Sound f := by
  unfold Chronicle.observe
  split
  · split
    · refine ⟨h.past, h.current, fun hnot p hp => ?_, h.increasing⟩
      obtain ⟨e, he, hle⟩ := h.ended hnot p hp
      exact ⟨e, List.mem_cons_of_mem _ he, hle⟩
    · exact h
  · exact h

/-- What an incarnation reported is journaled when it ends. -/
theorem Sound.reported_journaled (h : c.Sound f)
    (hend : c.started = true → f.epoch ∈ c.journaled) :
    ∀ p ∈ c.reported, ∃ e ∈ c.journaled, p.2.value ≤ e.value := by
  intro p hp
  cases hs : c.started with
  | false => exact h.ended hs p hp
  | true => exact ⟨_, hend hs, (h.current hs p hp).1⟩

/-- A start keeps the chronicle sound. -/
theorem Sound.restarted (h : c.Sound f) (hend : c.started = true → f.epoch ∈ c.journaled)
    {out : Status × Fabric}
    (hnew : out.1.isOk = true → ∀ e ∈ c.journaled, e.value < out.2.epoch.value) :
    (c.restarted out).Sound out.2 := by
  have hjournaled := h.reported_journaled hend
  unfold Chronicle.restarted
  split
  · rename_i hok
    have habove : ∀ p ∈ c.reported, p.2.value < out.2.epoch.value := by
      intro p hp
      obtain ⟨e, he, hle⟩ := hjournaled p hp
      exact UInt64.lt_of_le_of_lt hle (hnew hok e he)
    exact ⟨fun p hp => Nat.le_succ_of_le (h.past p hp),
      fun _ p hp => ⟨UInt64.le_of_lt (habove p hp), fun _ => habove p hp⟩,
      fun hnot => by simp at hnot, h.increasing⟩
  · exact ⟨h.past, fun hs => by simp at hs, fun _ => hjournaled, h.increasing⟩

end Chronicle

/-- In every run over one directory that recovers what was appended, and in which no
incarnation ends with its epoch in memory only, later incarnations report strictly greater
epochs. -/
theorem epochs_increase {disk : Disk} {w : Config (Fabric × Chronicle) Call} {n : ℕ}
    (h : Run incarnations journaledAtRestart
      (.idle (Fabric.construct {} disk, {})) n w) :
    w.shared.2.Increasing := by
  have hsound : w.shared.2.Sound w.shared.1 := by
    refine h.invariant (I := fun w => w.shared.2.Sound w.shared.1) .empty ?_
    intro c e c' hc hok hs
    cases hs with
    | start _ => exact hc
    | move here => exact (hc.observe _ _ _).report (Call.epoch_le_step _ _ _)
    | restart hr =>
      obtain ⟨config, a, hstart, rfl⟩ := hr
      exact (hc.restarted hok fun hok => lt_epoch_of_startsOver hstart hok).report
        (UInt64.le_refl _)
  exact hsound.increasing

namespace Scenario

/-- A start over the files of `s`. -/
def nextIncarnation (s : Fabric × Chronicle) : Fabric × Chronicle :=
  let out := (Fabric.construct { durableDirectory := [100] } s.1.storage.disk).initializeFabric {}
  (out.2, (s.2.restarted out).report out.2.epoch)

theorem nextIncarnation_restarts {s : Fabric × Chronicle}
    (h : startsOver { durableDirectory := [100] } s.1.storage.disk s.2.journaled {} = true) :
    incarnations.restarts s (nextIncarnation s) :=
  ⟨_, _, h, rfl⟩

/-- The first incarnation, once it has advanced its epoch. -/
def advanced (a : Answers) : Config (Fabric × Chronicle) Call :=
  incarnations.exec (.idle (nextIncarnation (Fabric.construct {} {}, {})))
    (.start 0 .advanceEpoch :: List.replicate 5 (.move 0 a))

/-- An append that fails and leaves no bytes. -/
def appendFails : Answers where
  files := { append := fun _ => .headerFailed .nothing }

theorem run_advanced {ok : Config (Fabric × Chronicle) Call → Event Call Request Answers → Prop}
    (a : Answers) (hmoves : ∀ c e, withinIncarnation c e → ok c e)
    (hstart : ok (.idle (Fabric.construct {} {}, {})) .restart)
    (hend : ok (advanced a) .restart)
    (hrecovers : startsOver { durableDirectory := [100] }
      (advanced a).shared.1.storage.disk (advanced a).shared.2.journaled {} = true) :
    ∃ n, Run incarnations ok (.idle (Fabric.construct {} {}, {})) n
      (.idle (nextIncarnation (advanced a).shared)) := by
  have hfirst : incarnations.restarts (Fabric.construct {} {}, {})
      (nextIncarnation (Fabric.construct {} {}, {})) :=
    nextIncarnation_restarts (by decide +kernel)
  have hsecond : incarnations.restarts (advanced a).shared
      (nextIncarnation (advanced a).shared) := nextIncarnation_restarts hrecovers
  obtain ⟨n, hn⟩ : ∃ n, Run incarnations withinIncarnation
      (.idle (nextIncarnation (Fabric.construct {} {}, {}))) n (advanced a) :=
    Program.run_exec _ _
  have hrun := (Run.zero.succ hstart (.restart hfirst)).trans (hn.mono hmoves)
  exact ⟨_, hrun.succ hend (.restart hsecond)⟩

end Scenario

/-- Two incarnations, the first of which journals the epoch it advances to. -/
theorem epochs_increase_twoIncarnations :
    (Scenario.nextIncarnation (Scenario.advanced {}).shared).2.Increasing := by
  obtain ⟨n, hn⟩ := @Scenario.run_advanced journaledAtRestart {}
    (fun _ e _ => by cases e <;> trivial)
    (fun h => absurd h (by decide))
    (fun _ => by decide +kernel) (by decide +kernel)
  exact epochs_increase hn

/-- The append of an advanced epoch fails: the next incarnation reports that epoch again. -/
theorem epoch_shared :
    ∃ (w : Config (Fabric × Chronicle) Call) (n : ℕ),
      Run incarnations anyStep (.idle (Fabric.construct {} {}, {})) n w ∧
        ¬ w.shared.2.Increasing := by
  obtain ⟨n, hn⟩ := @Scenario.run_advanced anyStep Scenario.appendFails
    (fun _ _ _ => trivial) trivial trivial (by decide +kernel)
  refine ⟨_, n, hn, fun h => ?_⟩
  have hshared : (1, (⟨3⟩ : Epoch)) ∈
        (Scenario.nextIncarnation (Scenario.advanced Scenario.appendFails).shared).2.reported ∧
      (2, (⟨3⟩ : Epoch)) ∈
        (Scenario.nextIncarnation (Scenario.advanced Scenario.appendFails).shared).2.reported := by
    decide +kernel
  exact absurd (h _ hshared.1 _ hshared.2 (by decide)) (by decide)

end Pacing
